import LosslessHermes.Store.ContextRange

/-!
# The ingest transaction

The body of the one transaction in which a message is stored: the next `seq`,
the message row, its parts and its context item. `persist_spec` says that on a
well-formed store it always succeeds, and what every read returns afterwards.
-/

namespace LosslessHermes

/-- `_persist` of `_ingest_single`. A collision on `seq` counts as a message
that another caller has already ingested. -/
def persist (db : Db) (now : Timestamp) (conversationId : ConversationId) (role : MessageRole)
    (content : String) (tokenCount : Nat) (parts : List CreateMessagePartInput) :
    Except SqlError (Db × Bool) :=
  match db.createMessage now
      ⟨conversationId, db.getMaxSeq conversationId + 1, role, content, tokenCount⟩ with
  | .error (.uniqueConstraint _) => .ok (db, false)
  | .error e => .error e
  | .ok (db, record) =>
      match db.createMessageParts record.messageId parts with
      | .error e => .error e
      | .ok db =>
          match db.appendContextMessage conversationId record.messageId with
          | .error e => .error e
          | .ok db => .ok (db, true)

/-- The message row that `persist` creates. -/
def persistedMessage (db : Db) (now : Timestamp) (conversationId : ConversationId)
    (role : MessageRole) (content : String) (tokenCount : Nat) : MessageRecord :=
  db.createdMessage now
    ⟨conversationId, db.getMaxSeq conversationId + 1, role, content, tokenCount⟩

theorem persist_spec {db : Db} (h : db.MessagesWellFormed) {c : ConversationId}
    (hConversation : (db.getConversation c).isSome) (hItems : Contiguous (db.getContextItems c))
    (now : Timestamp) (role : MessageRole) (content : String) (tokenCount : Nat)
    (parts : List CreateMessagePartInput) :
    ∃ db', persist db now c role content tokenCount parts = .ok (db', true) ∧
      db' = { db with
        messages := db.messages ++ [persistedMessage db now c role content tokenCount]
        messageParts := db.messageParts ++ Db.messagePartRows (db.messageSequence + 1) parts
        contextItems := db'.contextItems
        messageSequence := db.messageSequence + 1 } ∧
      db'.MessagesWellFormed ∧
      (db'.getMessages c =
        db.getMessages c ++ [persistedMessage db now c role content tokenCount]) ∧
      (∀ c', c' ≠ c → db'.getMessages c' = db.getMessages c') ∧
      (db'.getContextItems c = db.getContextItems c ++
        [⟨c, (db.getContextItems c).length, .message (db.messageSequence + 1)⟩]) ∧
      ∀ c', c' ≠ c → db'.getContextItems c' = db.getContextItems c' := by
  let input : Db.CreateMessageInput :=
    ⟨c, db.getMaxSeq c + 1, role, content, tokenCount⟩
  obtain ⟨db₁, hCreate, hFrame₁, hWell₁, hMessages, hOther⟩ :=
    Db.createMessage_spec h now input hConversation rfl
  have hRecord : db₁.getMessageById (db.messageSequence + 1) true =
      some (db.createdMessage now input) := by
    rw [hFrame₁]
    exact Db.getMessageById_new h rfl
  obtain ⟨db₂, hParts, hFrame₂⟩ : ∃ db₂,
      db₁.createMessageParts (db.messageSequence + 1) parts = .ok db₂ ∧
      db₂ = { db₁ with
        messageParts :=
          db₁.messageParts ++ Db.messagePartRows (db.messageSequence + 1) parts } := by
    unfold Db.createMessageParts
    split
    · rename_i hNil
      exact ⟨db₁, rfl, by simp [hNil, Db.messagePartRows]⟩
    · rw [hRecord]
      exact ⟨_, rfl, rfl⟩
  have hContext₂ : ∀ c', db₂.getContextItems c' = db.getContextItems c' := by
    intro c'
    rw [hFrame₂, hFrame₁]
    rfl
  obtain ⟨db₃, hAppend, hFrame₃, hItems₃, hOther₃⟩ :=
    Db.appendContextMessage_spec db₂ c (db.messageSequence + 1)
      (by rw [hFrame₂, hFrame₁]; exact hConversation)
      (by rw [hFrame₂]; exact Option.isSome_iff_exists.mpr ⟨_, hRecord⟩)
      (by rw [hContext₂]; exact hItems)
  have hMessages₃ : ∀ c', db₃.getMessages c' = db₁.getMessages c' := by
    intro c'
    rw [hFrame₃, hFrame₂]
    rfl
  refine ⟨db₃, ?_, ?_, ?_, ?_, ?_, ?_, ?_⟩
  · unfold persist
    rw [hCreate]
    dsimp only
    rw [show (db.createdMessage now input).messageId = db.messageSequence + 1 from rfl, hParts]
    dsimp only
    rw [hAppend]
  · rw [hFrame₃, hFrame₂, hFrame₁]
    rfl
  · rw [hFrame₃, hFrame₂]
    exact ⟨hWell₁.idBound, hWell₁.idNodup, hWell₁.seqNodup⟩
  · rw [hMessages₃]
    exact hMessages
  · intro c' hc'
    rw [hMessages₃]
    exact hOther c' hc'
  · rw [hItems₃, hContext₂]
  · intro c' hc'
    rw [hOther₃ c' hc', hContext₂]

end LosslessHermes
