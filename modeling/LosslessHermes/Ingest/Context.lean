import LosslessHermes.Ingest.Single

/-!
# What ingest leaves in the context

The context items of a session behind a window of messages. `ingestBatch_context`
says that a window whose calls do not raise appends one item for each persistable
message, in order, which refers to the row that holds the message.
-/

namespace LosslessHermes

open Json (get?)

namespace Db

/-- The context that a session reads: empty until it has a conversation. -/
def sessionContext (db : Db) (sessionId : SessionId) : List ContextItemRecord :=
  match db.getConversationBySessionId sessionId with
  | some conversation => db.getContextItems conversation.conversationId
  | none => []

/-- Context items belong to conversations that have been handed out. -/
def ContextBound (db : Db) : Prop :=
  ∀ i ∈ db.contextItems, i.conversationId ≤ db.conversationSequence

theorem sessionContext_of_conversation {db : Db} {s : SessionId} {c : ConversationRecord}
    (h : db.getConversationBySessionId s = some c) :
    db.sessionContext s = db.getContextItems c.conversationId := by
  simp only [sessionContext, h]

theorem getOrCreateConversation_context {db : Db} (hBound : ContextBound db) (now : Timestamp)
    (s : SessionId) :
    ContextBound (db.getOrCreateConversation now s).1 ∧
      (db.getOrCreateConversation now s).1.sessionContext s = db.sessionContext s ∧
      (db.getOrCreateConversation now s).1.messages = db.messages := by
  unfold getOrCreateConversation
  cases hFound : db.getConversationBySessionId s with
  | some c => exact ⟨hBound, rfl, rfl⟩
  | none =>
    refine ⟨fun i hi => Nat.le_succ_of_le (hBound i hi), ?_, rfl⟩
    rw [sessionContext_of_conversation (getConversationBySessionId_create_self now hFound)]
    simp only [sessionContext, hFound]
    refine List.eq_nil_iff_forall_not_mem.mpr fun i hi => ?_
    obtain ⟨hMem, hConversation⟩ := mem_getContextItems.mp hi
    have hLe := hBound i hMem
    rw [hConversation] at hLe
    exact absurd hLe (Nat.not_succ_le_self _)

/-- Reads by id see what they saw before. -/
def RowsKept (db db' : Db) : Prop :=
  ∀ m record, db.getMessageById m = some record → db'.getMessageById m = some record

theorem getMessageById_created {db : Db} (h : MessagesWellFormed db) {record : MessageRecord}
    (hId : record.messageId = db.messageSequence + 1) (hSuppressed : record.suppressedAt = none) :
    Db.getMessageById { db with messages := db.messages ++ [record] } record.messageId =
      some record := by
  unfold getMessageById
  rw [List.find?_append, List.find?_eq_none.mpr, Option.none_or]
  · simp [hSuppressed]
  · intro m hm
    have hLe := h.idBound m hm
    simp only [Bool.false_eq_true, false_or, decide_eq_true_eq, not_and]
    exact fun hEq => absurd (hEq.trans hId) (Nat.ne_of_lt (Nat.lt_succ_of_le hLe))

end Db

section Context

variable (strOf : Json → String) (sessionId : SessionId)

/-- What an entry of a window leaves in the context: nothing, or the item of the row that
holds its message. -/
inductive LeftInContext (db : Db) (entry : Json × Attempt) : Option ContextItemRecord → Prop
  | skipped (hSkipped : persistable entry.1 = none) : LeftInContext db entry none
  | stored {message : Message} {item : ContextItemRecord} {row : MessageRecord}
      (hMessage : persistable entry.1 = some message) (hItem : item.ref = .message row.messageId)
      (hFound : db.getMessageById row.messageId = some row)
      (hStored : StoredAs strOf sessionId db message entry.2 row) :
      LeftInContext db entry (some item)

/-- A call that does not raise appends the item of its message to the context. -/
theorem ingestPersistable_context {db : Db} (h : db.WellFormed) (hBound : db.ContextBound)
    {attempt : Attempt} (hFault : attempt.fault = none) (message : Message) :
    ∃ db' row item, (ingestPersistable strOf sessionId attempt db message).1 = db' ∧
      db'.WellFormed ∧ db'.ContextBound ∧ Db.RowsKept db db' ∧
      Db.TranscriptFrame sessionId db db' ∧
      db'.sessionContext sessionId = db.sessionContext sessionId ++ [item] ∧
      item.ref = .message row.messageId ∧ db'.getMessageById row.messageId = some row ∧
      StoredAs strOf sessionId db' message attempt row := by
  obtain ⟨db', row, hSingle, hWell', hRow, hStored, hFrame⟩ :=
    ingestPersistable_of_no_fault strOf sessionId h hFault message
  obtain ⟨hWell₁, hFound, hSame, -⟩ := Db.getOrCreateConversation_spec h attempt.now sessionId
  obtain ⟨hBound₁, hContext₁, hMessages₁⟩ :=
    Db.getOrCreateConversation_context hBound attempt.now sessionId
  generalize hResolved : db.getOrCreateConversation attempt.now sessionId = resolved at *
  obtain ⟨db₁, conversation⟩ := resolved
  dsimp only at hWell₁ hFound hSame hBound₁ hContext₁ hMessages₁
  obtain ⟨hMem, -⟩ := Db.mem_of_getConversationBySessionId hFound
  let guarded := applyIngestPayloadGuard attempt message
  let content := extractMessageContent (get? guarded "content")
  let role := toDbRole (get? guarded "role")
  obtain ⟨db'', hPersist, hEq, hMessages, hRows, -, hItems, hOtherItems⟩ :=
    persist_spec hWell₁.messages (Db.getConversation_isSome hMem) (hWell₁.contiguous _) attempt.now
      role content (estimateTokens content) (buildMessageParts strOf sessionId guarded content)
  let created := persistedMessage db₁ attempt.now conversation.conversationId role content
    (estimateTokens content)
  have hRun : ingestPersistable strOf sessionId attempt db message = (db'', .ok true) := by
    simp only [ingestPersistable, hFault, hResolved]
    rw [withTransaction_ok hPersist]
    rfl
  obtain rfl : db'' = db' := congrArg Prod.fst (hRun.symm.trans hSingle)
  have hFound' : db''.getConversationBySessionId sessionId = some conversation := by
    rw [hEq]
    exact hFound
  obtain rfl : row = created := by
    rw [Db.storedMessages_of_conversation hFound', ← hSame,
      Db.storedMessages_of_conversation hFound, hRows, List.append_cancel_left_eq] at hRow
    exact (List.cons.inj hRow).1.symm
  let item : ContextItemRecord := ⟨conversation.conversationId,
    (db₁.getContextItems conversation.conversationId).length, .message (db₁.messageSequence + 1)⟩
  refine ⟨db'', created, item, by rw [hSingle], hWell', fun i hi => ?_, fun m record hRecord => ?_,
    hFrame, ?_, rfl, ?_, hStored⟩
  · have hIn : i ∈ db''.getContextItems i.conversationId := Db.mem_getContextItems.mpr ⟨hi, rfl⟩
    have hSequence : db''.conversationSequence = db₁.conversationSequence := by rw [hEq]
    rw [hSequence]
    by_cases hSelf : i.conversationId = conversation.conversationId
    · rw [hSelf]
      exact hWell₁.conversationBound _ hMem
    · rw [hOtherItems _ hSelf] at hIn
      exact hBound₁ i (Db.mem_getContextItems.mp hIn).1
  · rw [hEq]
    refine Db.getMessageById_append ?_
    rw [Db.getMessageById, hMessages₁]
    exact hRecord
  · rw [Db.sessionContext_of_conversation hFound', hItems, ← hContext₁,
      Db.sessionContext_of_conversation hFound]
  · rw [hEq]
    exact Db.getMessageById_created hWell₁.messages rfl rfl

theorem ingestBatch_cons (db : Db) (message : Json) (attempt : Attempt)
    (window : List (Json × Attempt)) :
    (ingestBatch strOf sessionId db ((message, attempt) :: window)).1 =
      (ingestBatch strOf sessionId (ingestSingle strOf sessionId attempt db message).1
        window).1 := by
  rw [ingestBatch]
  split <;> rfl

/-- A window whose calls do not raise appends to the context what its entries leave. -/
theorem ingestBatch_context {db : Db} (h : db.WellFormed) (hBound : db.ContextBound)
    {window : List (Json × Attempt)} (hFaults : ∀ entry ∈ window, entry.2.fault = none) :
    ∃ left : List ((Json × Attempt) × Option ContextItemRecord),
      left.map (·.1) = window ∧
      (ingestBatch strOf sessionId db window).1.sessionContext sessionId =
        db.sessionContext sessionId ++ left.filterMap (·.2) ∧
      (∀ p ∈ left, LeftInContext strOf sessionId (ingestBatch strOf sessionId db window).1
        p.1 p.2) ∧
      (ingestBatch strOf sessionId db window).1.WellFormed ∧
      Db.RowsKept db (ingestBatch strOf sessionId db window).1 ∧
      Db.TranscriptFrame sessionId db (ingestBatch strOf sessionId db window).1 := by
  induction window generalizing db with
  | nil =>
    exact ⟨[], rfl, (List.append_nil _).symm, fun _ hp => absurd hp List.not_mem_nil, h,
      fun _ _ hRecord => hRecord, Db.TranscriptFrame.refl _ _⟩
  | cons entry window ih =>
    obtain ⟨message, attempt⟩ := entry
    obtain ⟨hFault, hRest⟩ := List.forall_mem_cons.mp hFaults
    rw [ingestBatch_cons, ingestSingle_eq]
    cases hMessage : persistable message with
    | none =>
      obtain ⟨left, hWindow, hContext, hLeft, hWell, hRows, hFrame⟩ := ih h hBound hRest
      refine ⟨((message, attempt), none) :: left, by rw [List.map_cons, hWindow], hContext,
        List.forall_mem_cons.mpr ⟨.skipped hMessage, hLeft⟩, hWell, hRows, hFrame⟩
    | some fields =>
      obtain ⟨db₁, row, item, hSingle, hWell₁, hBound₁, hRows₁, hFrame₁, hContext₁, hItem,
        hFound, hStored⟩ := ingestPersistable_context strOf sessionId h hBound hFault fields
      dsimp only
      rw [hSingle]
      obtain ⟨left, hWindow, hContext, hLeft, hWell, hRows, hFrame⟩ := ih hWell₁ hBound₁ hRest
      refine ⟨((message, attempt), some item) :: left, by rw [List.map_cons, hWindow], ?_,
        List.forall_mem_cons.mpr ⟨?_, hLeft⟩, hWell,
        fun m record hRecord => hRows _ _ (hRows₁ _ _ hRecord), hFrame₁.trans hFrame⟩
      · rw [hContext, hContext₁, List.append_assoc]
        rfl
      · exact .stored hMessage hItem (hRows _ _ hFound) (hStored.mono hFrame)

end Context
end LosslessHermes
