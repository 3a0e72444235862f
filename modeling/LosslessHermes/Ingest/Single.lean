import LosslessHermes.Ingest.Guard
import LosslessHermes.Ingest.Persist
import LosslessHermes.Store.Transcript
import LosslessHermes.Tokens

/-!
# Ingesting one message and a batch of messages

`ingestSingle` stores one history entry in its own transaction, `ingestBatch`
a window of them with each failure kept to its message. What the environment
contributes to a call is an `Attempt`: the time, the outcomes of the large-file
writes and the place where the call raises, if it does.
-/

namespace LosslessHermes

open Json (get?)

/-- Where a call of `_ingest_single` raises: while it resolves the conversation,
between that and the transaction, or inside the transaction, which is rolled
back. -/
inductive IngestFault
  | conversation
  | preparation
  | transaction
  deriving DecidableEq, Repr

inductive IngestError
  | raised (fault : IngestFault)
  | sql (error : SqlError)
  deriving DecidableEq, Repr

structure Attempt where
  now : Timestamp
  /-- The file id of each write of a large file, if it succeeds. -/
  externalize : Nat → Option String
  /-- Whether the guard itself raises. -/
  guardRaises : Bool
  fault : Option IngestFault

/-- `_apply_ingest_payload_guard`. -/
def applyIngestPayloadGuard (attempt : Attempt) (message : Message) : Message :=
  if attempt.guardRaises then message
  else protectMessageForIngest attempt.externalize message

section Ingest

variable (strOf : Json → String) (sessionId : SessionId)

/-- `_ingest_single` behind its gates. -/
def ingestPersistable (attempt : Attempt) (db : Db) (message : Message) :
    Db × Except IngestError Bool :=
  if attempt.fault = some .conversation then (db, .error (.raised .conversation))
  else
    let resolved := db.getOrCreateConversation attempt.now sessionId
    if attempt.fault = some .preparation then (resolved.1, .error (.raised .preparation))
    else
      let message := applyIngestPayloadGuard attempt message
      let dbRole := toDbRole (get? message "role")
      let fallbackContent := extractMessageContent (get? message "content")
      let tokenCount := estimateTokens fallbackContent
      let parts := buildMessageParts strOf sessionId message fallbackContent
      if attempt.fault = some .transaction then (resolved.1, .error (.raised .transaction))
      else
        let result := withTransaction resolved.1 fun db =>
          persist db attempt.now resolved.2.conversationId dbRole fallbackContent tokenCount parts
        (result.1, result.2.mapError .sql)

/-- `_ingest_single`: whether a row was stored, or the exception. -/
def ingestSingle (attempt : Attempt) (db : Db) (message : Json) :
    Db × Except IngestError Bool :=
  match message with
  | .obj message =>
      if !hasPersistableRole message then (db, .ok false)
      else if isFailedEmptyAssistant message then (db, .ok false)
      else ingestPersistable strOf sessionId attempt db message
  | _ => (db, .ok false)

/-- `_ingest_batch`: the count of stored messages. An exception is logged and
the next message is tried. -/
def ingestBatch : Db → List (Json × Attempt) → Db × Nat
  | db, [] => (db, 0)
  | db, (message, attempt) :: window =>
      let single := ingestSingle strOf sessionId attempt db message
      let rest := ingestBatch single.1 window
      match single.2 with
      | .ok true => (rest.1, rest.2 + 1)
      | _ => rest

/-! ## The messages that count -/

/-- The gates that `_ingest_single` and the replay walk share: the message of an
entry that is to be stored. -/
def persistable (message : Json) : Option Message :=
  match message with
  | .obj message =>
      if hasPersistableRole message && !isFailedEmptyAssistant message then some message else none
  | _ => none

/-- The persistable messages of a window with their attempts. -/
def offered (window : List (Json × Attempt)) : List (Message × Attempt) :=
  window.filterMap fun entry => (persistable entry.1).map fun message => (message, entry.2)

/-- A row holds a message as this attempt stores it, with its parts. -/
structure StoredAs (db : Db) (message : Message) (attempt : Attempt) (row : MessageRecord) :
    Prop where
  role : row.role = toDbRole (get? message "role")
  content : row.content =
    extractMessageContent (get? (applyIngestPayloadGuard attempt message) "content")
  bound : row.messageId ≤ db.messageSequence
  parts : db.getMessageParts row.messageId =
    Db.messagePartRows row.messageId (buildMessageParts strOf sessionId
      (applyIngestPayloadGuard attempt message) row.content)

theorem guarded_role (attempt : Attempt) (message : Message) :
    get? (applyIngestPayloadGuard attempt message) "role" = get? message "role" := by
  unfold applyIngestPayloadGuard
  split
  · rfl
  · exact get?_protectMessageForIngest _ _ (by decide) (by decide)

/-! ## Parts are numbered -/

theorem buildMessageParts_sorted (message : Message) (fallbackContent : String) :
    (buildMessageParts strOf sessionId message fallbackContent).Pairwise
      (fun a b => a.ordinal < b.ordinal) := by
  unfold buildMessageParts
  split
  · exact List.pairwise_singleton _ _
  · exact List.pairwise_singleton _ _
  · rename_i blocks _
    refine List.pairwise_iff_getElem.mpr fun i j hi hj hij => ?_
    have hOrdinal : ∀ n block, (blockPart strOf sessionId message n block).ordinal = n := by
      intro n block
      cases block <;> rfl
    simpa only [List.getElem_mapIdx, hOrdinal] using hij
  · exact List.pairwise_singleton _ _

theorem getMessageParts_new {db : Db} (h : db.WellFormed) {parts : List CreateMessagePartInput}
    (hSorted : parts.Pairwise (fun a b => a.ordinal < b.ordinal)) :
    Db.getMessageParts { db with
      messageParts := db.messageParts ++ Db.messagePartRows (db.messageSequence + 1) parts }
      (db.messageSequence + 1) = Db.messagePartRows (db.messageSequence + 1) parts := by
  unfold Db.getMessageParts
  refine Table.select_append_of_new ?_ ?_ ?_
  · intro p hp
    have := h.partBound p hp
    simp only [decide_eq_false_iff_not]
    exact Nat.ne_of_lt (Nat.lt_succ_of_le this)
  · intro p hp
    obtain ⟨q, -, rfl⟩ := List.mem_map.mp hp
    simp
  · exact List.pairwise_map.mpr hSorted

/-! ## One message -/

theorem ingestSingle_eq (attempt : Attempt) (db : Db) (message : Json) :
    ingestSingle strOf sessionId attempt db message =
      match persistable message with
      | some fields => ingestPersistable strOf sessionId attempt db fields
      | none => (db, .ok false) := by
  cases message with
  | obj fields =>
    cases hRole : hasPersistableRole fields <;> cases hFailed : isFailedEmptyAssistant fields <;>
      simp [ingestSingle, persistable, hRole, hFailed]
  | _ => rfl

/-- A call that raises leaves every transcript as it was. -/
theorem ingestPersistable_of_fault {db : Db} (h : db.WellFormed) {attempt : Attempt}
    (hFault : attempt.fault ≠ none) (message : Message) :
    (∃ e, (ingestPersistable strOf sessionId attempt db message).2 = .error e) ∧
      (ingestPersistable strOf sessionId attempt db message).1.WellFormed ∧
      (ingestPersistable strOf sessionId attempt db message).1.storedMessages sessionId =
        db.storedMessages sessionId ∧
      Db.TranscriptFrame sessionId db
        (ingestPersistable strOf sessionId attempt db message).1 := by
  obtain ⟨hWell, -, hStored, hFrame⟩ := Db.getOrCreateConversation_spec h attempt.now sessionId
  unfold ingestPersistable
  cases hAttempt : attempt.fault with
  | none => exact absurd hAttempt hFault
  | some fault =>
    cases fault with
    | conversation => exact ⟨⟨_, rfl⟩, h, rfl, Db.TranscriptFrame.refl sessionId db⟩
    | preparation => exact ⟨⟨_, rfl⟩, hWell, hStored, hFrame⟩
    | transaction => exact ⟨⟨_, rfl⟩, hWell, hStored, hFrame⟩

/-- A call that does not raise stores the message as the last one of the
session's transcript. -/
theorem ingestPersistable_of_no_fault {db : Db} (h : db.WellFormed) {attempt : Attempt}
    (hFault : attempt.fault = none) (message : Message) :
    ∃ db' row, ingestPersistable strOf sessionId attempt db message = (db', .ok true) ∧
      db'.WellFormed ∧ db'.storedMessages sessionId = db.storedMessages sessionId ++ [row] ∧
      StoredAs strOf sessionId db' message attempt row ∧
      Db.TranscriptFrame sessionId db db' := by
  obtain ⟨hWell, hFound, hStored, hFrame⟩ :=
    Db.getOrCreateConversation_spec h attempt.now sessionId
  generalize hResolved : db.getOrCreateConversation attempt.now sessionId = resolved at *
  obtain ⟨db₁, conversation⟩ := resolved
  dsimp only at hWell hFound hStored hFrame
  let guarded := applyIngestPayloadGuard attempt message
  let content := extractMessageContent (get? guarded "content")
  let parts := buildMessageParts strOf sessionId guarded content
  obtain ⟨hMem, -⟩ := Db.mem_of_getConversationBySessionId hFound
  obtain ⟨db', hPersist, hEq, hMessages, hRows, hOther, hItems, hOtherItems⟩ :=
    persist_spec hWell.messages (Db.getConversation_isSome hMem) (hWell.contiguous _) attempt.now
      (toDbRole (get? guarded "role")) content (estimateTokens content) parts
  let row := persistedMessage db₁ attempt.now conversation.conversationId
    (toDbRole (get? guarded "role")) content (estimateTokens content)
  have hConversations : ∀ s, db'.getConversationBySessionId s =
      db₁.getConversationBySessionId s := by
    intro s
    rw [hEq]
    rfl
  refine ⟨db', row, ?_, ?_, ?_, ?_, ?_⟩
  · simp only [ingestPersistable, hFault, hResolved]
    rw [withTransaction_ok hPersist]
    rfl
  · refine ⟨hMessages, ?_, ?_, ?_, ?_, ?_⟩
    · intro c
      by_cases hc : c = conversation.conversationId
      · rw [hc, hItems]
        exact (hWell.contiguous _).append rfl
      · rw [hOtherItems c hc]
        exact hWell.contiguous c
    · rw [hEq]
      exact hWell.conversationBound
    · rw [hEq]
      exact hWell.conversationNodup
    · rw [hEq]
      intro m hm
      rcases List.mem_append.mp hm with hm | hm
      · exact hWell.messageBound m hm
      · rw [List.mem_singleton.mp hm]
        exact hWell.conversationBound conversation hMem
    · rw [hEq]
      intro p hp
      rcases List.mem_append.mp hp with hp | hp
      · exact Nat.le_succ_of_le (hWell.partBound p hp)
      · obtain ⟨q, -, rfl⟩ := List.mem_map.mp hp
        exact Nat.le_refl _
  · rw [← hStored, Db.storedMessages_of_conversation hFound,
      Db.storedMessages_of_conversation ((hConversations _).trans hFound), hRows]
  · have hNew :=
      getMessageParts_new hWell (buildMessageParts_sorted strOf sessionId guarded content)
    refine ⟨?_, rfl, ?_, ?_⟩
    · rw [← guarded_role attempt message]
      rfl
    · rw [hEq]
      exact Nat.le_refl _
    · rw [hEq]
      exact hNew
  · refine hFrame.trans ⟨fun s _ => hConversations s, ?_, ?_, ?_⟩
    · intro s hs
      refine Db.storedMessages_congr (hConversations s) fun c hc => ?_
      exact hOther _ (hWell.conversationId_ne hFound hc hs)
    · rw [hEq]
      exact Nat.le_succ _
    · intro m hm
      rw [hEq]
      refine Table.select_append_of_not fun p hp => ?_
      obtain ⟨q, -, rfl⟩ := List.mem_map.mp hp
      simp only [decide_eq_false_iff_not]
      exact (Nat.ne_of_lt (Nat.lt_succ_of_le hm)).symm

/-- A call stores its message as the last one of the transcript, or leaves the
transcript as it was. -/
theorem ingestSingle_cases {db : Db} (h : db.WellFormed) (attempt : Attempt) (message : Json) :
    (ingestSingle strOf sessionId attempt db message).1.WellFormed ∧
      Db.TranscriptFrame sessionId db (ingestSingle strOf sessionId attempt db message).1 ∧
      ((∃ fields row, (ingestSingle strOf sessionId attempt db message).2 = .ok true ∧
          persistable message = some fields ∧
          (ingestSingle strOf sessionId attempt db message).1.storedMessages sessionId =
            db.storedMessages sessionId ++ [row] ∧
          StoredAs strOf sessionId (ingestSingle strOf sessionId attempt db message).1
            fields attempt row) ∨
        ((ingestSingle strOf sessionId attempt db message).2 ≠ .ok true ∧
          (ingestSingle strOf sessionId attempt db message).1.storedMessages sessionId =
            db.storedMessages sessionId)) := by
  rw [ingestSingle_eq]
  cases hMessage : persistable message with
  | none => exact ⟨h, Db.TranscriptFrame.refl _ _, Or.inr ⟨by simp, rfl⟩⟩
  | some fields =>
    dsimp only
    by_cases hFault : attempt.fault = none
    · obtain ⟨db', row, hEq, hWell, hRow, hStored, hFrame⟩ :=
        ingestPersistable_of_no_fault strOf sessionId h hFault fields
      rw [hEq]
      exact ⟨hWell, hFrame, Or.inl ⟨fields, row, rfl, rfl, hRow, hStored⟩⟩
    · obtain ⟨⟨e, hError⟩, hWell, hSame, hFrame⟩ :=
        ingestPersistable_of_fault strOf sessionId h hFault fields
      exact ⟨hWell, hFrame, Or.inr ⟨by simp [hError], hSame⟩⟩

/-! ## A window of messages -/

variable {strOf sessionId}

theorem StoredAs.mono {db db' : Db} {message : Message} {attempt : Attempt} {row : MessageRecord}
    (h : StoredAs strOf sessionId db message attempt row) {writer : SessionId}
    (hFrame : Db.TranscriptFrame writer db db') :
    StoredAs strOf sessionId db' message attempt row where
  role := h.role
  content := h.content
  bound := Nat.le_trans h.bound hFrame.sequence
  parts := (hFrame.parts _ h.bound).trans h.parts

variable (strOf sessionId)

/-- A batch, its skipped entries left out. -/
def ingestOffered : Db → List (Message × Attempt) → Db × Nat
  | db, [] => (db, 0)
  | db, (message, attempt) :: window =>
      let single := ingestPersistable strOf sessionId attempt db message
      let rest := ingestOffered single.1 window
      match single.2 with
      | .ok true => (rest.1, rest.2 + 1)
      | _ => rest

variable {strOf sessionId} in
/-- An entry that stores nothing does not count. -/
theorem ingestBatch_skipped {db : Db} {message : Json} {attempt : Attempt}
    {window : List (Json × Attempt)}
    (h : (ingestSingle strOf sessionId attempt db message).2 ≠ .ok true) :
    ingestBatch strOf sessionId db ((message, attempt) :: window) =
      ingestBatch strOf sessionId (ingestSingle strOf sessionId attempt db message).1 window := by
  rw [ingestBatch]
  split
  · rename_i hOk
    exact absurd hOk h
  · rfl

/-- Only the persistable entries of a window have an effect. -/
theorem ingestBatch_eq_ingestOffered (db : Db) (window : List (Json × Attempt)) :
    ingestBatch strOf sessionId db window = ingestOffered strOf sessionId db (offered window) := by
  induction window generalizing db with
  | nil => rfl
  | cons entry window ih =>
    obtain ⟨message, attempt⟩ := entry
    rw [ingestBatch, ingestSingle_eq]
    cases hMessage : persistable message with
    | none =>
      have hOffered : offered ((message, attempt) :: window) = offered window := by
        simp [offered, hMessage]
      rw [hOffered]
      exact ih db
    | some fields =>
      have hOffered : offered ((message, attempt) :: window) =
          (fields, attempt) :: offered window := by
        simp [offered, hMessage]
      rw [hOffered, ingestOffered]
      simp only [ih]

theorem ingestOffered_spec {db : Db} (h : db.WellFormed) (window : List (Message × Attempt)) :
    ∃ db' created, ingestOffered strOf sessionId db window = (db', created.length) ∧
      db'.WellFormed ∧ db'.storedMessages sessionId = db.storedMessages sessionId ++ created ∧
      List.Forall₂ (fun offer row => StoredAs strOf sessionId db' offer.1 offer.2 row)
        (window.filter fun offer => offer.2.fault.isNone) created ∧
      Db.TranscriptFrame sessionId db db' := by
  induction window generalizing db with
  | nil => exact ⟨db, [], rfl, h, by simp, List.Forall₂.nil, Db.TranscriptFrame.refl _ _⟩
  | cons offer window ih =>
    obtain ⟨message, attempt⟩ := offer
    rw [ingestOffered]
    cases hFault : attempt.fault with
    | none =>
      obtain ⟨db₁, row, hSingle, hWell, hRow, hStored, hFrame⟩ :=
        ingestPersistable_of_no_fault strOf sessionId h hFault message
      obtain ⟨db', created, hRest, hWell', hCreated, hAll, hFrame'⟩ := ih hWell
      refine ⟨db', row :: created, ?_, hWell', ?_, ?_, hFrame.trans hFrame'⟩
      · rw [hSingle]
        dsimp only
        rw [hRest]
        rfl
      · rw [hCreated, hRow, List.append_assoc]
        rfl
      · rw [List.filter_cons_of_pos (by simp [hFault])]
        exact List.Forall₂.cons (hStored.mono hFrame') hAll
    | some fault =>
      have hRaises : attempt.fault ≠ none := by simp [hFault]
      obtain ⟨⟨e, hError⟩, hWell, hSame, hFrame⟩ :=
        ingestPersistable_of_fault strOf sessionId h hRaises message
      obtain ⟨db', created, hRest, hWell', hCreated, hAll, hFrame'⟩ := ih hWell
      refine ⟨db', created, ?_, hWell', hCreated.trans (by rw [hSame]), ?_,
        hFrame.trans hFrame'⟩
      · rw [hError]
        exact hRest
      · rw [List.filter_cons_of_neg (by simp [hFault])]
        exact hAll

end Ingest
end LosslessHermes
