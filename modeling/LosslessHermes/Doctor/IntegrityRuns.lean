import LosslessHermes.Compaction.Frame
import LosslessHermes.Doctor.Integrity

/-!
# The integrity scan of reachable states

`Healthy` collects what ingestion and compaction maintain: besides `Lossless` and `Rooted`,
no summary is left behind by the pass that condenses it, and messages are numbered from `1`
on. All checks follow from it but the one of the numbers, which fails as soon as there is a
message: `scan_run`.
-/

namespace LosslessHermes.Integrity

open Compaction

/-- The messages of each conversation are numbered `1, 2, …`. -/
def Numbered (db : Db) : Prop :=
  ∀ c, (db.getMessages c).map (·.seq) = List.range' 1 (db.getMessages c).length

structure Healthy (s : RunState) : Prop where
  lossless : Lossless s.db s.ingested
  rooted : Rooted s.db
  reachable : Reachable s.db
  numbered : Numbered s.db

theorem healthy_start (conversations : List ConversationRecord) :
    Healthy (RunState.start conversations) := by
  refine ⟨lossless_start conversations, rooted_start conversations, ?_, ?_⟩
  · exact fun _ hMem => (List.not_mem_nil hMem).elim
  · intro c
    rfl

variable {db db' : Db} {ingested : ConversationId → List MessageId} {s : RunState}
  {c : ConversationId}

/-! ## Ingestion -/

theorem getMaxSeq_of_numbered (h : Numbered db) (c : ConversationId) :
    db.getMaxSeq c = (db.getMessages c).length := by
  have hPerm : ((db.getMessages c).map (·.seq)).Perm
      ((db.messages.filter fun m => m.conversationId = c).map (·.seq)) :=
    (Table.select_perm _).map _
  rw [h c] at hPerm
  unfold Db.getMaxSeq
  rcases Nat.eq_zero_or_pos (db.getMessages c).length with hZero | hPos
  · rw [hZero] at hPerm ⊢
    rw [hPerm.nil_eq.symm]
    rfl
  · have hMax : ((db.messages.filter fun m => m.conversationId = c).map (·.seq)).max? =
        some (db.getMessages c).length := by
      rw [List.max?_eq_some_iff]
      refine ⟨hPerm.mem_iff.mp (List.mem_range'_1.mpr ⟨hPos, by omega⟩), fun n hn => ?_⟩
      have hRange := List.mem_range'_1.mp (hPerm.mem_iff.mpr hn)
      omega
    rw [hMax]
    rfl

theorem numbered_persist (h : Numbered db) {message : MessageRecord}
    (hPersisted : MessagePersisted db db' c message) (hSeq : message.seq = db.getMaxSeq c + 1) :
    Numbered db' := by
  intro c'
  by_cases hc : c' = c
  · subst hc
    rw [getMaxSeq_of_numbered h] at hSeq
    rw [hPersisted.messages, List.map_append, h c', List.length_append, List.length_singleton,
      List.range'_concat, List.map_singleton, hSeq]
    simp [Nat.add_comm]
  · rw [hPersisted.otherMessages c' hc]
    exact h c'

theorem reachable_persist (h : Reachable db) {message : MessageRecord}
    (hPersisted : MessagePersisted db db' c message) : Reachable db' := by
  have hParents : db'.summaryParents = db.summaryParents := by rw [hPersisted.frame]
  intro s hMem
  rw [hPersisted.summaries] at hMem
  rw [hParents]
  refine (h s hMem).imp_left fun hItem => ?_
  by_cases hc : s.conversationId = c
  · rw [hc] at hItem ⊢
    rw [hPersisted.refs]
    exact List.mem_append_left _ hItem
  · rw [hPersisted.otherItems _ hc]
    exact hItem

/-! ## The passes -/

section Replace

variable {record : SummaryRecord} {messageIds : List MessageId} {parentIds : List SummaryId}
  {before chunk after : List ContextItemRecord}

theorem numbered_replace (h : Numbered db)
    (hReplaced : ChunkReplaced db db' c record messageIds parentIds before chunk after) :
    Numbered db' := by
  intro c'
  unfold Db.getMessages
  rw [hReplaced.messages_eq]
  exact h c'

/-- The new summary is in the context, and the summaries of the chunk are its sources. -/
theorem reachable_replace (h : Reachable db)
    (hReplaced : ChunkReplaced db db' c record messageIds parentIds before chunk after)
    (hHome : record.conversationId = c)
    (hRefs : chunk.map (·.ref) = messageIds.map .message ++ parentIds.map .summary) :
    Reachable db' := by
  have hParents : db'.summaryParents = db.summaryParents ++
      (parentIds.zipIdx.map fun place => ⟨record.summaryId, place.1, place.2⟩) := by
    rw [hReplaced.frame]
    rfl
  have hSources : ∀ s, .summary s ∈ chunk.map (·.ref) → s ∈ parentIds := by
    intro s hMem
    simpa [hRefs] using hMem
  intro s hMem
  rw [hReplaced.summaries_eq] at hMem
  rcases List.mem_append.mp hMem with hOld | hNew
  · rcases h s hOld with hItem | ⟨l, hLink, hSource⟩
    · by_cases hc : s.conversationId = c
      · rw [hc, hReplaced.oldRefs, List.mem_append, List.mem_append] at hItem
        rw [hc, hReplaced.refs]
        rcases hItem with (hBefore | hChunk) | hAfter
        · exact Or.inl (List.mem_append_left _ (List.mem_append_left _ hBefore))
        · refine Or.inr ?_
          obtain ⟨i, hi, hId⟩ := List.mem_iff_getElem.mp (hSources _ hChunk)
          refine ⟨⟨record.summaryId, s.summaryId, i⟩, ?_, rfl⟩
          rw [hParents]
          refine List.mem_append_right _ (List.mem_map.mpr ⟨(s.summaryId, i), ?_, rfl⟩)
          exact List.mem_zipIdx_iff_getElem?.mpr (by rw [List.getElem?_eq_getElem hi, hId])
        · exact Or.inl (List.mem_append_right _ hAfter)
      · rw [hReplaced.other _ hc]
        exact Or.inl hItem
    · refine Or.inr ⟨l, ?_, hSource⟩
      rw [hParents]
      exact List.mem_append_left _ hLink
  · refine Or.inl ?_
    rw [List.mem_singleton.mp hNew, hHome, hReplaced.refs]
    exact List.mem_append_left _ (List.mem_append_right _ (List.mem_singleton_self _))

end Replace

/-! ## Every run -/

/-- A step stores a message, or a summary for its chunk, or nothing. -/
theorem step_cases (h : Lossless s.db s.ingested) (event : Event) :
    (s.step event).db = s.db ∨
    (∃ c message, MessagePersisted s.db (s.step event).db c message ∧
      message.seq = s.db.getMaxSeq c + 1) ∨
    ∃ c record messageIds parentIds before chunk after,
      ChunkReplaced s.db (s.step event).db c record messageIds parentIds before chunk after ∧
      record.conversationId = c ∧
      chunk.map (·.ref) = messageIds.map .message ++ parentIds.map .summary := by
  cases event with
  | append c now role content tokenCount parts =>
    rcases step_append h c now role content tokenCount parts with hSame |
      ⟨db', hPersisted, hStep⟩
    · exact .inl (congrArg RunState.db hSame)
    · rw [hStep]
      exact .inr (.inl ⟨c, _, hPersisted, rfl⟩)
  | leafPass c env previousSummaryContent =>
    rcases leafPass_replaced h env c previousSummaryContent with hSame |
      ⟨create, before, chunk, after, -, hReplaced, -, hRefs, hHome⟩
    · exact .inl hSame
    · refine .inr (.inr ⟨c, _, _, _, before, chunk, after, hReplaced, hHome, ?_⟩)
      rw [hRefs, List.map_nil, List.append_nil]
  | condensedPass c env hardTrigger =>
    rcases runCondensedPass_replaced h env c hardTrigger with hSame |
      ⟨targetDepth, create, before, chunk, after, -, hReplaced, -, hDepths, hHome⟩
    · exact .inl hSame
    · refine .inr (.inr ⟨c, _, _, _, before, chunk, after, hReplaced, hHome, ?_⟩)
      rw [(condensedRecords_spec hDepths).1, List.map_nil, List.nil_append]

theorem Healthy.step (h : Healthy s) (event : Event) : Healthy (s.step event) := by
  refine ⟨lossless_step h.lossless event, rooted_step h.lossless h.rooted event, ?_, ?_⟩
  · rcases step_cases h.lossless event with hSame | ⟨c, message, hPersisted, -⟩ |
      ⟨c, record, messageIds, parentIds, before, chunk, after, hReplaced, hHome, hRefs⟩
    · rw [hSame]
      exact h.reachable
    · exact reachable_persist h.reachable hPersisted
    · exact reachable_replace h.reachable hReplaced hHome hRefs
  · rcases step_cases h.lossless event with hSame | ⟨c, message, hPersisted, hSeq⟩ |
      ⟨c, record, messageIds, parentIds, before, chunk, after, hReplaced, -, -⟩
    · rw [hSame]
      exact h.numbered
    · exact numbered_persist h.numbered hPersisted hSeq
    · exact numbered_replace h.numbered hReplaced

theorem Healthy.run (h : Healthy s) (events : List Event) : Healthy (s.run events) :=
  Run.final_invariant (fun _ event _ h => h.step event) h

/-- The event is a message for the conversation. -/
def appendsTo (c : ConversationId) : Event → Bool
  | .append c' _ _ _ _ _ => c' = c
  | .leafPass .. => false
  | .condensedPass .. => false

theorem getConversation_step (s : RunState) (event : Event) (c : ConversationId) :
    (s.step event).db.getConversation c = s.db.getConversation c := by
  unfold Db.getConversation
  rw [(files_step s event).1]

/-- A conversation that exists gets every message that is ingested into it. -/
theorem ingested_step (h : Healthy s) (hConversation : (s.db.getConversation c).isSome)
    (event : Event) :
    (s.step event).ingested c = [] ↔ s.ingested c = [] ∧ appendsTo c event = false := by
  cases event with
  | append c' now role content tokenCount parts =>
    obtain ⟨db, ingested⟩ := s
    by_cases hc : c' = c
    · subst hc
      obtain ⟨db', hOk, -⟩ := persist_spec h.lossless.messages hConversation
        (h.lossless.contiguous c') now role content tokenCount parts
      have hCommitted :
          (withTransaction db fun db => persist db now c' role content tokenCount parts) =
            (db', .ok true) := withTransaction_ok hOk
      simp [RunState.step, hCommitted, appendsTo]
    · have hOther : (RunState.step ⟨db, ingested⟩
          (.append c' now role content tokenCount parts)).ingested c = ingested c := by
        rcases step_append h.lossless c' now role content tokenCount parts with hSame |
          ⟨db', -, hStep⟩
        · rw [hSame]
        · rw [hStep]
          exact if_neg (Ne.symm hc)
      rw [hOther]
      simp [appendsTo, hc]
  | leafPass c' env previousSummaryContent => exact (and_iff_left rfl).symm
  | condensedPass c' env hardTrigger => exact (and_iff_left rfl).symm

theorem ingested_run (h : Healthy s) (hConversation : (s.db.getConversation c).isSome)
    (events : List Event) : (s.run events).ingested c = [] ↔
      s.ingested c = [] ∧ ∀ event ∈ events, appendsTo c event = false := by
  induction events generalizing s with
  | nil => simp [RunState.run]
  | cons event events ih =>
    have hRest := ih (h.step event) (by rw [getConversation_step]; exact hConversation)
    rw [show s.run (event :: events) = (s.step event).run events from rfl, hRest,
      ingested_step h hConversation event, List.forall_mem_cons, and_assoc]

theorem getConversation_run (s : RunState) (events : List Event) (c : ConversationId) :
    (s.run events).db.getConversation c = s.db.getConversation c :=
  @Run.final_invariant _ _ RunState.step
    (fun s' => s'.db.getConversation c = s.db.getConversation c) s events
    (fun s' event _ h => (getConversation_step s' event c).trans h) rfl

/-- What the checks find in a healthy state. -/
theorem Healthy.scan (h : Healthy s) (hConversation : (s.db.getConversation c).isSome)
    (now : Timestamp) : (∀ check ∈ (scan s.db c now).checks,
      check.name ≠ "message_seq_contiguous" → check.status = .pass) ∧
    ((∀ check ∈ (Integrity.scan s.db c now).checks, check.status = .pass) ↔
      s.ingested c = []) := by
  have hRefs : ∀ i ∈ s.db.getContextItems c, s.db.hasRef i.ref = true := by
    intro i hMem
    have hRef : i.ref ∈ (s.db.getContextItems c).map (·.ref) := List.mem_map_of_mem hMem
    cases hKind : i.ref with
    | message m =>
      rw [hKind] at hRef
      obtain ⟨record, hRecord⟩ := h.lossless.messageRefs c m hRef
      show (s.db.getMessageById m true).isSome = true
      rw [hRecord]
      rfl
    | summary id =>
      rw [hKind] at hRef
      obtain ⟨record, hRecord⟩ := h.lossless.getSummary_of_mem hRef
      obtain ⟨hRow, hId⟩ := Db.mem_of_getSummary hRecord
      show (s.db.getSummary id true).isSome = true
      rw [Db.getSummary, List.find?_isSome]
      exact ⟨record, hRow, decide_eq_true ⟨hId, Or.inl rfl⟩⟩
  have hExists : (checkConversationExists s.db c).status = .pass := by
    unfold checkConversationExists
    rw [if_pos hConversation]
  have hContiguous := checkContextItemsContiguous_pass (h.lossless.contiguous c)
  have hValid := checkContextItemsValidRefs_pass hRefs
  have hLineage := checkSummariesHaveLineage_pass (c := c) h.rooted
  have hOrphans := checkNoOrphanSummaries_pass (c := c) h.reachable
  have hTokens := checkContextTokenConsistency_pass (c := c) h.lossless.messages.idNodup
    h.rooted.unique
  have hDuplicates := checkNoDuplicateContextRefs_pass (h.lossless.refsNodup c)
  have hSeq := checkMessageSeqContiguous_iff (h.numbered c)
  have hNone : s.db.getMessages c = [] ↔ s.ingested c = [] := by
    rw [← h.lossless.logged c, List.map_eq_nil_iff]
  have hName : (checkMessageSeqContiguous s.db c).name = "message_seq_contiguous" := by
    unfold checkMessageSeqContiguous checkNumbers checkFindings
    dsimp only
    split
    · rfl
    · split <;> rfl
  unfold Integrity.scan
  dsimp only
  simp only [List.forall_mem_cons, List.not_mem_nil, false_implies, implies_true, and_true, hExists,
    hContiguous, hValid, hLineage, hOrphans, hTokens, hDuplicates, true_and, hSeq, hNone, hName,
    ne_eq, not_true_eq_false]

/-- In every reachable state seven of the eight checks pass, and all of them exactly for a
conversation into which no message was ingested. -/
theorem scan_run (conversations : List ConversationRecord) (events : List Event)
    (c : ConversationId) (now : Timestamp) (hExists : ∃ r ∈ conversations, r.conversationId = c) :
    (∀ check ∈ (scan ((RunState.start conversations).run events).db c now).checks,
      check.name ≠ "message_seq_contiguous" → check.status = .pass) ∧
    ((∀ check ∈ (scan ((RunState.start conversations).run events).db c now).checks,
      check.status = .pass) ↔ ∀ event ∈ events, appendsTo c event = false) := by
  have hStart := healthy_start conversations
  have hConversation : ((RunState.start conversations).db.getConversation c).isSome := by
    obtain ⟨r, hMem, hId⟩ := hExists
    exact List.find?_isSome.mpr ⟨r, hMem, decide_eq_true hId⟩
  have hScan := (hStart.run events).scan
    (by rw [getConversation_run]; exact hConversation) now
  refine ⟨hScan.1, hScan.2.trans ((ingested_run hStart hConversation events).trans ?_)⟩
  exact and_iff_right rfl

theorem scan_run_threeMessages :
    (∃ r ∈ ([⟨1, "session", none, true, 0⟩] : List ConversationRecord), r.conversationId = 1) ∧
    ((∀ check ∈ (scan ((RunState.start [⟨1, "session", none, true, 0⟩]).run
      threeMessages).db 1 5).checks, check.status = .pass) ↔
        ∀ event ∈ threeMessages, appendsTo 1 event = false) :=
  ⟨⟨_, List.mem_singleton_self _, rfl⟩,
    (scan_run _ threeMessages 1 5 ⟨_, List.mem_singleton_self _, rfl⟩).2⟩

/-- The first message of a conversation has number `1`, and the scan reports a gap. -/
theorem false_alarm :
    let s := (RunState.start [⟨1, "session", none, true, 0⟩]).run [.append 1 1 .user "a" 1 []]
    checkMessageSeqContiguous s.db 1 =
        ⟨"message_seq_contiguous", .fail, "Found 1 seq gap(s) in messages",
          some (.gaps [⟨0, 1⟩])⟩ ∧
      ¬∀ check ∈ (scan s.db 1 2).checks, check.status = .pass := by
  intro s
  have hFound : checkMessageSeqContiguous s.db 1 = ⟨"message_seq_contiguous", .fail,
      "Found 1 seq gap(s) in messages", some (.gaps [⟨0, 1⟩])⟩ := by decide +kernel
  refine ⟨hFound, fun hPass => ?_⟩
  have hCheck := hPass (checkMessageSeqContiguous s.db 1) (by simp [scan])
  rw [hFound] at hCheck
  cases hCheck

end LosslessHermes.Integrity
