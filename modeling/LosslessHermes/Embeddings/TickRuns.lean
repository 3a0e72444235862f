import LosslessHermes.Embeddings.TickBatches
import LosslessHermes.Library.Loop

/-!
# A tick of the backfill from its start to its end

The tick has the database for itself and holds its lock. `runTick` is its loop with the documents
that it selects, sends and has an answer for.

`Underway` is what holds between two rounds: what was selected is answered, awaited or still to be
sent, each document once, and an answered one is skipped if and only if it has no vector.
`Underway.select` needs the skipped documents on the blocklist, where a failed write puts nothing.
-/

namespace LosslessHermes

/-- How a call of the service ends, and what the write meets. -/
inductive EmbedOutcome
  | voyageError (kind : VoyageErrorKind) (detail : String)
  | raised
  | embedded (vectors : List (List UInt32)) (totalTokens : Nat) (refusals : BatchRefusals)

/-- The lock is held when the answer comes. -/
def EmbedOutcome.toReply : EmbedOutcome → EmbedReply
  | .voyageError kind detail => .voyageError kind detail
  | .raised => .raised
  | .embedded vectors totalTokens refusals => .embedded vectors totalTokens true refusals

/-- The inputs of a tick, by the number of the call. -/
structure BackfillEnv where
  str : EmbeddingError → String
  now : Nat → Timestamp
  outcomes : Nat → EmbedOutcome

structure BackfillRun where
  db : OperatorDb
  tick : Tick
  selected : List SummaryId
  sent : List SummaryId
  answered : List SummaryId
  calls : Nat

/-- The tick returns its result, or an error leaves it. -/
inductive BackfillEnd
  | returned
  | raised
  deriving DecidableEq, Repr

def docIds (docs : List PendingDoc) : List SummaryId :=
  docs.map (·.summaryId)

namespace BackfillRun

def start (db : OperatorDb) (options : BackfillOptions) : BackfillRun :=
  ⟨db, Tick.start options true, [], [], [], 0⟩

/-- What the head of the loop selects. -/
def candidates (run : BackfillRun) : List PendingDoc :=
  if run.tick.options.perTickLimit ≤ run.tick.processed then []
  else
    selectPendingDocs run.db run.tick.options
      (min (run.tick.options.perTickLimit - run.tick.processed).toNat selectBatchCap)
      run.tick.failedThisTick

/-- From one step of the tick to the next. -/
def round (env : BackfillEnv) (run : BackfillRun) : BackfillRun × Option BackfillEnd :=
  match run.tick.phase with
  | .ended => (run, some .returned)
  | .selecting =>
      let tick := run.tick.select run.db
      ({ run with tick := tick, selected := run.selected ++ docIds run.candidates },
        if tick.phase = .ended then some .returned else none)
  | .sending batch _ =>
      ({ run with tick := run.tick.send true, sent := run.sent ++ docIds batch }, none)
  | .awaiting batch _ =>
      let answer := run.tick.answer env.str (env.now run.calls) run.db.embeddings
        (env.outcomes run.calls).toReply
      ({ run with
          db := { run.db with embeddings := answer.1 }
          tick := answer.2
          answered := run.answered ++ docIds batch
          calls := run.calls + 1 },
        if answer.2.phase = .ended then some .raised else none)

/-- Enough rounds: one for each selection, and two for each batch. -/
def enough (options : BackfillOptions) : Nat :=
  3 * options.perTickLimit.toNat + 2

def runTick (env : BackfillEnv) (db : OperatorDb) (options : BackfillOptions) :
    BackfillRun × Option BackfillEnd :=
  loop (round env) (enough options) (start db options)

def skippedIds (run : BackfillRun) : List SummaryId :=
  run.tick.result.skipped.map (·.summaryId)

def isLive (run : BackfillRun) (id : SummaryId) : Bool :=
  run.db.embeddings.isLive run.tick.options id

/-- The counts of the result add up to the documents that were selected: none is counted twice,
and the skipped ones are those that have no vector. -/
structure Reported (run : BackfillRun) : Prop where
  total : run.tick.result.embeddedCount + run.tick.result.skipped.length = run.selected.length
  selected : run.selected.Nodup
  skipped : run.skippedIds.Nodup
  disjoint : ∀ id ∈ run.selected, id ∈ run.skippedIds ↔ run.isLive id = false
  known : run.skippedIds ⊆ run.selected

/-- What a tick keeps at its end, however it ends. -/
structure Within (run : BackfillRun) : Prop where
  once : run.sent.Nodup
  processed : run.tick.processed ≤ run.tick.options.perTickLimit.toNat
  counted : run.tick.result.embeddedCount + run.tick.result.skipped.length ≤
    run.tick.options.perTickLimit.toNat

/-- The tick ends, and keeps its limits; when it returns, its result is right. -/
structure Sound (run : BackfillRun × Option BackfillEnd) : Prop where
  ends : run.2.isSome
  within : run.1.Within
  reported : run.2 = some .returned → run.1.Reported

/-- Where the tick selects again, what it has skipped is on its blocklist. -/
def Blocklisted (run : BackfillRun) : Prop :=
  run.tick.phase = .selecting → run.tick.processed < run.tick.options.perTickLimit →
    run.skippedIds ⊆ run.tick.failedThisTick

instance : DecidablePred Blocklisted := fun _ =>
  inferInstanceAs (Decidable (_ → _ → ∀ id ∈ _, id ∈ _))

/-! ## Between two rounds -/

/-- The documents whose answer is awaited, and those that are still to be sent. -/
def awaitedDocs : TickPhase → List PendingDoc
  | .awaiting batch _ => batch
  | _ => []

def unsentDocs : TickPhase → List PendingDoc
  | .sending batch batches => batch ++ batches.flatten
  | .awaiting _ batches => batches.flatten
  | _ => []

/-- The rounds of the batches at hand: each is sent and answered. -/
def roundsLeft : TickPhase → Nat
  | .sending _ batches => 2 * (batches.length + 1)
  | .awaiting _ batches => 2 * batches.length + 1
  | _ => 0

def BatchesFilled : TickPhase → Prop
  | .sending batch batches => batch ≠ [] ∧ ∀ b ∈ batches, b ≠ []
  | .awaiting batch batches => batch ≠ [] ∧ ∀ b ∈ batches, b ≠ []
  | _ => True

/-- A tick that is under way. -/
structure Underway (run : BackfillRun) : Prop where
  ids : (run.db.summaries.map (·.summaryId)).Nodup
  goesOn : run.tick.phase ≠ .ended
  sent : run.sent = run.answered ++ docIds (awaitedDocs run.tick.phase)
  selected : run.selected = run.sent ++ docIds (unsentDocs run.tick.phase)
  filled : BatchesFilled run.tick.phase
  nodup : run.selected.Nodup
  limit : run.selected.length ≤ run.tick.options.perTickLimit.toNat
  processed : run.tick.processed = run.answered.length
  counted : run.tick.result.embeddedCount + run.tick.result.skipped.length = run.answered.length
  disjoint : ∀ id ∈ run.answered, id ∈ run.skippedIds ↔ run.isLive id = false
  skipped : run.skippedIds.Nodup
  known : run.skippedIds ⊆ run.answered
  blocked : run.tick.failedThisTick ⊆ run.skippedIds
  fresh : ∀ id ∈ docIds (awaitedDocs run.tick.phase) ++ docIds (unsentDocs run.tick.phase),
    run.isLive id = false
  /-- What is selected has no pending leaf above it that is not. -/
  closed : ∀ id ∈ run.selected, ∀ s ∈ run.db.summaries,
    isPendingLeaf run.db.embeddings run.tick.options run.tick.failedThisTick s = true →
      id ≤ s.summaryId → s.summaryId ∈ run.selected
  leaves : ∀ id ∈ run.selected, ∃ s ∈ run.db.summaries, s.summaryId = id ∧
    isEmbeddable run.tick.options s = true

variable {env : BackfillEnv} {run : BackfillRun}

theorem docIds_append (docs docs' : List PendingDoc) :
    docIds (docs ++ docs') = docIds docs ++ docIds docs' :=
  List.map_append

/-! ## A selection -/

theorem candidates_le (run : BackfillRun) : ∀ doc ∈ run.candidates,
    (doc.tokenCount : Int) ≤ run.tick.options.maxTokenCount := by
  intro doc hDoc
  unfold candidates at hDoc
  split at hDoc
  · cases hDoc
  · obtain ⟨s, -, hPending, rfl⟩ := exists_of_mem_selectPendingDocs hDoc
    rw [isPendingLeaf, Bool.and_eq_true, Bool.and_eq_true] at hPending
    exact (of_decide_eq_true hPending.1.1).2.2.1

/-- Without a candidate the tick ends, and its result stays but for the flag of the limit. -/
theorem select_of_nil (hPhase : run.tick.phase = .selecting) (h : run.candidates = []) :
    ∃ reached, run.tick.select run.db = { run.tick with
      phase := .ended, result := { run.tick.result with perTickLimitReached := reached } } := by
  unfold candidates at h
  unfold Tick.select
  rw [if_neg (not_not.mpr hPhase)]
  by_cases hLimit : run.tick.options.perTickLimit ≤ run.tick.processed
  · rw [if_pos hLimit]
    exact ⟨true, rfl⟩
  · rw [if_neg hLimit] at h ⊢
    dsimp only
    rw [h]
    exact ⟨_, rfl⟩

/-- The candidates are packed; none of them is over the cap. -/
theorem select_of_cons (hPhase : run.tick.phase = .selecting) (h : run.candidates ≠ []) :
    run.tick.select run.db = { run.tick with
      phase := Tick.following (packBatches run.candidates run.tick.options.maxBatchTokens) } := by
  have hCap := run.candidates_le
  unfold Tick.select
  rw [if_neg (not_not.mpr hPhase)]
  by_cases hLimit : run.tick.options.perTickLimit ≤ run.tick.processed
  · exact absurd (if_pos hLimit) h
  · rw [if_neg hLimit]
    have hCandidates : run.candidates = selectPendingDocs run.db run.tick.options
        (min (run.tick.options.perTickLimit - run.tick.processed).toNat selectBatchCap)
        run.tick.failedThisTick := if_neg hLimit
    dsimp only
    rw [← hCandidates]
    cases hList : run.candidates with
    | nil => exact absurd hList h
    | cons doc docs =>
      rw [hList] at hCap
      have hOver : (doc :: docs).filter
          (fun d => run.tick.options.maxTokenCount < d.tokenCount) = [] := by
        refine List.filter_eq_nil_iff.mpr fun d hd => ?_
        have hLe := hCap d hd
        simpa using hLe
      have hQuery : (doc :: docs).filter
          (fun d => d.tokenCount ≤ run.tick.options.maxTokenCount) = doc :: docs := by
        refine List.filter_eq_self.mpr fun d hd => ?_
        exact decide_eq_true (hCap d hd)
      simp only [hOver, hQuery, List.length_nil, Nat.add_zero, List.map_nil, List.append_nil,
        reduceCtorEq, if_false]

theorem candidates_length_le (run : BackfillRun) :
    run.candidates.length ≤ (run.tick.options.perTickLimit - run.tick.processed).toNat := by
  unfold candidates
  split
  · exact Nat.zero_le _
  · exact length_selectPendingDocs_le.trans (Nat.min_le_left _ _)

theorem candidates_nodup (h : (run.db.summaries.map (·.summaryId)).Nodup) :
    (docIds run.candidates).Nodup := by
  unfold candidates
  split
  · exact List.nodup_nil
  · exact nodup_selectPendingDocs h

variable {id : SummaryId}

theorem exists_of_mem_candidates (h : id ∈ docIds run.candidates) :
    ∃ s ∈ run.db.summaries, s.summaryId = id ∧
      isPendingLeaf run.db.embeddings run.tick.options run.tick.failedThisTick s = true := by
  obtain ⟨doc, hDoc, rfl⟩ := List.mem_map.mp h
  unfold candidates at hDoc
  split at hDoc
  · cases hDoc
  · obtain ⟨s, hRow, hPending, rfl⟩ := exists_of_mem_selectPendingDocs hDoc
    exact ⟨s, hRow, rfl, hPending⟩

theorem candidates_closed (h : id ∈ docIds run.candidates) {s : SummaryRecord}
    (hRow : s ∈ run.db.summaries)
    (hPending : isPendingLeaf run.db.embeddings run.tick.options run.tick.failedThisTick s = true)
    (hLe : id ≤ s.summaryId) : s.summaryId ∈ docIds run.candidates := by
  unfold candidates at h ⊢
  split at h
  · cases h
  · rename_i hLimit
    rw [if_neg hLimit]
    exact selectPendingDocs_closed h hRow hPending hLe

variable {batches : List (List PendingDoc)}

/-- The phase after a selection has the candidates to send. -/
theorem following_spec (h : ∀ b ∈ batches, b ≠ []) :
    awaitedDocs (Tick.following batches) = [] ∧
      unsentDocs (Tick.following batches) = batches.flatten ∧
        BatchesFilled (Tick.following batches) ∧ Tick.following batches ≠ .ended := by
  cases batches with
  | nil => exact ⟨rfl, rfl, trivial, fun h => nomatch h⟩
  | cons batch batches =>
    exact ⟨rfl, rfl, List.forall_mem_cons.mp h, fun h => nomatch h⟩

theorem isLive_of_pending {excludeIds : List SummaryId} {s : SummaryRecord}
    (h : isPendingLeaf run.db.embeddings run.tick.options excludeIds s = true) :
    isEmbeddable run.tick.options s = true ∧ s.summaryId ∉ excludeIds ∧
      run.isLive s.summaryId = false := by
  rw [isPendingLeaf, Bool.and_eq_true, Bool.and_eq_true, decide_eq_true_eq,
    Bool.not_eq_true'] at h
  exact ⟨h.1.1, h.1.2, h.2⟩

/-- Between two batches every document that was selected is answered. -/
theorem Underway.answered (h : run.Underway) (hPhase : run.tick.phase = .selecting) :
    run.sent = run.answered ∧ run.selected = run.sent := by
  have hSent := h.sent
  have hSelected := h.selected
  rw [hPhase] at hSent hSelected
  exact ⟨hSent.trans (List.append_nil _), hSelected.trans (List.append_nil _)⟩

theorem Underway.within (h : run.Underway) : run.Within := by
  have hAnswered : run.answered.length ≤ run.selected.length := by
    rw [h.selected, h.sent, List.append_assoc, List.length_append]
    exact Nat.le_add_right _ _
  refine ⟨?_, ?_, ?_⟩
  · have hNodup := h.nodup
    rw [h.selected] at hNodup
    exact (List.nodup_append.mp hNodup).1
  · rw [h.processed]
    exact hAnswered.trans h.limit
  · rw [h.counted]
    exact hAnswered.trans h.limit

/-- The result of a tick that has answers for everything is right. -/
theorem Underway.reported (h : run.Underway) (hPhase : run.tick.phase = .selecting) :
    run.Reported := by
  obtain ⟨hSent, hSelected⟩ := h.answered hPhase
  have hAll : run.selected = run.answered := hSelected.trans hSent
  refine ⟨?_, h.nodup, h.skipped, ?_, ?_⟩
  · rw [hAll]
    exact h.counted
  · rw [hAll]
    exact h.disjoint
  · rw [hAll]
    exact h.known

/-- The candidates of a tick whose skipped documents are on its blocklist are new. -/
theorem Underway.candidates_new (h : run.Underway) (hPhase : run.tick.phase = .selecting)
    (hBlocked : run.skippedIds ⊆ run.tick.failedThisTick)
    (hId : id ∈ docIds run.candidates) : id ∉ run.selected := by
  intro hSelected
  obtain ⟨s, -, rfl, hPending⟩ := exists_of_mem_candidates hId
  obtain ⟨-, hFree, hLive⟩ := isLive_of_pending hPending
  obtain ⟨hSent, hAll⟩ := h.answered hPhase
  rw [hAll, hSent] at hSelected
  exact hFree (hBlocked ((h.disjoint _ hSelected).mpr hLive))

theorem Underway.select (h : run.Underway) (hPhase : run.tick.phase = .selecting)
    (hBlocked : run.skippedIds ⊆ run.tick.failedThisTick) (hSome : run.candidates ≠ []) :
    Underway { run with
      tick := run.tick.select run.db, selected := run.selected ++ docIds run.candidates } := by
  obtain ⟨hSent, hAll⟩ := h.answered hPhase
  obtain ⟨hAwaited, hUnsent, hFilled, hGoesOn⟩ := following_spec
    (packBatches_ne_nil run.candidates run.tick.options.maxBatchTokens)
  rw [packBatches_flatten] at hUnsent
  have hNew : ∀ id ∈ docIds run.candidates, id ∉ run.selected := fun id hId =>
    h.candidates_new hPhase hBlocked hId
  have hLength := run.candidates_length_le
  rw [select_of_cons hPhase hSome]
  constructor
  · exact h.ids
  · exact hGoesOn
  · simpa only [hAwaited, docIds, List.map_nil, List.append_nil] using hSent
  · simp only [hUnsent, hAll]
  · exact hFilled
  · refine List.nodup_append.mpr ⟨h.nodup, candidates_nodup h.ids, ?_⟩
    intro id hId id' hId' hSame
    exact hNew id' hId' (hSame ▸ hId)
  · have hProcessed : run.tick.processed = run.selected.length := by
      rw [h.processed, hAll, hSent]
    have hLimit := h.limit
    simp only [List.length_append, docIds, List.length_map]
    omega
  · exact h.processed
  · exact h.counted
  · exact h.disjoint
  · exact h.skipped
  · exact h.known
  · exact h.blocked
  · intro id hId
    rw [hAwaited, hUnsent] at hId
    obtain ⟨s, -, rfl, hPending⟩ := exists_of_mem_candidates
      (List.mem_append.mp hId |>.resolve_left fun h => nomatch h)
    exact (isLive_of_pending hPending).2.2
  · intro id hId s hRow hPending hLe
    rcases List.mem_append.mp hId with hOld | hCandidate
    · exact List.mem_append_left _ (h.closed id hOld s hRow hPending hLe)
    · exact List.mem_append_right _ (candidates_closed hCandidate hRow hPending hLe)
  · intro id hId
    rcases List.mem_append.mp hId with hOld | hCandidate
    · exact h.leaves id hOld
    · obtain ⟨s, hRow, hSame, hPending⟩ := exists_of_mem_candidates hCandidate
      exact ⟨s, hRow, hSame, (isLive_of_pending hPending).1⟩

/-! ## A call -/

theorem Underway.send (h : run.Underway) {batch : List PendingDoc}
    (hPhase : run.tick.phase = .sending batch batches) :
    Underway { run with tick := run.tick.send true, sent := run.sent ++ docIds batch } := by
  have hTick : run.tick.send true = { run.tick with phase := .awaiting batch batches } := by
    simp only [Tick.send, hPhase, if_true]
  have hSent := h.sent
  have hSelected := h.selected
  have hFilled := h.filled
  have hFresh := h.fresh
  rw [hPhase] at hSent hSelected hFilled hFresh
  rw [hTick]
  constructor
  · exact h.ids
  · exact fun h => nomatch h
  · rw [hSent]
    exact congrArg (· ++ docIds batch) (List.append_nil run.answered)
  · rw [hSelected, unsentDocs, docIds_append, ← List.append_assoc]
    rfl
  · exact hFilled
  · exact h.nodup
  · exact h.limit
  · exact h.processed
  · exact h.counted
  · exact h.disjoint
  · exact h.skipped
  · exact h.known
  · exact h.blocked
  · intro id hId
    refine hFresh id ?_
    rw [unsentDocs, docIds_append]
    exact hId
  · exact h.closed
  · exact h.leaves

/-- What an answer makes of the tick: an error leaves it, or each document of the batch is counted
once and the tick goes on. -/
theorem answer_cases {str : EmbeddingError → String} {now : Timestamp} {tick : Tick}
    {db : EmbeddingTables} {batch : List PendingDoc} {batches : List (List PendingDoc)}
    (hPhase : tick.phase = .awaiting batch batches) (outcome : EmbedOutcome) :
    tick.answer str now db outcome.toReply = (db, { tick with phase := .ended }) ∨
      ∃ (db' : EmbeddingTables) (report : WriteReport) (failed : List SummaryId) (tokens : Nat),
        EmbeddingTables.Written tick.options batch db db' report ∧
          failed ⊆ report.errors.map (·.summaryId) ∧
            tick.answer str now db outcome.toReply = (db', { tick with
              processed := tick.processed + batch.length
              failedThisTick := tick.failedThisTick ++ failed
              phase := Tick.following batches
              result := { tick.result with
                embeddedCount := tick.result.embeddedCount + report.succeeded
                voyageTokensConsumed := tick.result.voyageTokensConsumed + tokens
                skipped := tick.result.skipped ++ report.errors } }) := by
  unfold Tick.answer
  rw [hPhase]
  cases outcome with
  | raised => exact .inl rfl
  | voyageError kind detail =>
    dsimp only [EmbedOutcome.toReply]
    by_cases hAuth : kind = .auth
    · rw [if_pos hAuth]
      exact .inl rfl
    · rw [if_neg hAuth]
      let reason : SkipReason := if kind = .badRequest then .voyage400 else .voyageOther
      have hIds : (batch.map fun doc => (⟨doc.summaryId, reason, some detail⟩ :
          BackfillSkippedDoc)).map (·.summaryId) = batch.map (·.summaryId) := by
        rw [List.map_map]
        rfl
      refine .inr ⟨db, ⟨0, batch.map fun doc => ⟨doc.summaryId, reason, some detail⟩⟩,
        docIds batch, 0, ⟨by simp, by rw [hIds], fun _ id => ?_⟩, ?_, rfl⟩
      · rw [hIds]
        simp
      · rw [hIds]
        exact List.Subset.refl _
  | embedded vectors totalTokens refusals =>
    dsimp only [EmbedOutcome.toReply]
    rw [if_neg (by decide)]
    by_cases hBegin : refusals.beginImmediate = true
    · rw [if_pos hBegin]
      exact .inl rfl
    · rw [if_neg hBegin]
      refine .inr ⟨(db.writeBatch str refusals now tick.options batch vectors).1,
        (db.writeBatch str refusals now tick.options batch vectors).2, [], totalTokens,
        EmbeddingTables.writeBatch_spec refusals batch vectors db, List.nil_subset _, ?_⟩
      rw [List.append_nil]

theorem Underway.answer (h : run.Underway) {batch : List PendingDoc}
    (hPhase : run.tick.phase = .awaiting batch batches)
    {db' : EmbeddingTables} {report : WriteReport} {failed : List SummaryId} {tokens : Nat}
    (hWritten : EmbeddingTables.Written run.tick.options batch run.db.embeddings db' report)
    (hFailed : failed ⊆ report.errors.map (·.summaryId)) :
    Underway { run with
      db := { run.db with embeddings := db' }
      tick := { run.tick with
        processed := run.tick.processed + batch.length
        failedThisTick := run.tick.failedThisTick ++ failed
        phase := Tick.following batches
        result := { run.tick.result with
          embeddedCount := run.tick.result.embeddedCount + report.succeeded
          voyageTokensConsumed := run.tick.result.voyageTokensConsumed + tokens
          skipped := run.tick.result.skipped ++ report.errors } }
      answered := run.answered ++ docIds batch
      calls := run.calls + 1 } := by
  have hSent := h.sent
  have hSelected := h.selected
  have hFilled := h.filled
  have hFresh := h.fresh
  rw [hPhase] at hSent hSelected hFilled hFresh
  obtain ⟨hAwaited, hUnsent, hNext, hGoesOn⟩ := following_spec hFilled.2
  -- the documents of the batch are new and distinct
  have hNodup := h.nodup
  rw [hSelected, hSent] at hNodup
  have hBatch : (docIds batch).Nodup :=
    (List.nodup_append.mp (List.nodup_append.mp hNodup).1).2.1
  have hOther : ∀ id ∈ run.answered, id ∉ docIds batch := fun id hId hMem =>
    (List.nodup_append.mp (List.nodup_append.mp hNodup).1).2.2 id hId id hMem rfl
  have hLater : ∀ id ∈ docIds batches.flatten, id ∉ docIds batch := fun id hId hMem =>
    (List.nodup_append.mp hNodup).2.2 id (List.mem_append_right _ hMem) id hId rfl
  have hLive := hWritten.live hBatch
  have hErrors : ∀ id ∈ report.errors.map (·.summaryId), id ∈ docIds batch :=
    fun id hId => hWritten.errors.subset hId
  have hSame : ∀ id, id ∉ docIds batch →
      db'.isLive run.tick.options id = run.db.embeddings.isLive run.tick.options id := by
    intro id hId
    rw [Bool.eq_iff_iff, hLive id]
    exact or_iff_left fun hIn => hId hIn.1
  constructor
  · exact h.ids
  · exact hGoesOn
  · simp only [hAwaited]
    exact hSent.trans (List.append_nil _).symm
  · simp only [hUnsent]
    exact hSelected
  · exact hNext
  · exact h.nodup
  · exact h.limit
  · simp only [List.length_append, docIds, List.length_map, h.processed]
  · have hCount := hWritten.count
    have hCounted := h.counted
    simp only [List.length_append, docIds, List.length_map]
    omega
  · intro id hId
    simp only [skippedIds, List.map_append, List.mem_append]
    rcases List.mem_append.mp hId with hOld | hNew
    · have hOut := hOther id hOld
      rw [or_iff_left fun hIn => hOut (hErrors id hIn)]
      refine (h.disjoint id hOld).trans ?_
      unfold isLive
      rw [hSame id hOut]
    · have hFreshId : run.isLive id = false := hFresh id (List.mem_append_left _ hNew)
      have hNotSkipped : id ∉ run.tick.result.skipped.map (·.summaryId) := fun hIn =>
        hOther id (h.known hIn) hNew
      rw [or_iff_right hNotSkipped]
      unfold isLive at hFreshId ⊢
      rw [Bool.eq_false_iff, Ne, hLive id, hFreshId]
      constructor
      · rintro hError (hFalse | ⟨-, hNot⟩)
        · cases hFalse
        · exact hNot hError
      · intro hNot
        by_contra hError
        exact hNot (.inr ⟨hNew, hError⟩)
  · simp only [skippedIds, List.map_append]
    refine List.nodup_append.mpr ⟨h.skipped, hBatch.sublist hWritten.errors, ?_⟩
    intro id hOld id' hNew hEq
    exact hOther id (h.known hOld) (hErrors id (hEq ▸ hNew))
  · simp only [skippedIds, List.map_append]
    intro id hId
    rcases List.mem_append.mp hId with hOld | hNew
    · exact List.mem_append_left _ (h.known hOld)
    · exact List.mem_append_right _ (hErrors id hNew)
  · simp only [skippedIds, List.map_append]
    intro id hId
    rcases List.mem_append.mp hId with hOld | hNew
    · exact List.mem_append_left _ (h.blocked hOld)
    · exact List.mem_append_right _ (hFailed hNew)
  · intro id hId
    simp only [hAwaited, hUnsent, docIds, List.map_nil, List.nil_append] at hId
    unfold isLive
    rw [hSame id (hLater id hId)]
    exact hFresh id (List.mem_append_right _ hId)
  · intro id hId s hRow hPending hLe
    refine h.closed id hId s hRow ?_ hLe
    -- what is pending now was pending before
    obtain ⟨hLeaf, hFree, hDead⟩ :
        isEmbeddable run.tick.options s = true ∧
          s.summaryId ∉ run.tick.failedThisTick ++ failed ∧
            db'.isLive run.tick.options s.summaryId = false := by
      rw [isPendingLeaf, Bool.and_eq_true, Bool.and_eq_true, decide_eq_true_eq,
        Bool.not_eq_true'] at hPending
      exact ⟨hPending.1.1, hPending.1.2, hPending.2⟩
    rw [isPendingLeaf, Bool.and_eq_true, Bool.and_eq_true, decide_eq_true_eq, Bool.not_eq_true']
    refine ⟨⟨hLeaf, fun hIn => hFree (List.mem_append_left _ hIn)⟩, ?_⟩
    rw [Bool.eq_false_iff] at hDead ⊢
    exact fun hOld => hDead ((hLive _).mpr (.inl hOld))
  · exact h.leaves

end BackfillRun
end LosslessHermes
