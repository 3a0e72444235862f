import LosslessHermes.Embeddings.TickRuns
import LosslessHermes.Operator.Ancestors

/-!
# One call for each document

`runTick_ends` holds of every tick: a selection that selects nothing ends it, and every other one
has batches whose answers bring the tick nearer to its limit.

`tickSound_iff`: the tick keeps its limits and reports what it did, if and only if every document
that it has reported as skipped is on its blocklist whenever it selects again.
-/

namespace LosslessHermes

namespace BackfillRun

variable {env : BackfillEnv} {db : OperatorDb} {options : BackfillOptions} {run : BackfillRun}

/-! ## The rounds -/

theorem round_selecting_nil (hPhase : run.tick.phase = .selecting) (h : run.candidates = []) :
    ∃ reached, round env run = ({ run with tick := { run.tick with
      phase := .ended, result := { run.tick.result with perTickLimitReached := reached } } },
        some .returned) := by
  obtain ⟨reached, hSelect⟩ := select_of_nil hPhase h
  refine ⟨reached, ?_⟩
  simp only [round, hPhase, hSelect, h, docIds, List.map_nil, List.append_nil, if_true]

theorem round_selecting_cons (hPhase : run.tick.phase = .selecting) (h : run.candidates ≠ []) :
    round env run = ({ run with
      tick := run.tick.select run.db, selected := run.selected ++ docIds run.candidates },
        none) := by
  have hGoesOn : (run.tick.select run.db).phase ≠ .ended := by
    rw [select_of_cons hPhase h]
    exact (following_spec (packBatches_ne_nil _ _)).2.2.2
  simp only [round, hPhase, hGoesOn, if_false]

theorem round_sending {batch : List PendingDoc} {batches : List (List PendingDoc)}
    (hPhase : run.tick.phase = .sending batch batches) :
    round env run = ({ run with tick := run.tick.send true, sent := run.sent ++ docIds batch },
      none) := by
  simp only [round, hPhase]

/-- An answer ends the tick by an error, or is written and the tick goes on. -/
theorem round_awaiting {batch : List PendingDoc} {batches : List (List PendingDoc)}
    (hPhase : run.tick.phase = .awaiting batch batches) :
    round env run = ({ run with
        tick := { run.tick with phase := .ended }
        answered := run.answered ++ docIds batch
        calls := run.calls + 1 }, some .raised) ∨
      ∃ (db' : EmbeddingTables) (report : WriteReport) (failed : List SummaryId) (tokens : Nat),
        EmbeddingTables.Written run.tick.options batch run.db.embeddings db' report ∧
          failed ⊆ report.errors.map (·.summaryId) ∧
            round env run = ({ run with
              db := { run.db with embeddings := db' }
              tick := { run.tick with
                processed := run.tick.processed + batch.length
                failedThisTick := run.tick.failedThisTick ++ failed
                phase := Tick.following batches
                result := { run.tick.result with
                  embeddedCount := run.tick.result.embeddedCount + report.succeeded
                  voyageTokensConsumed := run.tick.result.voyageTokensConsumed + tokens
                  skipped := run.tick.result.skipped ++ report.errors } }
              answered := run.answered ++ docIds batch
              calls := run.calls + 1 }, none) := by
  rcases @answer_cases env.str (env.now run.calls) run.tick run.db.embeddings batch batches hPhase
      (env.outcomes run.calls) with hRaised | ⟨db', report, failed, tokens, hWritten, hFailed, hEq⟩
  · left
    simp only [round, hPhase, hRaised, if_true]
  · refine .inr ⟨db', report, failed, tokens, hWritten, hFailed, ?_⟩
    have hGoesOn : Tick.following batches ≠ .ended := by
      cases batches with
      | nil => exact fun h => nomatch h
      | cons _ _ => exact fun h => nomatch h
    simp only [round, hPhase, hEq, hGoesOn, if_false]

/-! ## The end -/

/-- The documents at hand fit into what is left of the limit. -/
structure Fits (run : BackfillRun) : Prop where
  filled : BatchesFilled run.tick.phase
  limit : run.tick.processed + (awaitedDocs run.tick.phase).length +
    (unsentDocs run.tick.phase).length ≤ run.tick.options.perTickLimit.toNat

/-- What the tick may still do. -/
def work (run : BackfillRun) : Nat :=
  3 * (run.tick.options.perTickLimit.toNat - run.tick.processed -
    (awaitedDocs run.tick.phase).length - (unsentDocs run.tick.phase).length) +
      roundsLeft run.tick.phase + 1

theorem length_le_flatten {batches : List (List PendingDoc)} (h : ∀ b ∈ batches, b ≠ []) :
    batches.length ≤ batches.flatten.length := by
  induction batches with
  | nil => exact Nat.le_refl _
  | cons batch batches ih =>
    obtain ⟨hFirst, hRest⟩ := List.forall_mem_cons.mp h
    have hFilled := List.length_pos_iff.mpr hFirst
    have hLater := ih hRest
    rw [List.flatten_cons, List.length_append, List.length_cons]
    omega

theorem roundsLeft_following (batches : List (List PendingDoc)) :
    roundsLeft (Tick.following batches) = 2 * batches.length := by
  cases batches <;> rfl

/-- A round that does not end the tick leaves less to do. -/
theorem Fits.round (h : run.Fits) : (round env run).1.Fits ∧
    ((BackfillRun.round env run).2 = none →
      (BackfillRun.round env run).1.work < run.work) := by
  obtain ⟨hFilled, hLimit⟩ := h
  cases hPhase : run.tick.phase with
  | ended =>
    have hRound : BackfillRun.round env run = (run, some .returned) := by
      simp only [BackfillRun.round, hPhase]
    rw [hRound]
    exact ⟨⟨hFilled, hLimit⟩, fun h => absurd h (Option.some_ne_none _)⟩
  | selecting =>
    rw [hPhase] at hLimit
    by_cases hSome : run.candidates = []
    · obtain ⟨reached, hRound⟩ := @round_selecting_nil env run hPhase hSome
      rw [hRound]
      exact ⟨⟨trivial, hLimit⟩, fun h => absurd h (Option.some_ne_none _)⟩
    · have hBatches := packBatches_ne_nil run.candidates run.tick.options.maxBatchTokens
      obtain ⟨hAwaited, hUnsent, hNextFilled, -⟩ := following_spec hBatches
      have hCount := length_le_flatten hBatches
      rw [packBatches_flatten] at hUnsent hCount
      have hLength := run.candidates_length_le
      have hPos := List.length_pos_iff.mpr hSome
      rw [round_selecting_cons hPhase hSome, select_of_cons hPhase hSome]
      simp only [awaitedDocs, unsentDocs, List.length_nil] at hLimit
      refine ⟨⟨hNextFilled, ?_⟩, fun _ => ?_⟩
      · simp only [hAwaited, hUnsent, List.length_nil]
        omega
      · simp only [work, hPhase, hAwaited, hUnsent, roundsLeft_following]
        simp only [awaitedDocs, unsentDocs, roundsLeft, List.length_nil]
        omega
  | sending batch batches =>
    rw [hPhase] at hFilled hLimit
    rw [round_sending hPhase]
    simp only [Tick.send, hPhase, if_true]
    simp only [awaitedDocs, unsentDocs, List.length_nil, List.length_append] at hLimit
    refine ⟨⟨hFilled, ?_⟩, fun _ => ?_⟩
    · simp only [awaitedDocs, unsentDocs]
      omega
    · simp only [work, hPhase, awaitedDocs, unsentDocs, roundsLeft, List.length_nil,
        List.length_append]
      omega
  | awaiting batch batches =>
    rw [hPhase] at hFilled hLimit
    obtain ⟨hAwaited, hUnsent, hNextFilled, -⟩ := following_spec hFilled.2
    simp only [awaitedDocs, unsentDocs] at hLimit
    rcases @round_awaiting env run batch batches hPhase with
      hRaised | ⟨db', report, failed, tokens, -, -, hRound⟩
    · rw [hRaised]
      refine ⟨⟨trivial, ?_⟩, fun h => absurd h (Option.some_ne_none _)⟩
      simp only [awaitedDocs, unsentDocs, List.length_nil]
      omega
    · rw [hRound]
      refine ⟨⟨hNextFilled, ?_⟩, fun _ => ?_⟩
      · simp only [hAwaited, hUnsent, List.length_nil]
        omega
      · simp only [work, hPhase, hAwaited, hUnsent, roundsLeft_following]
        simp only [awaitedDocs, unsentDocs, roundsLeft, List.length_nil]
        omega

/-- Every tick ends, whatever its calls and its writes meet. -/
theorem runTick_ends (env : BackfillEnv) (db : OperatorDb) (options : BackfillOptions) :
    (runTick env db options).2.isSome := by
  have hStart : (start db options).Fits := ⟨trivial, Nat.zero_le _⟩
  refine loop_ends work (fun run h => h.round.1) (fun run h => h.round.2) hStart ?_
  simp only [work, start, Tick.start, awaitedDocs, unsentDocs, roundsLeft, enough, if_true,
    List.length_nil]
  omega

/-! ## One call for each document -/

theorem Underway.start (hIds : (db.summaries.map (·.summaryId)).Nodup) :
    (BackfillRun.start db options).Underway where
  ids := hIds
  goesOn := fun h => nomatch h
  sent := rfl
  selected := rfl
  filled := trivial
  nodup := List.nodup_nil
  limit := Nat.zero_le _
  processed := rfl
  counted := rfl
  disjoint := fun _ h => nomatch h
  skipped := List.nodup_nil
  known := List.nil_subset _
  blocked := List.nil_subset _
  fresh := fun _ h => nomatch h
  closed := fun _ h => nomatch h
  leaves := fun _ h => nomatch h

/-- Without candidates the limit does not matter. -/
theorem Blocklisted.subset (h : run.Blocklisted) (hPhase : run.tick.phase = .selecting)
    (hSome : run.candidates ≠ []) : run.skippedIds ⊆ run.tick.failedThisTick := by
  refine h hPhase ?_
  by_contra hLimit
  exact hSome (if_pos (not_lt.mp hLimit))

/-- A round of a tick that has blocklisted what it skipped. -/
theorem Underway.round (h : run.Underway) (hBlocked : run.Blocklisted) :
    match BackfillRun.round env run with
    | (run', none) => run'.Underway
    | (run', some .returned) => run'.Within ∧ run'.Reported
    | (run', some .raised) => run'.Within := by
  cases hPhase : run.tick.phase with
  | ended => exact absurd hPhase h.goesOn
  | selecting =>
    by_cases hSome : run.candidates = []
    · obtain ⟨reached, hRound⟩ := @round_selecting_nil env run hPhase hSome
      have hWithin := h.within
      have hReported := h.reported hPhase
      rw [hRound]
      exact ⟨⟨hWithin.once, hWithin.processed, hWithin.counted⟩, hReported.total,
        hReported.selected, hReported.skipped, hReported.disjoint, hReported.known⟩
    · rw [round_selecting_cons hPhase hSome]
      exact h.select hPhase (hBlocked.subset hPhase hSome) hSome
  | sending batch batches =>
    rw [round_sending hPhase]
    exact h.send hPhase
  | awaiting batch batches =>
    rcases @round_awaiting env run batch batches hPhase with
      hRaised | ⟨db', report, failed, tokens, hWritten, hFailed, hRound⟩
    · have hWithin := h.within
      rw [hRaised]
      exact ⟨hWithin.once, hWithin.processed, hWithin.counted⟩
    · rw [hRound]
      exact h.answer hPhase hWritten hFailed

/-- What was sent stays sent. -/
theorem sent_round (env : BackfillEnv) (run : BackfillRun) :
    run.sent <+: (round env run).1.sent := by
  unfold round
  split
  · exact List.prefix_rfl
  · exact List.prefix_rfl
  · exact List.prefix_append _ _
  · exact List.prefix_rfl

theorem sent_loop (env : BackfillEnv) (run : BackfillRun) (fuel : Nat) :
    run.sent <+: (loop (round env) fuel run).1.sent :=
  @loop_invariant _ _ _ (fun run' => run.sent <+: run'.sent)
    (fun run' hPre => hPre.trans (sent_round env run')) run List.prefix_rfl fuel

/-- A selection with a skipped document off the blocklist takes one that was sent. -/
theorem Underway.resent (h : run.Underway) (hPhase : run.tick.phase = .selecting)
    (hLess : run.tick.processed < run.tick.options.perTickLimit) {id : SummaryId}
    (hSkipped : id ∈ run.skippedIds) (hFree : id ∉ run.tick.failedThisTick) :
    ∃ doc docs, run.candidates = doc :: docs ∧ doc.summaryId ∈ run.sent := by
  obtain ⟨hSent, hAll⟩ := h.answered hPhase
  have hAnswered := h.known hSkipped
  have hMem : id ∈ run.selected := hAll ▸ hSent ▸ hAnswered
  obtain ⟨s, hRow, rfl, hLeaf⟩ := h.leaves id hMem
  have hDead : run.isLive s.summaryId = false := (h.disjoint _ hAnswered).mp hSkipped
  have hPending : isPendingLeaf run.db.embeddings run.tick.options run.tick.failedThisTick s
      = true := by
    rw [isPendingLeaf, Bool.and_eq_true, Bool.and_eq_true, decide_eq_true_eq, Bool.not_eq_true']
    exact ⟨⟨hLeaf, hFree⟩, hDead⟩
  have hPos : 0 < min (run.tick.options.perTickLimit - run.tick.processed).toNat
      selectBatchCap := by
    have hCap : 0 < selectBatchCap := by decide
    omega
  obtain ⟨doc, docs, hSelect, hLe⟩ := exists_selectPendingDocs_cons hPos hRow hPending
  have hCandidates : run.candidates = doc :: docs := (if_neg (not_le.mpr hLess)).trans hSelect
  refine ⟨doc, docs, hCandidates, ?_⟩
  have hDoc : doc.summaryId ∈ docIds run.candidates := by
    rw [hCandidates]
    exact List.mem_cons_self
  obtain ⟨r, hRowOfDoc, hSame, hPendingDoc⟩ := exists_of_mem_candidates hDoc
  rw [← hSame, ← hAll]
  exact h.closed _ hMem r hRowOfDoc hPendingDoc (hSame ▸ hLe)

/-- A tick that ends and sends no document twice has blocklisted what it skipped. -/
theorem Underway.rounds (h : run.Underway) {fuel : Nat}
    (hEnds : (loop (BackfillRun.round env) fuel run).2.isSome)
    (hOnce : (loop (BackfillRun.round env) fuel run).1.sent.Nodup) :
    Rounds (BackfillRun.round env) Blocklisted fuel run := by
  induction fuel generalizing run with
  | zero => trivial
  | succ fuel ih =>
    by_cases hBlocked : run.Blocklisted
    · refine ⟨hBlocked, fun hNext => ?_⟩
      rw [loop_succ_of_none hNext] at hEnds hOnce
      have hUnderway := @Underway.round env run h hBlocked
      rw [show BackfillRun.round env run = (_, none) from Prod.ext rfl hNext] at hUnderway
      exact ih hUnderway hEnds hOnce
    · -- the first batch of the selection starts with a document that was sent
      exfalso
      simp only [Blocklisted, Classical.not_imp, List.subset_def, not_forall] at hBlocked
      obtain ⟨hPhase, hLess, id, hSkipped, hFree⟩ := hBlocked
      obtain ⟨doc, docs, hCandidates, hSent⟩ := h.resent hPhase hLess hSkipped hFree
      have hSome : run.candidates ≠ [] := fun hNil => nomatch hCandidates.symm.trans hNil
      have hFlatten := packBatches_flatten run.candidates run.tick.options.maxBatchTokens
      have hFilled := packBatches_ne_nil run.candidates run.tick.options.maxBatchTokens
      have hSelect := @round_selecting_cons env run hPhase hSome
      rw [select_of_cons hPhase hSome] at hSelect
      rw [loop_succ_of_none (by rw [hSelect]), hSelect] at hEnds hOnce
      cases hBatches : packBatches run.candidates run.tick.options.maxBatchTokens with
      | nil =>
        rw [hBatches] at hFlatten
        exact hSome hFlatten.symm
      | cons batch batches =>
        rw [hBatches] at hFlatten hFilled hEnds hOnce
        cases fuel with
        | zero => cases hEnds
        | succ fuel =>
          have hSend := @round_sending env { run with
            tick := { run.tick with phase := .sending batch batches }
            selected := run.selected ++ docIds run.candidates } batch batches rfl
          rw [show Tick.following (batch :: batches) = .sending batch batches from rfl,
            loop_succ_of_none (by rw [hSend]), hSend] at hOnce
          have hNodup := hOnce.sublist (sent_loop env _ fuel).sublist
          obtain ⟨first, rest, rfl⟩ := List.exists_cons_of_ne_nil
            (hFilled batch List.mem_cons_self)
          rw [hCandidates] at hFlatten
          obtain ⟨rfl, -⟩ := List.cons.inj hFlatten
          exact (List.nodup_append.mp hNodup).2.2 _ hSent _ List.mem_cons_self rfl

/-- The ids of `summaries` are its primary key. -/
theorem tickSound_iff (env : BackfillEnv) (db : OperatorDb) (options : BackfillOptions)
    (hIds : (db.summaries.map (·.summaryId)).Nodup) :
    Sound (runTick env db options) ↔
      Rounds (round env) Blocklisted (enough options) (start db options) := by
  have hEnds := runTick_ends env db options
  constructor
  · intro hSound
    exact (Underway.start hIds).rounds hEnds hSound.within.once
  · intro hRounds
    obtain ⟨e, hEnd⟩ := Option.isSome_iff_exists.mp hEnds
    have hPost : (runTick env db options).1.Within ∧
        (e = .returned → (runTick env db options).1.Reported) := by
      refine @Rounds.post _ _ (round env) Underway Blocklisted
        (fun run e => run.Within ∧ (e = .returned → run.Reported)) ?_ ?_ _ _ hRounds
        (Underway.start hIds) e hEnd
      · intro run hUnderway hBlocked hNext
        have hRound := @Underway.round env run hUnderway hBlocked
        rw [show round env run = (_, none) from Prod.ext rfl hNext] at hRound
        exact hRound
      · intro run hUnderway hBlocked e hLast
        have hRound := @Underway.round env run hUnderway hBlocked
        rw [show round env run = (_, some e) from Prod.ext rfl hLast] at hRound
        cases e with
        | returned => exact ⟨hRound.1, fun _ => hRound.2⟩
        | raised => exact ⟨hRound, fun h => nomatch h⟩
    exact ⟨hEnds, hPost.1, fun hReturned => hPost.2 (Option.some.inj (hEnd.symm.trans hReturned))⟩

/-! ## A vector of another dimension -/

def leafDb (dim : Nat) : OperatorDb :=
  { OperatorDb.ofDb { Db.empty with
      summaries := [⟨"leaf", 1, .leaf, 0, "", 300, [], none, none, 0, 0, 1, "m", 0, none⟩] } with
    embeddings :=
      { tables := [⟨"lcm_embeddings_m", dim, true⟩]
        profiles := [⟨"m", dim⟩]
        vectors := []
        metaRows := [] } }

/-- Every call of the service returns one vector of dimension 1. -/
def oneVector : BackfillEnv where
  str := fun _ => ""
  now := fun _ => 0
  outcomes := fun _ => .embedded [[0]] 1 ⟨false, fun _ => ⟨false, fun _ => false, false⟩, false⟩

def twoPerTick : BackfillOptions := ⟨"m", .summary, 80000, 2, 1, 27000⟩

/-- The leaf is written by its first call. -/
theorem sound_oneVector : Sound (runTick oneVector (leafDb 1) twoPerTick) := by
  refine (tickSound_iff oneVector (leafDb 1) twoPerTick (by decide)).mpr ?_
  decide +kernel

/-- The leaf cannot be written, and the tick pays for it up to its limit. -/
theorem not_tickSound : (runTick oneVector (leafDb 2) twoPerTick).1.sent = ["leaf", "leaf"] ∧
    (runTick oneVector (leafDb 2) twoPerTick).1.skippedIds = ["leaf", "leaf"] ∧
      ¬ Sound (runTick oneVector (leafDb 2) twoPerTick) := by
  have hSent : (runTick oneVector (leafDb 2) twoPerTick).1.sent = ["leaf", "leaf"] := by
    decide +kernel
  refine ⟨hSent, by decide +kernel, fun hSound => ?_⟩
  have hOnce := hSound.within.once
  rw [hSent] at hOnce
  exact absurd hOnce (by decide)

end BackfillRun
end LosslessHermes
