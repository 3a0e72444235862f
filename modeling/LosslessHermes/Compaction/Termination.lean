import LosslessHermes.Compaction.SweepEffect

/-!
# Every sweep ends

A leaf pass takes at least one raw message out of the context, and none of the fresh
tail. A condensed pass only goes on when the summaries of the context have become
cheaper. `sweep_terminates` bounds both loops, and with them the rounds of
`compactUntilUnder`.
-/

namespace LosslessHermes.Compaction

/-! ## The leaf loop -/

theorem rawIds_length (items : List ContextItemRecord) :
    (rawIds (items.map (·.ref))).length = items.countP fun i => !i.ref.isSummary := by
  induction items with
  | nil => rfl
  | cons item items ih =>
    rw [List.map_cons, List.countP_cons]
    cases hRef : item.ref with
    | message m =>
      rw [rawIds_message, List.length_cons, ih, if_pos (by simp [ContextItemRef.isSummary])]
    | summary s =>
      rw [rawIds_summary, ih, if_neg (by simp [ContextItemRef.isSummary]), Nat.add_zero]

/-- How many raw messages stand in front of the fresh tail. -/
def rawBeforeTail (db : Db) (config : CompactionConfig) (c : ConversationId) : Nat :=
  let items := db.getContextItems c
  items.countP fun i =>
    !i.ref.isSummary && decide (i.ordinal < resolveFreshTailOrdinal db config items)

theorem rawBeforeTail_add {db : Db} {config : CompactionConfig} {c : ConversationId}
    (h : WithinBounds (db.getContextItems c)) :
    rawBeforeTail db config c + freshTailLength db config ((db.getContextItems c).map (·.ref)) =
      (rawIds ((db.getContextItems c).map (·.ref))).length := by
  rw [← rawIds_freshTail, ← filter_freshTail h, rawIds_length, rawIds_length, List.countP_filter]
  dsimp only [rawBeforeTail]
  generalize resolveFreshTailOrdinal db config (db.getContextItems c) = boundary
  induction db.getContextItems c with
  | nil => rfl
  | cons item items ih =>
    simp only [List.countP_cons]
    rw [← ih]
    cases item.ref.isSummary
    · by_cases hBelow : item.ordinal < boundary
      · simp [hBelow, Int.not_le.mpr hBelow]
        omega
      · simp [hBelow, Int.not_lt.mp hBelow]
        omega
    · simp

def leafPasses (results : List PhaseResult) : Nat := results.countP fun result => !result.condensed

/-- Every recorded leaf pass has taken a raw message out of the context. -/
theorem leafPasses_le {env : SweepEnv} {db : Db} {c : ConversationId} (hState : ContextState db c)
    (calls : Nat) (tokenBudget : Int) (force hardTrigger : Bool) (fuel : Nat) :
    leafPasses (compactFullSweep env db calls c tokenBudget force hardTrigger
      fuel).state.phaseResults ≤ rawBeforeTail db env.config c := by
  let Inv : SweepState → Prop := fun s => ContextState s.db c ∧
    freshTail s.db env.config ((s.db.getContextItems c).map (·.ref)) =
      freshTail db env.config ((db.getContextItems c).map (·.ref)) ∧
    leafPasses s.phaseResults + (rawIds ((s.db.getContextItems c).map (·.ref))).length ≤
      (rawIds ((db.getContextItems c).map (·.ref))).length
  have hRule : SweepInvariant env c hardTrigger Inv := by
    refine ⟨fun s hInv => hInv.1.bounds.toOrdered, fun s s' hIdle hInv => ?_,
      fun s s' result hEffect hRecorded hInv => ?_, fun s s' result hEffect hRecorded hInv => ?_⟩
    · show ContextState s'.db c ∧ _ ∧ leafPasses s'.phaseResults + _ ≤ _
      rw [hIdle.db, hIdle.phaseResults]
      exact hInv
    · obtain ⟨hBefore, hTail, hCount⟩ := hInv
      obtain ⟨hState', hTail', hLess⟩ := hEffect.chunk_raw hBefore
      refine ⟨hState', hTail'.trans hTail, ?_⟩
      have hOne : leafPasses s'.phaseResults = leafPasses s.phaseResults + 1 := by
        rw [hRecorded.phaseResults, leafPasses, List.countP_append]
        rfl
      omega
    · obtain ⟨hBefore, hTail, hCount⟩ := hInv
      obtain ⟨hState', hTail', hSame⟩ := hEffect.chunk_summaries hBefore
      refine ⟨hState', hTail'.trans hTail, ?_⟩
      have hNone : leafPasses s'.phaseResults = leafPasses s.phaseResults := by
        rw [hRecorded.phaseResults, leafPasses, List.countP_append]
        rfl
      rw [hNone, hSame]
      exact hCount
  obtain ⟨hState', hTail, hCount⟩ := @compactFullSweep_invariant env c hardTrigger Inv hRule db
    calls ⟨hState, rfl, by simp [leafPasses, SweepState.start]⟩ tokenBudget force fuel
  have hBefore := @rawBeforeTail_add db env.config c hState.bounds
  have hKept := congrArg (fun refs => (rawIds refs).length) hTail
  simp only [rawIds_freshTail] at hKept
  generalize (compactFullSweep env db calls c tokenBudget force hardTrigger fuel).state = s at *
  have hAfter := @freshTailLength_le s.db env.config ((s.db.getContextItems c).map (·.ref))
  omega

/-! ## The condensed loop -/

/-- What the readable summary behind an item costs. -/
def summaryWeight (db : Db) : ContextItemRef → Nat
  | .message _ => 0
  | .summary s => ((db.getSummary s).map (·.tokenCount)).getD 0

def summaryTokens (db : Db) (c : ConversationId) : Nat :=
  ((db.getContextItems c).map fun i => summaryWeight db i.ref).sum

theorem CondensedEffect.summaryTokens {db db' : Db} {env : PassEnv} {c : ConversationId}
    {hardTrigger : Bool} {result : LeafPassResult}
    (h : CondensedEffect db env c hardTrigger db' result) (hState : ContextState db c) :
    summaryTokens db' c + result.removedTokens = summaryTokens db c + result.addedTokens := by
  obtain ⟨candidate, before, after, record, hCandidate, hReplaced, -, hTokens, hRemoved⟩ :=
    h.effect
  obtain ⟨-, -, hChunk⟩ := selectShallowestCondensationCandidate_spec hCandidate
  have hSum := @Replaced.sum_refs db db' c record before candidate.chunk.items after hReplaced
    (summaryWeight db) (summaryWeight db') fun i hi => by
      have hRef := hState.refs i hi
      cases hKind : i.ref with
      | message m => rfl
      | summary s =>
        rw [hKind] at hRef
        simp only [summaryWeight, hReplaced.getSummary_of_hasRef hRef]
  have hNew : summaryWeight db' (.summary record.summaryId) = record.tokenCount := by
    simp only [summaryWeight, hReplaced.getSummary_new, Option.map_some, Option.getD_some]
  have hWeight : ∀ s found, db.getSummary s = some found →
      summaryWeight db (.summary s) = found.tokenCount := by
    intro s found hFound
    simp only [summaryWeight, hFound, Option.map_some, Option.getD_some]
  have hChunkSum := sum_condensedRecords hWeight fun i hi => (hChunk i hi).1
  rw [hNew, hTokens, ← hChunkSum, ← hRemoved] at hSum
  exact hSum

/-! ## Both loops -/

section Ends

variable {env : SweepEnv} {c : ConversationId}

theorem contextState_rule (hardTrigger : Bool) :
    SweepInvariant env c hardTrigger fun s => ContextState s.db c := by
  refine ⟨fun s hInv => hInv.bounds.toOrdered, fun s s' hIdle hInv => ?_,
    fun s s' result hEffect _ hInv => (hEffect.chunk_raw hInv).1,
    fun s s' result hEffect _ hInv => (hEffect.chunk_summaries hInv).1⟩
  rw [hIdle.db]
  exact hInv

theorem leafLoop_ends (force : Bool) (threshold : Int) {s : SweepState}
    (hState : ContextState s.db c) {fuel : Nat}
    (hFuel : (rawIds ((s.db.getContextItems c).map (·.ref))).length < fuel) :
    (loop (leafRound force threshold env c) fuel s).2.isSome := by
  refine loop_ends (fun s : SweepState => (rawIds ((s.db.getContextItems c).map (·.ref))).length)
    ((contextState_rule false).leafRound force threshold) (fun s hState hNone => ?_) hState hFuel
  rcases @leafRound_effect force threshold s env c hState.bounds.toOrdered with
    ⟨-, hSome⟩ | ⟨result, hEffect, -, -⟩
  · rw [hNone] at hSome
    cases hSome
  · exact (hEffect.chunk_raw hState).2.2

theorem condensedLoop_ends (force : Bool) (threshold : Int) (hardTrigger : Bool) {s : SweepState}
    (hState : ContextState s.db c) {fuel : Nat} (hFuel : summaryTokens s.db c < fuel) :
    (loop (condensedRound force threshold env c hardTrigger) fuel s).2.isSome := by
  refine loop_ends (fun s : SweepState => summaryTokens s.db c)
    ((contextState_rule hardTrigger).condensedRound force threshold)
    (fun s hState hNone => ?_) hState hFuel
  rcases @condensedRound_effect force threshold s env c hState.bounds.toOrdered hardTrigger with
    ⟨-, hSome⟩ | ⟨result, hEffect, hRecorded, hProgress⟩
  · rw [hNone] at hSome
    cases hSome
  · -- the round went on, so the summary is cheaper than its sources
    have hTokens := hEffect.summaryTokens hState
    have hRunning := hRecorded.runningTokens
    have hLess := hProgress hNone
    omega

theorem sweepPhases_ends (force : Bool) (threshold : Int) (hardTrigger : Bool) {s : SweepState}
    (hState : ContextState s.db c) :
    ∃ bound, (sweepPhases force threshold env c hardTrigger bound s).2.isSome ∧
      ∀ fuel, bound ≤ fuel → sweepPhases force threshold env c hardTrigger fuel s =
        sweepPhases force threshold env c hardTrigger bound s := by
  obtain ⟨leafBound, hLeafBound⟩ :
      ∃ n, (rawIds ((s.db.getContextItems c).map (·.ref))).length < n := ⟨_, Nat.lt_succ_self _⟩
  have hLeaf := @leafLoop_ends env c force threshold s hState leafBound hLeafBound
  have hMid := loop_invariant ((@contextState_rule env c hardTrigger).leafRound force threshold)
    hState leafBound
  have hLeafSame := fun fuel => @loop_mono _ _ _ _ _ hLeaf fuel
  generalize loop (leafRound force threshold env c) leafBound s = leafRun
    at hLeaf hMid hLeafSame
  obtain ⟨mid, leafEnd⟩ := leafRun
  obtain ⟨leafEnd, rfl⟩ := Option.isSome_iff_exists.mp hLeaf
  cases leafEnd with
  | raised e =>
    have hRun : ∀ fuel, leafBound ≤ fuel →
        sweepPhases force threshold env c hardTrigger fuel s = (mid, some (.raised e)) := by
      intro fuel hFuel
      simp only [sweepPhases, hLeafSame fuel hFuel]
    refine ⟨leafBound, ?_, fun fuel hFuel => ?_⟩
    · rw [hRun leafBound le_rfl]
      rfl
    · rw [hRun fuel hFuel, hRun leafBound le_rfl]
  | finished =>
    have hCondensed := @condensedLoop_ends env c force threshold hardTrigger mid hMid _
      (Nat.lt_succ_self _)
    have hRun : ∀ fuel, max leafBound (summaryTokens mid.db c + 1) ≤ fuel →
        sweepPhases force threshold env c hardTrigger fuel s =
          loop (condensedRound force threshold env c hardTrigger)
            (summaryTokens mid.db c + 1) mid := by
      intro fuel hFuel
      simp only [sweepPhases, hLeafSame fuel ((le_max_left _ _).trans hFuel)]
      exact loop_mono hCondensed ((le_max_right _ _).trans hFuel)
    refine ⟨max leafBound (summaryTokens mid.db c + 1), ?_, fun fuel hFuel => ?_⟩
    · rw [hRun _ le_rfl]
      exact hCondensed
    · rw [hRun fuel hFuel, hRun _ le_rfl]

/-- From some fuel on a sweep answers, and always the same. -/
theorem compactFullSweep_answers {db : Db} (hState : ContextState db c) (calls : Nat)
    (tokenBudget : Int) (force hardTrigger : Bool) :
    ∃ bound,
      (compactFullSweep env db calls c tokenBudget force hardTrigger bound).answer.isSome ∧
      ∀ fuel, bound ≤ fuel → compactFullSweep env db calls c tokenBudget force hardTrigger fuel =
        compactFullSweep env db calls c tokenBudget force hardTrigger bound := by
  obtain ⟨bound, hEnd, hSame⟩ := @sweepPhases_ends env c force (env.contextThreshold tokenBudget)
    hardTrigger (.start db calls (db.getContextTokenCount c)) hState
  refine ⟨bound, ?_, fun fuel hFuel => ?_⟩
  · unfold compactFullSweep
    dsimp only
    split
    · rfl
    · split
      · rfl
      · split
        · rename_i hRun
          rw [hRun] at hEnd
          cases hEnd
        · rfl
        · rfl
  · unfold compactFullSweep
    dsimp only
    rw [hSame fuel hFuel]

theorem sweepPhases_calls (force : Bool) (threshold : Int) (hardTrigger : Bool) (fuel : Nat)
    (s : SweepState) :
    (sweepPhases force threshold env c hardTrigger fuel s).1.calls ≤ s.calls + 2 * fuel := by
  have hRound : ∀ (condensed : Bool) (s : SweepState) outcome,
      (sweepRound force threshold condensed s outcome).1.calls ≤ s.calls + 1 := by
    intro condensed s outcome
    unfold sweepRound
    dsimp only
    split
    · exact Nat.le_refl _
    · split
      · exact Nat.le_refl _
      · split
        · exact Nat.le_refl _
        · split
          · exact Nat.le_refl _
          · split <;> exact Nat.le_refl _
  have hLeaf := @loop_count _ _ (leafRound force threshold env c) (·.calls)
    (fun s => hRound false s _) s fuel
  unfold sweepPhases
  split
  · rename_i mid hLoop
    rw [hLoop] at hLeaf
    have hCondensed := @loop_count _ _ (condensedRound force threshold env c hardTrigger)
      (·.calls) (fun s => by
        unfold condensedRound
        split
        · exact Nat.le_succ _
        · exact hRound true s _) mid fuel
    have hMid : mid.calls ≤ s.calls + fuel := hLeaf
    omega
  · omega

theorem compactFullSweep_calls {db : Db} (calls : Nat) (tokenBudget : Int)
    (force hardTrigger : Bool) (fuel : Nat) :
    (compactFullSweep env db calls c tokenBudget force hardTrigger fuel).state.calls ≤
      calls + 2 * fuel := by
  have hPhases := @sweepPhases_calls env c force (env.contextThreshold tokenBudget) hardTrigger
    fuel (.start db calls (db.getContextTokenCount c))
  have hStart : (SweepState.start db calls (db.getContextTokenCount c)).calls = calls := rfl
  unfold compactFullSweep
  dsimp only
  split
  · exact Nat.le_add_right _ _
  · split
    · exact Nat.le_add_right _ _
    · split
      all_goals
        rename_i hRun
        rw [hRun] at hPhases
        exact hPhases

/-! ## The rounds of `compactUntilUnder` -/

theorem untilUnder_ends (tokenBudget effectiveTarget : Int) (rounds : Nat) {s : UntilUnderState}
    (hState : ContextState s.db c) :
    ∃ bound, ∀ fuel, bound ≤ fuel →
      (loop (untilUnderRound env c tokenBudget effectiveTarget fuel) rounds s).2 ≠
        some .outOfFuel := by
  induction rounds generalizing s with
  | zero => exact ⟨0, fun fuel _ h => nomatch h⟩
  | succ rounds ih =>
    obtain ⟨bound, hAnswer, hSame⟩ := @compactFullSweep_answers env c s.db hState s.calls
      tokenBudget true false
    have hRound : ∀ fuel, bound ≤ fuel →
        untilUnderRound env c tokenBudget effectiveTarget fuel s =
          untilUnderRound env c tokenBudget effectiveTarget bound s := by
      intro fuel hFuel
      unfold untilUnderRound
      rw [hSame fuel hFuel]
    cases hEnd : (untilUnderRound env c tokenBudget effectiveTarget bound s).2 with
    | some answer =>
      refine ⟨bound, fun fuel hFuel => ?_⟩
      rw [loop_succ_of_some (by rw [hRound fuel hFuel]; exact hEnd)]
      rintro ⟨rfl⟩
      revert hEnd
      unfold untilUnderRound
      dsimp only
      split
      · rename_i hNone
        rw [hNone] at hAnswer
        cases hAnswer
      · rintro ⟨⟩
      · split_ifs <;> rintro ⟨⟩
    | none =>
      have hNext : ContextState
          (untilUnderRound env c tokenBudget effectiveTarget bound s).1.db c := by
        have hSweep := (@freshTail_compactFullSweep env s.db c hState s.calls tokenBudget true
          false bound).1
        revert hSweep
        unfold untilUnderRound
        dsimp only
        intro hSweep
        split
        · exact hSweep
        · exact hSweep
        · split_ifs <;> exact hSweep
      obtain ⟨bound', hRest⟩ := ih hNext
      refine ⟨max bound bound', fun fuel hFuel => ?_⟩
      have hHere := hRound fuel ((le_max_left _ _).trans hFuel)
      rw [loop_succ_of_none (by rw [hHere]; exact hEnd), hHere]
      exact hRest fuel ((le_max_right _ _).trans hFuel)

theorem untilUnder_sweeps (tokenBudget effectiveTarget : Int) (fuel rounds : Nat)
    (s : UntilUnderState) :
    (loop (untilUnderRound env c tokenBudget effectiveTarget fuel) rounds s).1.sweeps ≤
      s.sweeps + rounds := by
  refine loop_count (·.sweeps) (fun s => ?_) s rounds
  unfold untilUnderRound
  dsimp only
  split
  · exact Nat.le_refl _
  · exact Nat.le_refl _
  · split_ifs <;> exact Nat.le_refl _

theorem compactUntilUnder_ends {db : Db} (hState : ContextState db c) (calls : Nat)
    (tokenBudget : Int) (targetTokens currentTokens : Option Int) :
    ∃ bound, ∀ fuel, bound ≤ fuel →
      (compactUntilUnder env db calls c tokenBudget targetTokens currentTokens fuel).2 ≠
        .outOfFuel := by
  obtain ⟨bound, hEnds⟩ := @untilUnder_ends env c tokenBudget
    ((targetTokens.filter (0 < ·)).getD tokenBudget) env.maxRounds.toNat
    ⟨db, calls, 0, max (db.getContextTokenCount c : Int) ((currentTokens.filter (0 < ·)).getD 0)⟩
    hState
  refine ⟨bound, fun fuel hFuel => ?_⟩
  have hEnd := hEnds fuel hFuel
  unfold compactUntilUnder
  dsimp only
  split
  · exact fun h => nomatch h
  · split
    · rename_i hLoop
      rw [hLoop] at hEnd
      exact fun hAnswer => hEnd (congrArg some hAnswer)
    · exact fun h => nomatch h

theorem compactUntilUnder_sweeps {db : Db} (calls : Nat) (tokenBudget : Int)
    (targetTokens currentTokens : Option Int) (fuel : Nat) :
    (compactUntilUnder env db calls c tokenBudget targetTokens currentTokens fuel).1.sweeps ≤
      env.maxRounds.toNat := by
  have hSweeps := @untilUnder_sweeps env c tokenBudget
    ((targetTokens.filter (0 < ·)).getD tokenBudget) fuel env.maxRounds.toNat
    ⟨db, calls, 0, max (db.getContextTokenCount c : Int) ((currentTokens.filter (0 < ·)).getD 0)⟩
  rw [Nat.zero_add] at hSweeps
  unfold compactUntilUnder
  dsimp only
  split
  · exact Nat.zero_le _
  · split
    all_goals
      rename_i hLoop
      rw [hLoop] at hSweeps
      exact hSweeps

end Ends

/-- **Every sweep terminates**: from some fuel on it answers, it never runs more passes than
a bound, no more leaf passes than there are raw messages in front of the fresh tail, and
`compactUntilUnder` sweeps at most `maxRounds` times. -/
theorem sweep_terminates {env : SweepEnv} {db : Db} {c : ConversationId}
    (hState : ContextState db c) (calls : Nat) (tokenBudget : Int) (force hardTrigger : Bool)
    (targetTokens currentTokens : Option Int) :
    (∃ bound, ∀ fuel,
      let run := compactFullSweep env db calls c tokenBudget force hardTrigger fuel
      (bound ≤ fuel → run.answer.isSome) ∧ run.state.calls ≤ calls + bound ∧
        leafPasses run.state.phaseResults ≤ rawBeforeTail db env.config c) ∧
    ∃ bound, ∀ fuel,
      let run := compactUntilUnder env db calls c tokenBudget targetTokens currentTokens fuel
      (bound ≤ fuel → run.2 ≠ .outOfFuel) ∧ run.1.sweeps ≤ env.maxRounds.toNat := by
  constructor
  · obtain ⟨bound, hAnswer, hSame⟩ :=
      @compactFullSweep_answers env c db hState calls tokenBudget force hardTrigger
    refine ⟨2 * bound, fun fuel => ⟨fun hFuel => ?_, ?_,
      leafPasses_le hState calls tokenBudget force hardTrigger fuel⟩⟩
    · rw [hSame fuel (by omega)]
      exact hAnswer
    · have hCalls := fun fuel =>
        @compactFullSweep_calls env c db calls tokenBudget force hardTrigger fuel
      rcases Nat.le_total bound fuel with hLe | hLe
      · rw [hSame fuel hLe]
        exact hCalls bound
      · have hHere := hCalls fuel
        omega
  · obtain ⟨bound, hEnds⟩ := @compactUntilUnder_ends env c db hState calls tokenBudget targetTokens
      currentTokens
    exact ⟨bound, fun fuel => ⟨hEnds fuel,
      compactUntilUnder_sweeps calls tokenBudget targetTokens currentTokens fuel⟩⟩

theorem sweep_terminates_threeTurns :
    (∃ bound, ∀ fuel,
      let run := compactFullSweep oneWordEnv threeTurns 0 1 100 true false fuel
      (bound ≤ fuel → run.answer.isSome) ∧ run.state.calls ≤ 0 + bound ∧
        leafPasses run.state.phaseResults ≤ rawBeforeTail threeTurns oneWordEnv.config 1) ∧
    ∃ bound, ∀ fuel,
      let run := compactUntilUnder oneWordEnv threeTurns 0 1 100 (some 4) none fuel
      (bound ≤ fuel → run.2 ≠ .outOfFuel) ∧ run.1.sweeps ≤ oneWordEnv.maxRounds.toNat :=
  sweep_terminates contextState_threeTurns 0 100 true false (some 4) none

end LosslessHermes.Compaction
