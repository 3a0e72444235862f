import LosslessHermes.Compaction.Lossless
import LosslessHermes.Compaction.Sweep

/-!
# Sweeps are runs of passes

A sweep writes through its passes only, and so do repeated sweeps: `Passes` says that a database
is as some passes leave it. By `sweeps_refine_runs` the runs of `Lossless` have all that sweeps
can do, wherever they are cut off: `fuel` may run out between any two passes.
-/

namespace LosslessHermes.Compaction

/-- Some passes lead from `db` to `db'`, and ingest nothing. -/
def Passes (db db' : Db) : Prop :=
  ∃ events, ∀ ingested, RunState.run ⟨db, ingested⟩ events = ⟨db', ingested⟩

variable {db db' db'' : Db}

theorem Passes.refl (db : Db) : Passes db db :=
  ⟨[], fun _ => rfl⟩

theorem Passes.trans (h : Passes db db') (h' : Passes db' db'') : Passes db db'' := by
  obtain ⟨events, hRun⟩ := h
  obtain ⟨events', hRun'⟩ := h'
  refine ⟨events ++ events', fun ingested => ?_⟩
  have hFirst := hRun ingested
  unfold RunState.run at hFirst ⊢
  rw [List.foldl_append, hFirst]
  exact hRun' ingested

/-! ## Sweeps -/

section Sweep

variable {env : SweepEnv} {c : ConversationId} {force hardTrigger : Bool} {threshold : Int}

theorem passes_leafRound (s : SweepState) :
    Passes s.db (leafRound force threshold env c s).1.db := by
  unfold leafRound
  rw [sweepRound_db]
  exact ⟨[.leafPass c (env.passEnv s.calls) s.previousSummaryContent], fun _ => rfl⟩

theorem passes_condensedRound (s : SweepState) :
    Passes s.db (condensedRound force threshold env c hardTrigger s).1.db := by
  unfold condensedRound
  split
  · exact .refl _
  · rw [sweepRound_db]
    exact ⟨[.condensedPass c (env.passEnv s.calls) hardTrigger], fun _ => rfl⟩

theorem passes_sweepPhases (fuel : Nat) (s : SweepState) :
    Passes s.db (sweepPhases force threshold env c hardTrigger fuel s).1.db := by
  have hLeaf : Passes s.db (loop (leafRound force threshold env c) fuel s).1.db :=
    @loop_invariant _ _ _ (fun s' => Passes s.db s'.db)
      (fun s' h => h.trans (passes_leafRound s')) s (.refl _) fuel
  unfold sweepPhases
  split
  · rename_i hLoop
    rw [hLoop] at hLeaf
    exact @loop_invariant _ _ _ (fun s' => Passes s.db s'.db)
      (fun s' h => h.trans (passes_condensedRound s')) _ hLeaf fuel
  · exact hLeaf

theorem passes_compactFullSweep (db : Db) (calls : Nat) (tokenBudget : Int) (fuel : Nat) :
    Passes db (compactFullSweep env db calls c tokenBudget force hardTrigger fuel).state.db := by
  unfold compactFullSweep
  dsimp only
  split
  · exact .refl _
  · split
    · exact .refl _
    · have hPhases := @passes_sweepPhases env c force hardTrigger (env.contextThreshold tokenBudget)
        fuel (.start db calls (db.getContextTokenCount c))
      split
      all_goals
        rename_i hRun
        rw [hRun] at hPhases
        exact hPhases

theorem passes_compactUntilUnder (db : Db) (calls : Nat) (tokenBudget : Int)
    (targetTokens currentTokens : Option Int) (fuel : Nat) :
    Passes db (compactUntilUnder env db calls c tokenBudget targetTokens currentTokens
      fuel).1.db := by
  have hRound : ∀ target (s : UntilUnderState),
      (untilUnderRound env c tokenBudget target fuel s).1.db =
        (compactFullSweep env s.db s.calls c tokenBudget true false fuel).state.db := by
    intro target s
    unfold untilUnderRound
    dsimp only
    split
    · rfl
    · rfl
    · split_ifs <;> rfl
  have hLoop : ∀ target (s : UntilUnderState), Passes s.db
      (loop (untilUnderRound env c tokenBudget target fuel) env.maxRounds.toNat s).1.db := by
    intro target s
    refine @loop_invariant _ _ _ (fun s' => Passes s.db s'.db) (fun s' h => h.trans ?_) s
      (.refl _) _
    rw [hRound]
    exact passes_compactFullSweep s'.db s'.calls tokenBudget fuel
  unfold compactUntilUnder
  dsimp only
  split
  · exact .refl db
  · rename_i hOver
    have hPasses := hLoop ((targetTokens.filter (0 < ·)).getD tokenBudget) ⟨db, calls, 0,
      max (db.getContextTokenCount c : Int) ((currentTokens.filter (0 < ·)).getD 0)⟩
    split
    all_goals
      rename_i hEnd
      rw [hEnd] at hPasses
      exact hPasses

end Sweep

/-- A sweep, and repeated sweeps, are runs of passes from any state, whatever the summarizers do
and wherever they are cut off. What every run keeps, they keep. -/
theorem sweeps_refine_runs (s : RunState) (env : SweepEnv) (calls : Nat) (c : ConversationId)
    (tokenBudget : Int) (force hardTrigger : Bool) (targetTokens currentTokens : Option Int)
    (fuel : Nat) :
    (∃ events, s.run events = ⟨(compactFullSweep env s.db calls c tokenBudget force hardTrigger
      fuel).state.db, s.ingested⟩) ∧
    ∃ events, s.run events = ⟨(compactUntilUnder env s.db calls c tokenBudget targetTokens
      currentTokens fuel).1.db, s.ingested⟩ := by
  obtain ⟨events, hSweep⟩ := @passes_compactFullSweep env c force hardTrigger s.db calls
    tokenBudget fuel
  obtain ⟨events', hUnder⟩ := @passes_compactUntilUnder env c s.db calls tokenBudget targetTokens
    currentTokens fuel
  exact ⟨⟨events, hSweep s.ingested⟩, events', hUnder s.ingested⟩

end LosslessHermes.Compaction
