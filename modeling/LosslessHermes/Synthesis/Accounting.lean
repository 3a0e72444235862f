import Mathlib.Algebra.BigOperators.Group.List.Basic
import LosslessHermes.Synthesis.Dispatch

/-!
# Every model call of a synthesis is accounted for

`Settles` is what holds of `synthesize` on each of its exits: the calls that were made have
one audit row each and none of these rows is `started`; a text that is returned is that of
the single pass, or of the candidate at the selected index; and the totals are the sums over
the calls that succeeded. `settles_synthesize` proves it where the ids of the audit rows are
fresh. `Gathered` is the invariant of the candidates, by how many steps each has taken.
-/

namespace LosslessHermes.Dispatch

/-! ## A pass on its own -/

/-- The answer of a call that succeeded. -/
def PassEnv.success? (env : PassEnv) (call : ModelCall) : Option LlmCallResult :=
  match env.llmCall call.site call.args with
  | .ok result => some result
  | .error _ => none

/-- No call is awaited. -/
def NoneAwaited (_ : CallSite) : Prop := False

section Passes

variable {env : PassEnv} {old : List AuditRow} {state : DispatchState}

theorem runPassWithAudit_spec (hFresh : FreshIds env old)
    (h : Accounted env old NoneAwaited state) {site : CallSite}
    (hSite : site ∉ state.made.map (·.site)) (llmArgs : LlmCallArgs) (audit : PassAuditCtx)
    (hTarget : ¬ (audit.targetSummaryId = none ∧ audit.targetCacheId = none)) :
    ∃ state', runPassWithAudit env site llmArgs audit state =
        (passOutcome env site llmArgs, state') ∧
      state'.made = state.made ++ [⟨site, llmArgs⟩] ∧ Accounted env old NoneAwaited state' := by
  obtain ⟨started, hStart, hMade, hAwaited⟩ :=
    accounted_startPass hFresh h hSite llmArgs hTarget
  have hFinished := accounted_finishPass hFresh hAwaited site llmArgs
  unfold runPassWithAudit
  rw [hStart]
  refine ⟨_, rfl, hMade, hFinished.mono ?_⟩
  rintro s ⟨hNone | hSame, hNe⟩
  · exact hNone
  · exact hNe hSame

/-- The pass has the output, the latency and the cost of an answer. -/
structure PassResult.IsOf (pass : PassResult) (answer : LlmCallResult) : Prop where
  output : pass.output = answer.output
  latencyMs : pass.latencyMs = answer.latencyMs
  costCents : pass.costCents = answer.costCents

/-- A pass succeeds exactly with the answer of its call. -/
theorem passSuccess?_passOutcome (env : PassEnv) (site : CallSite) (llmArgs : LlmCallArgs) :
    (∃ pass answer, passSuccess? (passOutcome env site llmArgs) = some pass ∧
        env.success? ⟨site, llmArgs⟩ = some answer ∧ pass.IsOf answer) ∨
      passSuccess? (passOutcome env site llmArgs) = none ∧
        env.success? ⟨site, llmArgs⟩ = none := by
  unfold passOutcome PassEnv.success?
  cases env.llmCall site llmArgs with
  | error exc => exact Or.inr ⟨rfl, rfl⟩
  | ok answer => exact Or.inl ⟨_, answer, rfl, rfl, rfl, rfl, rfl⟩

theorem success?_of_passOutcome {site : CallSite} {llmArgs : LlmCallArgs} {pass : PassResult}
    (h : passOutcome env site llmArgs = .ok pass) :
    ∃ answer, env.success? ⟨site, llmArgs⟩ = some answer ∧ pass.IsOf answer := by
  rcases passSuccess?_passOutcome env site llmArgs with
    ⟨found, answer, hPass, hAnswer, hIs⟩ | ⟨hNone, -⟩
  · rw [h] at hPass
    cases hPass
    exact ⟨answer, hAnswer, hIs⟩
  · rw [h] at hNone
    cases hNone

theorem forall₂_successes {ι : Type} (env : PassEnv) (site : ι → CallSite)
    (llmArgs : LlmCallArgs) (is : List ι) :
    List.Forall₂ PassResult.IsOf
      ((is.map fun i => passOutcome env (site i) llmArgs).filterMap passSuccess?)
      ((is.map fun i => ModelCall.mk (site i) llmArgs).filterMap env.success?) := by
  induction is with
  | nil => exact .nil
  | cons i is ih =>
    rw [List.map_cons, List.map_cons, List.filterMap_cons, List.filterMap_cons]
    rcases passSuccess?_passOutcome env (site i) llmArgs with
      ⟨pass, answer, hPass, hAnswer, hIs⟩ | ⟨hPass, hAnswer⟩
    · rw [hPass, hAnswer]
      exact .cons hIs ih
    · rw [hPass, hAnswer]
      exact ih

theorem map_eq_of_isOf {α : Type} {ofPass : PassResult → α} {ofAnswer : LlmCallResult → α}
    {passes : List PassResult} {answers : List LlmCallResult}
    (hSame : ∀ pass answer, pass.IsOf answer → ofPass pass = ofAnswer answer)
    (h : List.Forall₂ PassResult.IsOf passes answers) :
    passes.map ofPass = answers.map ofAnswer := by
  induction h with
  | nil => rfl
  | cons hIs _ ih => rw [List.map_cons, List.map_cons, hSame _ _ hIs, ih]

end Passes

/-! ## The candidates -/

/-- The phase of a candidate by the number of its steps. -/
def phaseAfter (env : PassEnv) (site : CallSite) (llmArgs : LlmCallArgs) : Nat → CandidatePhase
  | 0 => .unstarted
  | 1 => .awaited
  | _ + 2 => .settled (passOutcome env site llmArgs)

/-- The candidates after `taken i` steps of each candidate `i`. -/
structure Gathered (env : PassEnv) (old : List AuditRow) (llmArgs : LlmCallArgs) {n : Nat}
    (taken : Fin n → Nat) (s : GatherState n) : Prop where
  phase : ∀ i, s.phase i = phaseAfter env (.candidate i) llmArgs (taken i)
  made : ∀ call, call ∈ s.dispatch.made ↔
    ∃ i : Fin n, call = ⟨.candidate i, llmArgs⟩ ∧ taken i ≠ 0
  accounted : Accounted env old (fun site => ∃ i : Fin n, site = .candidate i ∧ taken i = 1)
    s.dispatch

section Candidates

variable {env : PassEnv} {old : List AuditRow} {llmArgs : LlmCallArgs} {audit : PassAuditCtx}
  {n : Nat}

theorem candidate_injective {i j : Fin n}
    (h : CallSite.candidate i = CallSite.candidate j) : i = j :=
  Fin.ext (CallSite.candidate.inj h)

theorem gathered_step (hFresh : FreshIds env old)
    (hTarget : ¬ (audit.targetSummaryId = none ∧ audit.targetCacheId = none))
    {taken : Fin n → Nat} {s : GatherState n} (h : Gathered env old llmArgs taken s) (i : Fin n) :
    Gathered env old llmArgs (Function.update taken i (taken i + 1))
      (candidateStep env llmArgs audit s i) := by
  unfold candidateStep
  rw [h.phase i]
  cases hTaken : taken i with
  | zero =>
    have hSite : CallSite.candidate i ∉ s.dispatch.made.map (·.site) := by
      intro hMem
      obtain ⟨call, hCall, hSame⟩ := List.mem_map.mp hMem
      obtain ⟨j, rfl, hNe⟩ := (h.made call).mp hCall
      rw [candidate_injective hSame] at hNe
      exact hNe hTaken
    obtain ⟨started, hStart, hMade, hAccounted⟩ :=
      accounted_startPass hFresh h.accounted hSite llmArgs hTarget
    dsimp only [phaseAfter]
    rw [hStart]
    refine ⟨fun j => ?_, fun call => ?_, hAccounted.mono ?_⟩
    · by_cases hSame : j = i
      · subst hSame
        simp only [Function.update_self]
        rfl
      · simp only [Function.update_of_ne hSame]
        exact h.phase j
    · rw [hMade, List.mem_append, List.mem_singleton, h.made]
      constructor
      · rintro (⟨j, rfl, hNe⟩ | rfl)
        · refine ⟨j, rfl, ?_⟩
          have hSame : j ≠ i := fun hEq => hNe (hEq ▸ hTaken)
          rwa [Function.update_of_ne hSame]
        · exact ⟨i, rfl, by rw [Function.update_self]; omega⟩
      · rintro ⟨j, rfl, hNe⟩
        by_cases hSame : j = i
        · exact Or.inr (by rw [hSame])
        · rw [Function.update_of_ne hSame] at hNe
          exact Or.inl ⟨j, rfl, hNe⟩
    · rintro site (⟨j, rfl, hOne⟩ | rfl)
      · have hSame : j ≠ i := by
          rintro rfl
          omega
        exact ⟨j, rfl, by rwa [Function.update_of_ne hSame]⟩
      · exact ⟨i, rfl, by rw [Function.update_self]⟩
  | succ k =>
    have hMade : ∀ call, call ∈ s.dispatch.made ↔ ∃ j : Fin n, call = ⟨.candidate j, llmArgs⟩ ∧
        Function.update taken i (k + 1 + 1) j ≠ 0 := by
      intro call
      rw [h.made]
      refine exists_congr fun j => and_congr_right fun _ => ?_
      by_cases hSame : j = i
      · subst hSame
        rw [Function.update_self]
        omega
      · rw [Function.update_of_ne hSame]
    cases k with
    | zero =>
      dsimp only [phaseAfter]
      refine ⟨fun j => ?_, hMade, (accounted_finishPass hFresh h.accounted _ llmArgs).mono ?_⟩
      · by_cases hSame : j = i
        · subst hSame
          simp only [Function.update_self]
          rfl
        · simp only [Function.update_of_ne hSame]
          exact h.phase j
      · rintro site ⟨⟨j, rfl, hOne⟩, hNe⟩
        have hSame : j ≠ i := fun hEq => hNe (by rw [hEq])
        exact ⟨j, rfl, by rwa [Function.update_of_ne hSame]⟩
    | succ k =>
      dsimp only [phaseAfter]
      refine ⟨fun j => ?_, hMade, h.accounted.mono ?_⟩
      · rw [h.phase j]
        by_cases hSame : j = i
        · subst hSame
          rw [Function.update_self, hTaken]
          rfl
        · rw [Function.update_of_ne hSame]
      · rintro site ⟨j, rfl, hOne⟩
        have hSame : j ≠ i := by
          rintro rfl
          omega
        exact ⟨j, rfl, by rwa [Function.update_of_ne hSame]⟩

theorem gathered_run (hFresh : FreshIds env old)
    (hTarget : ¬ (audit.targetSummaryId = none ∧ audit.targetCacheId = none))
    (steps : List (Fin n)) {taken : Fin n → Nat} {s : GatherState n}
    (h : Gathered env old llmArgs taken s) :
    Gathered env old llmArgs (fun i => taken i + steps.count i)
      (steps.foldl (candidateStep env llmArgs audit) s) := by
  induction steps generalizing taken s with
  | nil => exact h
  | cons i steps ih =>
    have hTaken : (fun j => taken j + (i :: steps).count j) =
        fun j => Function.update taken i (taken i + 1) j + steps.count j := by
      funext j
      rw [List.count_cons]
      by_cases hSame : j = i
      · subst hSame
        rw [Function.update_self, beq_self_eq_true, if_pos rfl]
        omega
      · rw [Function.update_of_ne hSame, if_neg]
        · rfl
        · rw [beq_iff_eq]
          exact fun hEq => hSame hEq.symm
    rw [hTaken]
    exact ih (gathered_step hFresh hTarget h i)

def candidateCalls (llmArgs : LlmCallArgs) (n : Nat) : List ModelCall :=
  (List.finRange n).map fun i : Fin n => ⟨.candidate i, llmArgs⟩

/-- The candidates that are gathered from a table without calls. -/
theorem gather_spec {env : DispatchEnv} (hFresh : FreshIds env.toPassEnv old)
    (hTarget : ¬ (audit.targetSummaryId = none ∧ audit.targetCacheId = none)) (n : Nat) :
    (gather env llmArgs audit n ⟨old, []⟩).1 = (List.finRange n).map (fun i : Fin n =>
        passOutcome env.toPassEnv (.candidate i) llmArgs) ∧
      (gather env llmArgs audit n ⟨old, []⟩).2.made.Perm
        (candidateCalls llmArgs n) ∧
      Accounted env.toPassEnv old NoneAwaited (gather env llmArgs audit n ⟨old, []⟩).2 := by
  have hStart : Gathered env.toPassEnv old llmArgs (fun _ : Fin n => 0)
      ⟨⟨old, []⟩, fun _ => .unstarted⟩ := by
    refine ⟨fun _ => rfl, fun call => ?_, .refl _ _ _⟩
    exact iff_of_false List.not_mem_nil fun ⟨_, _, hNe⟩ => hNe rfl
  have hEnd := gathered_run hFresh hTarget (env.schedule n).steps hStart
  have hTwice : (fun i => 0 + (env.schedule n).steps.count i) = fun _ => 2 := by
    funext i
    rw [(env.schedule n).twice i]
  rw [hTwice] at hEnd
  refine ⟨?_, ?_, hEnd.accounted.mono fun _ ⟨_, _, hOne⟩ => nomatch hOne⟩
  · unfold gather
    dsimp only
    rw [← List.filterMap_eq_map]
    apply List.filterMap_congr
    intro i _
    rw [hEnd.phase i]
    rfl
  · have hNodup : (candidateCalls llmArgs n).Nodup := by
      refine (List.nodup_finRange n).map fun i j hEq => ?_
      exact candidate_injective (congrArg ModelCall.site hEq)
    refine (List.perm_ext_iff_of_nodup (.of_map _ hEnd.accounted.sites) hNodup).mpr fun call => ?_
    rw [hEnd.made call, candidateCalls, List.mem_map]
    constructor
    · rintro ⟨i, rfl, -⟩
      exact ⟨i, List.mem_finRange i, rfl⟩
    · rintro ⟨i, -, rfl⟩
      exact ⟨i, rfl, by omega⟩

end Candidates

/-! ## All exits -/

def ModelCall.isCandidate (call : ModelCall) : Bool :=
  match call.site with
  | .candidate _ => true
  | _ => false

def PassEnv.successes (env : PassEnv) (calls : List ModelCall) : List LlmCallResult :=
  calls.filterMap env.success?

/-- What a synthesis leaves of its model calls, and what it returns. -/
structure Settles (env : PassEnv) (old : List AuditRow)
    (result : Except SynthesisError SynthesizeResult × DispatchState) : Prop where
  /-- No place calls twice. -/
  sites : (result.2.made.map (·.site)).Nodup
  audited : ∃ new, result.2.audit = old ++ new ∧
    List.Forall₂ (fun row call => row.auditId = env.generateAuditId call.site ∧
      (row.status = .completed ∨ row.status = .failed)) new result.2.made
  latency : ∀ r, result.1 = .ok r →
    r.totalLatencyMs = ((env.successes result.2.made).map (·.latencyMs)).sum
  cost : ∀ r, result.1 = .ok r →
    r.totalCostCents = ((env.successes result.2.made).map (·.costCents.getD 0)).sum
  /-- The candidates are those that came back, and the output is the selected one. -/
  selected : ∀ r detail, result.1 = .ok r → r.bestOfN = some detail →
    detail.candidates.Perm
        ((env.successes (result.2.made.filter (·.isCandidate))).map (·.output)) ∧
      detail.n = detail.candidates.length ∧ detail.selectedIndex < detail.n ∧
      detail.candidates[detail.selectedIndex]? = some r.output
  single : ∀ r, result.1 = .ok r → r.bestOfN = none → ∃ args answer,
    ⟨.single, args⟩ ∈ result.2.made ∧ env.success? ⟨.single, args⟩ = some answer ∧
      r.output = answer.output

section Exits

variable {env : PassEnv} {old : List AuditRow} {state : DispatchState}

theorem Accounted.audited (h : Accounted env old NoneAwaited state) :
    ∃ new, state.audit = old ++ new ∧
      List.Forall₂ (fun row call => row.auditId = env.generateAuditId call.site ∧
        (row.status = .completed ∨ row.status = .failed)) new state.made := by
  obtain ⟨new, hAudit, hRows⟩ := h.rows
  refine ⟨new, hAudit, hRows.imp ?_⟩
  rintro row call ⟨hId, hStarted⟩
  refine ⟨hId, ?_⟩
  cases hStatus : row.status with
  | started => exact absurd (hStarted hStatus) id
  | completed => exact Or.inl rfl
  | failed => exact Or.inr rfl

theorem settles_error (h : Accounted env old NoneAwaited state) (e : SynthesisError) :
    Settles env old (.error e, state) where
  sites := h.sites
  audited := h.audited
  latency _ hOk := nomatch hOk
  cost _ hOk := nomatch hOk
  selected _ _ hOk := nomatch hOk
  single _ hOk := nomatch hOk

theorem successes_append (calls calls' : List ModelCall) :
    env.successes (calls ++ calls') = env.successes calls ++ env.successes calls' :=
  List.filterMap_append

/-- The passes of the candidates that came back. -/
structure Survivors (env : PassEnv) (made : List ModelCall) (passes : List PassResult) : Prop where
  candidates : ∀ call ∈ made, call.isCandidate = true
  answers : ∃ answers, List.Forall₂ PassResult.IsOf passes answers ∧
    answers.Perm (env.successes made)

namespace Survivors

variable {made : List ModelCall} {passes : List PassResult}

theorem latency (h : Survivors env made passes) :
    (passes.map (·.latencyMs)).sum = ((env.successes made).map (·.latencyMs)).sum := by
  obtain ⟨answers, hPasses, hPerm⟩ := h.answers
  rw [map_eq_of_isOf (fun _ _ hIs => hIs.latencyMs) hPasses]
  exact (hPerm.map _).sum_eq

theorem cost (h : Survivors env made passes) :
    (passes.map costOf).sum = ((env.successes made).map (·.costCents.getD 0)).sum := by
  obtain ⟨answers, hPasses, hPerm⟩ := h.answers
  have hSame : passes.map costOf = answers.map (·.costCents.getD 0) :=
    map_eq_of_isOf (fun _ _ hIs => congrArg (Option.getD · 0) hIs.costCents) hPasses
  rw [hSame]
  exact (hPerm.map _).sum_eq

theorem outputs (h : Survivors env made passes) :
    (passes.map (·.output)).Perm ((env.successes made).map (·.output)) := by
  obtain ⟨answers, hPasses, hPerm⟩ := h.answers
  rw [map_eq_of_isOf (fun _ _ hIs => hIs.output) hPasses]
  exact hPerm.map _

theorem filter_eq (h : Survivors env made passes) : made.filter (·.isCandidate) = made :=
  List.filter_eq_self.mpr h.candidates

end Survivors

end Exits

section Tiers

variable {env : DispatchEnv} {old : List AuditRow} {req : SynthesizeRequest}

theorem survivors_gather (hFresh : FreshIds env.toPassEnv old) (llmArgs : LlmCallArgs)
    (audit : PassAuditCtx)
    (hTarget : ¬ (audit.targetSummaryId = none ∧ audit.targetCacheId = none)) (n : Nat) :
    Accounted env.toPassEnv old NoneAwaited (gather env llmArgs audit n ⟨old, []⟩).2 ∧
      Survivors env.toPassEnv (gather env llmArgs audit n ⟨old, []⟩).2.made
        ((gather env llmArgs audit n ⟨old, []⟩).1.filterMap passSuccess?) := by
  obtain ⟨hResults, hMade, hAccounted⟩ := @gather_spec old llmArgs audit env hFresh hTarget n
  refine ⟨hAccounted, fun call hCall => ?_, ?_⟩
  · obtain ⟨i, -, rfl⟩ := List.mem_map.mp (hMade.mem_iff.mp hCall)
    rfl
  · rw [hResults]
    refine ⟨_, forall₂_successes env.toPassEnv (fun i : Fin n => .candidate i) llmArgs _, ?_⟩
    exact (hMade.filterMap env.success?).symm

theorem settles_sole {state : DispatchState} {sole : PassResult}
    (hAccounted : Accounted env.toPassEnv old NoneAwaited state)
    (h : Survivors env.toPassEnv state.made [sole]) (promptId : String) :
    Settles env.toPassEnv old
      (.ok ⟨sole.output, promptId, [sole.auditId], sole.latencyMs, costOf sole, none,
        some ⟨1, 0, [sole.output], none, false⟩⟩, state) where
  sites := hAccounted.sites
  audited := hAccounted.audited
  latency r hOk := by
    cases hOk
    rw [← h.latency, List.map_singleton, List.sum_singleton]
  cost r hOk := by
    cases hOk
    rw [← h.cost, List.map_singleton, List.sum_singleton]
  selected r detail hOk hDetail := by
    cases hOk
    cases hDetail
    refine ⟨?_, rfl, Nat.one_pos, rfl⟩
    rw [h.filter_eq]
    exact h.outputs
  single r hOk hNone := by
    cases hOk
    cases hNone

theorem settles_judgeCandidates (hFresh : FreshIds env.toPassEnv old)
    (hTarget : ¬ (req.targetSummaryId = none ∧ req.targetCacheId = none))
    {state : DispatchState} {candidateResults : List PassResult}
    (hAccounted : Accounted env.toPassEnv old NoneAwaited state)
    (h : Survivors env.toPassEnv state.made candidateResults) (primaryPrompt : PromptRecord)
    (model : String) :
    Settles env.toPassEnv old
      (judgeCandidates env req primaryPrompt model candidateResults state) := by
  have hSite : CallSite.judge ∉ state.made.map (·.site) := by
    rw [List.mem_map]
    rintro ⟨call, hCall, hSame⟩
    have hCandidate := h.candidates call hCall
    rw [ModelCall.isCandidate, hSame] at hCandidate
    cases hCandidate
  unfold judgeCandidates
  split
  · exact settles_error hAccounted _
  rename_i judgePrompt _
  split
  · exact settles_error hAccounted _
  rename_i renderedJudge _
  obtain ⟨state', hRun, hMade, hAccounted'⟩ := runPassWithAudit_spec hFresh hAccounted hSite
    ⟨model, renderedJudge, .bestOfNJudge, some 50⟩
    (auditCtx req judgePrompt.promptId
      ("\n---\n".intercalate (candidateResults.map (·.output)))) hTarget
  rw [hRun]
  dsimp only
  split
  · exact settles_error hAccounted' _
  rename_i judgeResult hJudge
  obtain ⟨answer, hAnswer, hIs⟩ := success?_of_passOutcome hJudge
  split
  · exact settles_error hAccounted' _
  rename_i selectedIndex hParse
  split
  · exact settles_error hAccounted' _
  rename_i selected hSelected
  have hSuccesses : env.toPassEnv.successes state'.made =
      env.toPassEnv.successes state.made ++ [answer] := by
    rw [hMade, successes_append]
    exact congrArg _ (List.filterMap_cons_some hAnswer)
  refine ⟨hAccounted'.sites, hAccounted'.audited, ?_, ?_, ?_, ?_⟩
  · intro r hOk
    cases hOk
    rw [hSuccesses, List.map_append, List.sum_append, ← h.latency, hIs.latencyMs,
      List.map_singleton, List.sum_singleton]
  · intro r hOk
    cases hOk
    rw [hSuccesses, List.map_append, List.sum_append, ← h.cost, costOf, hIs.costCents,
      List.map_singleton, List.sum_singleton]
  · intro r detail hOk hDetail
    cases hOk
    cases hDetail
    have hFilter : state'.made.filter (·.isCandidate) = state.made := by
      rw [hMade, List.filter_append, h.filter_eq]
      exact List.append_nil _
    refine ⟨?_, (List.length_map _).symm, parseJudgeOutput_lt hParse, ?_⟩
    · rw [hFilter]
      exact h.outputs
    · dsimp only
      rw [List.getElem?_map, hSelected]
      rfl
  · intro r hOk hNone
    cases hOk
    cases hNone

theorem settles_runBestOfNYearly (hFresh : FreshIds env.toPassEnv old)
    (hTarget : ¬ (req.targetSummaryId = none ∧ req.targetCacheId = none))
    (primaryPrompt : PromptRecord) (model : String) (n : Nat) :
    Settles env.toPassEnv old
      (runBestOfNYearly env req primaryPrompt model n ⟨old, []⟩) := by
  unfold runBestOfNYearly
  split
  · exact settles_error (.refl _ _ _) _
  rename_i renderedSingle _
  obtain ⟨hAccounted, hSurvivors⟩ := survivors_gather hFresh
    ⟨model, renderedSingle, .single, none⟩
    (auditCtx req primaryPrompt.promptId req.sourceText) hTarget n
  dsimp only
  generalize gather env ⟨model, renderedSingle, .single, none⟩
    (auditCtx req primaryPrompt.promptId req.sourceText) n ⟨old, []⟩ = gathered at *
  cases hResults : gathered.1.filterMap passSuccess? with
  | nil => exact settles_error hAccounted _
  | cons first rest =>
    rw [hResults] at hSurvivors
    cases rest with
    | nil => exact settles_sole hAccounted hSurvivors _
    | cons second rest =>
      exact settles_judgeCandidates hFresh hTarget hAccounted hSurvivors primaryPrompt model

/-- The check makes at most one more call, and its verdict comes with the answer. -/
theorem verifyFidelity_spec (hFresh : FreshIds env.toPassEnv old)
    (hTarget : ¬ (req.targetSummaryId = none ∧ req.targetCacheId = none))
    {state : DispatchState} (hAccounted : Accounted env.toPassEnv old NoneAwaited state)
    (hSite : CallSite.verify ∉ state.made.map (·.site)) (model : String) (single : PassResult) :
    Accounted env.toPassEnv old NoneAwaited (verifyFidelity env req model single state).2 ∧
      ∀ verdict, (verifyFidelity env req model single state).1 = .ok verdict → ∃ calls,
        (verifyFidelity env req model single state).2.made = state.made ++ calls ∧
          List.Forall₂ PassResult.IsOf (verdict.map (·.1)).toList (env.successes calls) := by
  have hSkipped : ∀ verdict : Option (PassResult × Bool),
      (.ok none : Except SynthesisError (Option (PassResult × Bool))) = .ok verdict →
        ∃ calls, state.made = state.made ++ calls ∧
          List.Forall₂ PassResult.IsOf (verdict.map Prod.fst).toList (env.successes calls) := by
    intro verdict hOk
    cases hOk
    exact ⟨[], (List.append_nil _).symm, .nil⟩
  unfold verifyFidelity
  split
  · split
    · exact ⟨hAccounted, hSkipped⟩
    rename_i verifyPrompt _
    split
    · exact ⟨hAccounted, fun _ hOk => nomatch hOk⟩
    rename_i renderedVerify _
    obtain ⟨state', hRun, hMade, hAccounted'⟩ := runPassWithAudit_spec hFresh hAccounted hSite
      ⟨model, renderedVerify, .verifyFidelity, some 100⟩
      (auditCtx req verifyPrompt.promptId single.output) hTarget
    rw [hRun]
    dsimp only
    split
    · exact ⟨hAccounted', fun _ hOk => nomatch hOk⟩
    rename_i verifyResult hVerify
    obtain ⟨answer, hAnswer, hIs⟩ := success?_of_passOutcome hVerify
    refine ⟨hAccounted', fun verdict hOk => ?_⟩
    cases hOk
    refine ⟨_, hMade, ?_⟩
    rw [PassEnv.successes, List.filterMap_cons_some hAnswer]
    exact .cons hIs .nil
  · exact ⟨hAccounted, hSkipped⟩

theorem settles_runSinglePass (hFresh : FreshIds env.toPassEnv old)
    (hTarget : ¬ (req.targetSummaryId = none ∧ req.targetCacheId = none))
    (primaryPrompt : PromptRecord) (model : String) :
    Settles env.toPassEnv old (runSinglePass env req primaryPrompt model ⟨old, []⟩) := by
  unfold runSinglePass
  split
  · exact settles_error (.refl _ _ _) _
  rename_i singlePassPrompt _
  obtain ⟨state, hRun, hMade, hAccounted⟩ := runPassWithAudit_spec hFresh
    (.refl env.toPassEnv old NoneAwaited) List.not_mem_nil ⟨model, singlePassPrompt, .single, none⟩
    (auditCtx req primaryPrompt.promptId req.sourceText) hTarget
  rw [hRun]
  dsimp only
  split
  · exact settles_error hAccounted _
  rename_i single hSingle
  obtain ⟨answer, hAnswer, hIs⟩ := success?_of_passOutcome hSingle
  have hSite : CallSite.verify ∉ state.made.map (·.site) := by
    rw [hMade]
    exact fun hMem => nomatch List.mem_singleton.mp hMem
  obtain ⟨hAccounted', hVerdict⟩ :=
    verifyFidelity_spec hFresh hTarget hAccounted hSite model single
  generalize verifyFidelity env req model single state = verified at *
  split
  · exact settles_error hAccounted' _
  rename_i verdict hOkVerdict
  obtain ⟨calls, hMade', hAnswers⟩ := hVerdict verdict hOkVerdict
  have hPasses : List.Forall₂ PassResult.IsOf (single :: (verdict.map (·.1)).toList)
      (env.successes verified.2.made) := by
    rw [hMade', successes_append, hMade]
    have hFirst : env.successes ([] ++ [⟨.single, ⟨model, singlePassPrompt, .single, none⟩⟩]) =
        [answer] := List.filterMap_cons_some hAnswer
    rw [hFirst]
    exact .cons hIs hAnswers
  refine ⟨hAccounted'.sites, hAccounted'.audited, ?_, ?_, ?_, ?_⟩
  · intro r hOk
    cases hOk
    exact congrArg List.sum (map_eq_of_isOf (fun _ _ hPass => hPass.latencyMs) hPasses)
  · intro r hOk
    cases hOk
    exact congrArg List.sum (map_eq_of_isOf
      (fun _ _ hPass => congrArg (Option.getD · 0) hPass.costCents) hPasses)
  · intro r detail hOk hDetail
    cases hOk
    cases hDetail
  · intro r hOk _
    cases hOk
    refine ⟨_, answer, ?_, hAnswer, hIs.output⟩
    rw [hMade', hMade]
    exact List.mem_append_left _ (List.mem_singleton_self _)

theorem settles_withRequested (requested : Int)
    {result : Except SynthesisError SynthesizeResult × DispatchState}
    (h : Settles env.toPassEnv old result) :
    Settles env.toPassEnv old (result.1.map (withRequested requested), result.2) := by
  obtain ⟨outcome, state⟩ := result
  cases outcome with
  | error e => exact ⟨h.sites, h.audited, nofun, nofun, nofun, nofun⟩
  | ok r =>
    refine ⟨h.sites, h.audited, ?_, ?_, ?_, ?_⟩
    · intro found hOk
      cases hOk
      exact h.latency r rfl
    · intro found hOk
      cases hOk
      exact h.cost r rfl
    · intro found detail hOk hDetail
      cases hOk
      obtain ⟨old, hOld, rfl⟩ := Option.map_eq_some_iff.mp hDetail
      exact h.selected r old rfl hOld
    · intro found hOk hNone
      cases hOk
      exact h.single r rfl (Option.map_eq_none_iff.mp hNone)

/-- **On every exit of a synthesis each model call that was made has one audit row in a final
state, the output is the selected candidate, and the totals are the sums over the calls that
succeeded.** -/
theorem settles_synthesize (env : DispatchEnv) (req : SynthesizeRequest) (old : List AuditRow)
    (hFresh : FreshIds env.toPassEnv old) :
    Settles env.toPassEnv old (synthesize env req old) := by
  unfold synthesize
  dsimp only
  split
  · exact settles_error (.refl _ _ _) _
  rename_i hTarget
  split
  · exact settles_error (.refl _ _ _) _
  split
  · exact settles_withRequested _ (settles_runBestOfNYearly hFresh hTarget ..)
  · exact settles_runSinglePass hFresh hTarget ..

end Tiers

/-! ## Three candidates of which one fails -/

def siteNumber : CallSite → Nat
  | .single => 0
  | .verify => 1
  | .judge => 2
  | .candidate i => i + 3

theorem siteNumber_injective : Function.Injective siteNumber := by
  intro site site' hEq
  cases site <;> cases site' <;> simp_all [siteNumber]

def unaryId (site : CallSite) : String :=
  String.ofList (List.replicate (siteNumber site) 'x')

theorem unaryId_injective : Function.Injective unaryId := by
  intro site site' hEq
  apply siteNumber_injective
  have hChars := congrArg String.toList hEq
  rw [unaryId, unaryId, String.toList_ofList, String.toList_ofList] at hChars
  simpa using congrArg List.length hChars

def inOrder (n : Nat) : Schedule n where
  steps := List.finRange n ++ List.finRange n
  twice i := by
    rw [List.count_append,
      List.count_eq_one_of_mem (List.nodup_finRange n) (List.mem_finRange i)]

/-- The second candidate fails, and the judge names the second of the two that are left. -/
def oneCandidateFails : DispatchEnv where
  llmCall
    | .candidate 1, _ => .error "overloaded"
    | .candidate i, _ => .ok ⟨"draft" ++ toString i, 100, some 2, none⟩
    | .judge, _ => .ok ⟨"Winner: 1", 20, some 1, none⟩
    | _, _ => .ok ⟨"", 0, none, none⟩
  generateAuditId := unaryId
  getActivePrompt _ _ kind := some ⟨kind.text, "", none⟩
  renderPrompt template _ := .ok template
  renderVerifyPrompt template _ _ := .ok template
  renderJudgePrompt template _ _ := .ok template
  defaultModel := "gpt-5.4-mini"
  isWordChar := isAsciiAlnum
  schedule := inOrder

def yearlyRequest : SynthesizeRequest :=
  ⟨.yearly, .episodicYearly, "source", "session", none, some "cache", none, false, none⟩

theorem settles_oneCandidateFails : FreshIds oneCandidateFails.toPassEnv [] ∧
    Settles oneCandidateFails.toPassEnv [] (synthesize oneCandidateFails yearlyRequest []) :=
  have hFresh : FreshIds oneCandidateFails.toPassEnv [] :=
    ⟨unaryId_injective, fun _ hRow => nomatch hRow⟩
  ⟨hFresh, settles_synthesize oneCandidateFails yearlyRequest [] hFresh⟩

end LosslessHermes.Dispatch
