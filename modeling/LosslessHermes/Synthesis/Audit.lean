import Mathlib.Algebra.Order.Floor.Defs
import Mathlib.Data.List.Forall2
import Mathlib.Data.Rat.Floor

/-!
# Audited model calls

One call of a model in a synthesis: a row `started` in `lcm_synthesis_audit` before it, an
update of that row to `completed` or `failed` after it. The two halves are steps of their
own (`startPass`, `finishPass`), since calls that are awaited together take them in any
order.

`Accounted` says that the rows added to the table belong, one each, to the calls that were
made, and that only the rows of the calls that are awaited are still `started`.
-/

namespace LosslessHermes.Dispatch

/-! ## The audit table -/

inductive PassKind
  | single
  | verifyFidelity
  | bestOfNJudge
  deriving DecidableEq, Repr

def PassKind.text : PassKind → String
  | .single => "single"
  | .verifyFidelity => "verify_fidelity"
  | .bestOfNJudge => "best_of_n_judge"

inductive AuditStatus
  | started
  | completed
  | failed
  deriving DecidableEq, Repr

structure AuditRow where
  auditId : String
  passSessionId : String
  targetSummaryId : Option String
  targetCacheId : Option String
  promptId : String
  passKind : PassKind
  passInputTruncated : String
  passOutput : Option String
  status : AuditStatus
  modelUsed : String
  latencyMs : Option Int
  costUsdCents : Option Int
  lastError : Option String

structure AuditInsertContext where
  passSessionId : String
  targetSummaryId : Option String
  targetCacheId : Option String
  promptId : String
  passKind : PassKind
  passInputTruncated : String
  modelUsed : String

structure AuditCompletedResult where
  passOutput : String
  modelUsed : String
  latencyMs : Int
  costCents : Option Int

def AUDIT_MAX_LEN : Nat := 8000

def LAST_ERROR_MAX_LEN : Nat := 500

/-- `s[:n]` -/
def takeText (s : String) (n : Nat) : String :=
  String.ofList (s.toList.take n)

def truncateForAudit (s : String) : String :=
  if AUDIT_MAX_LEN < s.toList.length then takeText s AUDIT_MAX_LEN ++ "…(truncated)" else s

def startedRow (auditId : String) (ctx : AuditInsertContext) : AuditRow where
  auditId
  passSessionId := ctx.passSessionId
  targetSummaryId := ctx.targetSummaryId
  targetCacheId := ctx.targetCacheId
  promptId := ctx.promptId
  passKind := ctx.passKind
  passInputTruncated := ctx.passInputTruncated
  passOutput := none
  status := .started
  modelUsed := ctx.modelUsed
  latencyMs := none
  costUsdCents := none
  lastError := none

/-- The insertion, or the text of the exception; the key of the table is the id. -/
def insertAuditStarted (rows : List AuditRow) (auditId : String) (ctx : AuditInsertContext) :
    Except String (List AuditRow) :=
  if ctx.targetSummaryId = none ∧ ctx.targetCacheId = none then
    .error ("[synthesis.audit] insert_audit_started: at least one of target_summary_id / " ++
      "target_cache_id is required (lcm_synthesis_audit CHECK constraint requires one of " ++
      "them set)")
  else if rows.any fun row => row.auditId = auditId then
    .error "UNIQUE constraint failed: lcm_synthesis_audit.audit_id"
  else .ok (rows ++ [startedRow auditId ctx])

/-- `UPDATE ... WHERE audit_id = ?` -/
def updateAudit (rows : List AuditRow) (auditId : String) (set : AuditRow → AuditRow) :
    List AuditRow :=
  rows.map fun row => if row.auditId = auditId then set row else row

/-- A cost that is not known leaves the column alone. -/
def AuditRow.complete (row : AuditRow) (result : AuditCompletedResult) : AuditRow :=
  { row with
    status := .completed
    passOutput := some result.passOutput
    modelUsed := result.modelUsed
    latencyMs := some result.latencyMs
    costUsdCents := if result.costCents.isSome then result.costCents else row.costUsdCents }

def AuditRow.fail (row : AuditRow) (err : String) : AuditRow :=
  { row with status := .failed, lastError := some (takeText err LAST_ERROR_MAX_LEN) }

/-! ## One pass -/

/-- The place of a call in a synthesis. -/
inductive CallSite
  | single
  | verify
  | candidate (i : Nat)
  | judge
  deriving DecidableEq, Repr

structure LlmCallArgs where
  model : String
  prompt : String
  passKind : PassKind
  maxOutputTokens : Option Nat

/-- The latency is a float of the source; here it is its exact value. -/
structure LlmCallResult where
  output : String
  latencyMs : ℚ
  costCents : Option Int
  actualModel : Option String

inductive DispatchKind
  | missingPrompt
  | missingTarget
  | llmFailure
  | judgeFailure
  | auditInsertFailure
  deriving DecidableEq, Repr

/-- What a synthesis raises: `SynthesisDispatchError`, or another exception. -/
inductive SynthesisError
  | dispatch (kind : DispatchKind) (message : String)
  | raised (message : String)
  deriving DecidableEq, Repr

def SynthesisError.text : SynthesisError → String
  | .dispatch _ message => message
  | .raised message => message

structure PassAuditCtx where
  passSessionId : String
  promptId : String
  targetSummaryId : Option String
  targetCacheId : Option String
  passInputForAudit : String

structure PassResult where
  auditId : String
  output : String
  latencyMs : ℚ
  costCents : Option Int
  actualModel : String

/-- The model and the source of the ids. A call that fails raises an `Exception`. -/
structure PassEnv where
  llmCall : CallSite → LlmCallArgs → Except String LlmCallResult
  generateAuditId : CallSite → String

structure ModelCall where
  site : CallSite
  args : LlmCallArgs

/-- The audit table, and the calls of the model made so far. -/
structure DispatchState where
  audit : List AuditRow
  made : List ModelCall

/-- `round`, which takes ties to the even number. -/
def roundHalfEven (q : ℚ) : Int :=
  if 2 * (q - ⌊q⌋) < 1 then ⌊q⌋
  else if 1 < 2 * (q - ⌊q⌋) then ⌊q⌋ + 1
  else ⌊q⌋ + ⌊q⌋ % 2

def insertContext (llmArgs : LlmCallArgs) (audit : PassAuditCtx) : AuditInsertContext where
  passSessionId := audit.passSessionId
  targetSummaryId := audit.targetSummaryId
  targetCacheId := audit.targetCacheId
  promptId := audit.promptId
  passKind := llmArgs.passKind
  passInputTruncated := truncateForAudit audit.passInputForAudit
  modelUsed := llmArgs.model

/-- The pass up to the call of the model. -/
def startPass (env : PassEnv) (site : CallSite) (llmArgs : LlmCallArgs) (audit : PassAuditCtx)
    (state : DispatchState) : Except SynthesisError DispatchState :=
  match insertAuditStarted state.audit (env.generateAuditId site)
      (insertContext llmArgs audit) with
  | .error exc =>
      .error (.dispatch .auditInsertFailure
        ("[synthesis.dispatch] failed to insert 'started' audit row (LLM not called): " ++ exc))
  | .ok rows => .ok ⟨rows, state.made ++ [⟨site, llmArgs⟩]⟩

/-- `result.actual_model or llm_args.model` -/
def recordedModel (llmArgs : LlmCallArgs) (result : LlmCallResult) : String :=
  match result.actualModel with
  | some model => if model = "" then llmArgs.model else model
  | none => llmArgs.model

/-- What a pass makes of the answer of the model. -/
def passOutcome (env : PassEnv) (site : CallSite) (llmArgs : LlmCallArgs) :
    Except SynthesisError PassResult :=
  match env.llmCall site llmArgs with
  | .error exc =>
      .error (.dispatch .llmFailure ("[synthesis.dispatch] LLM call failed for pass " ++
        llmArgs.passKind.text ++ ": " ++ exc))
  | .ok result =>
      .ok ⟨env.generateAuditId site, result.output, result.latencyMs, result.costCents,
        recordedModel llmArgs result⟩

/-- The row of the call after the answer of the model. -/
def AuditRow.finish (row : AuditRow) (llmArgs : LlmCallArgs) :
    Except String LlmCallResult → AuditRow
  | .error exc => row.fail exc
  | .ok result => row.complete
      { passOutput := truncateForAudit result.output
        modelUsed := recordedModel llmArgs result
        latencyMs := roundHalfEven result.latencyMs
        costCents := result.costCents }

/-- The pass from the answer of the model on. -/
def finishPass (env : PassEnv) (site : CallSite) (llmArgs : LlmCallArgs)
    (state : DispatchState) : Except SynthesisError PassResult × DispatchState :=
  (passOutcome env site llmArgs,
    { state with audit := updateAudit state.audit (env.generateAuditId site) fun row =>
        row.finish llmArgs (env.llmCall site llmArgs) })

def runPassWithAudit (env : PassEnv) (site : CallSite) (llmArgs : LlmCallArgs)
    (audit : PassAuditCtx) (state : DispatchState) :
    Except SynthesisError PassResult × DispatchState :=
  match startPass env site llmArgs audit state with
  | .error e => (.error e, state)
  | .ok started => finishPass env site llmArgs started

/-! ## The account of the calls -/

/-- The ids are pairwise distinct and not in the table. -/
structure FreshIds (env : PassEnv) (rows : List AuditRow) : Prop where
  injective : Function.Injective env.generateAuditId
  fresh : ∀ row ∈ rows, ∀ site, row.auditId ≠ env.generateAuditId site

/-- Since the table had the rows `old`, one row was added for each call that was made, in
that order; it is still `started` only if the call is awaited. -/
structure Accounted (env : PassEnv) (old : List AuditRow) (awaited : CallSite → Prop)
    (state : DispatchState) : Prop where
  sites : (state.made.map (·.site)).Nodup
  rows : ∃ new, state.audit = old ++ new ∧
    List.Forall₂ (fun row call => row.auditId = env.generateAuditId call.site ∧
      (row.status = .started → awaited call.site)) new state.made

section Steps

variable {env : PassEnv} {old : List AuditRow} {awaited awaited' : CallSite → Prop}
  {state : DispatchState}

theorem Accounted.refl (env : PassEnv) (old : List AuditRow) (awaited : CallSite → Prop) :
    Accounted env old awaited ⟨old, []⟩ :=
  ⟨List.nodup_nil, [], (List.append_nil old).symm, .nil⟩

theorem Accounted.mono (h : Accounted env old awaited state)
    (hAwaited : ∀ site, awaited site → awaited' site) : Accounted env old awaited' state := by
  obtain ⟨new, hAudit, hRows⟩ := h.rows
  refine ⟨h.sites, new, hAudit, hRows.imp ?_⟩
  exact fun _ call hRow => ⟨hRow.1, fun hStarted => hAwaited call.site (hRow.2 hStarted)⟩

/-- A row of the table is an old one or that of a call that was made. -/
theorem Accounted.id_of_mem (h : Accounted env old awaited state) {row : AuditRow}
    (hRow : row ∈ state.audit) :
    row ∈ old ∨ ∃ call ∈ state.made, env.generateAuditId call.site = row.auditId := by
  obtain ⟨new, hAudit, hRows⟩ := h.rows
  have hIds : List.Forall₂ (· = ·) (new.map (·.auditId))
      (state.made.map fun call => env.generateAuditId call.site) := by
    rw [List.forall₂_map_left_iff, List.forall₂_map_right_iff]
    exact hRows.imp fun _ _ hPair => hPair.1
  rw [List.forall₂_eq_eq_eq] at hIds
  rw [hAudit] at hRow
  refine (List.mem_append.mp hRow).imp_right fun hNew => ?_
  rw [← List.mem_map, ← hIds]
  exact List.mem_map_of_mem hNew

/-- With fresh ids a pass that has a target makes its call. -/
theorem accounted_startPass (hFresh : FreshIds env old) (h : Accounted env old awaited state)
    {site : CallSite} (hSite : site ∉ state.made.map (·.site)) (llmArgs : LlmCallArgs)
    {audit : PassAuditCtx}
    (hTarget : ¬ (audit.targetSummaryId = none ∧ audit.targetCacheId = none)) :
    ∃ started, startPass env site llmArgs audit state = .ok started ∧
      started.made = state.made ++ [⟨site, llmArgs⟩] ∧
      Accounted env old (fun s => awaited s ∨ s = site) started := by
  have hNew : ¬ (state.audit.any fun row => row.auditId = env.generateAuditId site) = true := by
    rw [List.any_eq_true]
    rintro ⟨row, hRow, hEq⟩
    rcases h.id_of_mem hRow with hOld | ⟨other, hOther, hId⟩
    · exact hFresh.fresh row hOld site (of_decide_eq_true hEq)
    · have hSame := hFresh.injective (hId.trans (of_decide_eq_true hEq))
      exact hSite (hSame ▸ List.mem_map_of_mem hOther)
  have hSites : ((state.made ++ [ModelCall.mk site llmArgs]).map (·.site)).Nodup := by
    rw [List.map_append, List.map_singleton, List.nodup_append]
    refine ⟨h.sites, List.pairwise_singleton _ site, ?_⟩
    intro other hOther new hNew hEq
    rw [hEq, List.mem_singleton.mp hNew] at hOther
    exact hSite hOther
  have hWider : Accounted env old (fun s => awaited s ∨ s = site) state := h.mono fun _ => Or.inl
  obtain ⟨new, hAudit, hRows⟩ := hWider.rows
  have hInsert : insertAuditStarted state.audit (env.generateAuditId site)
      (insertContext llmArgs audit) = .ok (state.audit ++
        [startedRow (env.generateAuditId site) (insertContext llmArgs audit)]) := by
    exact (if_neg hTarget).trans (if_neg hNew)
  unfold startPass
  rw [hInsert]
  refine ⟨_, rfl, rfl, hSites,
    new ++ [startedRow (env.generateAuditId site) (insertContext llmArgs audit)], ?_,
    List.rel_append hRows (.cons ⟨rfl, fun _ => Or.inr rfl⟩ .nil)⟩
  dsimp only
  rw [hAudit, List.append_assoc]

/-- An update of the row of one call, to a final state. -/
theorem Accounted.updateAudit (hFresh : FreshIds env old) (h : Accounted env old awaited state)
    (site : CallSite) {set : AuditRow → AuditRow} (hId : ∀ row, (set row).auditId = row.auditId)
    (hFinal : ∀ row, (set row).status ≠ .started) :
    Accounted env old (fun s => awaited s ∧ s ≠ site)
      ⟨Dispatch.updateAudit state.audit (env.generateAuditId site) set, state.made⟩ := by
  obtain ⟨new, hAudit, hRows⟩ := h.rows
  have hOld : Dispatch.updateAudit old (env.generateAuditId site) set = old := by
    have hSame : ∀ row ∈ old, (if row.auditId = env.generateAuditId site then set row else row) =
        id row := fun row hRow => if_neg (hFresh.fresh row hRow site)
    rw [Dispatch.updateAudit, List.map_congr_left hSame, List.map_id]
  refine ⟨h.sites, Dispatch.updateAudit new (env.generateAuditId site) set, ?_, ?_⟩
  · dsimp only
    rw [hAudit]
    exact (List.map_append).trans (congrArg (· ++ _) hOld)
  · refine List.forall₂_map_left_iff.mpr (hRows.imp fun row other hRow => ?_)
    by_cases hEq : row.auditId = env.generateAuditId site
    · rw [if_pos hEq]
      exact ⟨(hId row).trans hRow.1, fun hStarted => absurd hStarted (hFinal row)⟩
    · rw [if_neg hEq]
      refine ⟨hRow.1, fun hStarted => ⟨hRow.2 hStarted, ?_⟩⟩
      rintro rfl
      exact hEq hRow.1

/-- The answer of the model leaves the row of its call in a final state. -/
theorem accounted_finishPass (hFresh : FreshIds env old) (h : Accounted env old awaited state)
    (site : CallSite) (llmArgs : LlmCallArgs) :
    Accounted env old (fun s => awaited s ∧ s ≠ site) (finishPass env site llmArgs state).2 := by
  unfold finishPass
  apply h.updateAudit hFresh site
  · intro row
    cases env.llmCall site llmArgs <;> rfl
  · intro row
    cases env.llmCall site llmArgs <;> nofun

end Steps

end LosslessHermes.Dispatch
