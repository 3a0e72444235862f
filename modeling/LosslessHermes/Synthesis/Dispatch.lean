import Mathlib.Data.List.FinRange
import LosslessHermes.Library.Regex
import LosslessHermes.Library.Text
import LosslessHermes.Synthesis.Audit

/-!
# The dispatch of a synthesis

`synthesize` by tier: one pass, one pass and a check of its fidelity, or for the yearly tier
several candidates at once and a judge that names one of those that came back. The order in
which the candidates start and are answered is a `Schedule`; the prompts that are active, how
they are rendered (which may raise) and the answers of the model are parameters.
-/

namespace LosslessHermes.Dispatch

/-! ## Requests and results -/

inductive TierLabel
  | daily
  | weekly
  | monthly
  | yearly
  | custom
  | filtered
  deriving DecidableEq, Repr

def TierLabel.text : TierLabel → String
  | .daily => "daily"
  | .weekly => "weekly"
  | .monthly => "monthly"
  | .yearly => "yearly"
  | .custom => "custom"
  | .filtered => "filtered"

inductive MemoryType
  | episodicLeaf
  | episodicCondensed
  | episodicYearly
  | proceduralExtract
  | entityExtract
  | themeConsolidation
  deriving DecidableEq, Repr

def MemoryType.text : MemoryType → String
  | .episodicLeaf => "episodic-leaf"
  | .episodicCondensed => "episodic-condensed"
  | .episodicYearly => "episodic-yearly"
  | .proceduralExtract => "procedural-extract"
  | .entityExtract => "entity-extract"
  | .themeConsolidation => "theme-consolidation"

def PASS_STRATEGY_BY_TIER : TierLabel → List PassKind
  | .monthly => [.single, .verifyFidelity]
  | .yearly => [.bestOfNJudge]
  | _ => [.single]

def HARD_CAP_BEST_OF_N : Int := 5

structure SynthesizeRequest where
  tier : TierLabel
  memoryType : MemoryType
  sourceText : String
  passSessionId : String
  targetSummaryId : Option String
  targetCacheId : Option String
  modelOverride : Option String
  forceModel : Bool
  bestOfN : Option Int

structure BestOfNDetail where
  n : Nat
  selectedIndex : Nat
  candidates : List String
  requested : Option Int
  capped : Bool

structure SynthesizeResult where
  output : String
  primaryPromptId : String
  auditIds : List String
  totalLatencyMs : ℚ
  totalCostCents : Int
  hallucinationFlagged : Option Bool
  bestOfN : Option BestOfNDetail

structure PromptRecord where
  promptId : String
  template : String
  modelRecommendation : Option String

/-! ## The environment -/

/-- The steps of `n` coroutines that are gathered: each takes one up to its model call and
one from the answer on. -/
structure Schedule (n : Nat) where
  steps : List (Fin n)
  twice : ∀ i, steps.count i = 2

structure DispatchEnv extends PassEnv where
  getActivePrompt : MemoryType → TierLabel → PassKind → Option PromptRecord
  renderPrompt : String → SynthesizeRequest → Except String String
  /-- The source text and the candidate summary. -/
  renderVerifyPrompt : String → String → String → Except String String
  /-- The source text and the candidates. -/
  renderJudgePrompt : String → String → List String → Except String String
  /-- `_LCM_DEFAULT_MODEL` -/
  defaultModel : String
  /-- `\w` -/
  isWordChar : Char → Bool
  schedule : (n : Nat) → Schedule n

/-- `a or b` on a string that may be missing. -/
def orElseText (a : Option String) (b : String) : String :=
  match a with
  | some text => if text = "" then b else text
  | none => b

def pickModel (env : DispatchEnv) (req : SynthesizeRequest) (primaryPrompt : PromptRecord) :
    String :=
  if req.forceModel then orElseText req.modelOverride env.defaultModel
  else orElseText primaryPrompt.modelRecommendation (orElseText req.modelOverride env.defaultModel)

/-! ## Reading the answers -/

def spaces : Regex := .star (.char Text.isSpace)

/-- `(?:^|\n)\s*`, where `^` is the start of the text. -/
def lineStart : Regex :=
  .seq (.alt (.behind Option.isNone) (.char (· = '\n'))) spaces

/-- `\b` after a character of a word. -/
def wordEnd (env : DispatchEnv) : Regex :=
  .ahead fun next => !next.any env.isWordChar

def verifyOkRe (env : DispatchEnv) : Regex :=
  .seq lineStart (.seq (foldedLiteral "ok") (wordEnd env))

def verifyNegativeRe : Regex :=
  .seq lineStart (.seq (.alt (foldedLiteral "unsupported") (foldedLiteral "hallucination"))
    (.seq spaces (.char (· = ':'))))

def parseVerifyOutput (env : DispatchEnv) (output : String) : Bool :=
  let hasNegative := !(Regex.hits verifyNegativeRe output).isEmpty
  let hasOk := !(Regex.hits (verifyOkRe env) output).isEmpty
  hasNegative || !hasOk

/-- `(?:^|\b)Winner\s*[:\s]\s*(\d+)`, ignoring the case, with `^` at each line. -/
def judgeWinnerRe (env : DispatchEnv) : Regex :=
  .seq (.behind fun prev => prev = none || prev = some '\n' || !prev.any env.isWordChar)
    (.seq (foldedLiteral "winner")
      (.seq spaces (.seq (.char fun c => c = ':' || Text.isSpace c)
        (.seq spaces (Regex.atLeast (.char Text.isDigit) 1)))))

def judgeDigitsRe : Regex := Regex.atLeast (.char Text.isDigit) 1

/-- The digits at the end of a match of `judgeWinnerRe`, its group. -/
def winnerGroup (hit : List Char) : List Char :=
  (hit.reverse.takeWhile Text.isDigit).reverse

def readIndex (digits : List Char) : Except SynthesisError Nat :=
  match Text.intOfDigits digits with
  | some idx => .ok idx
  | none => .error (.raised "Exceeds the limit (4300 digits) for integer string conversion")

/-- The first index of a list of digit runs that is in range. -/
def firstInRange (n : Nat) : List (List Char) → Except SynthesisError (Option Nat)
  | [] => .ok none
  | digits :: rest =>
      match readIndex digits with
      | .error e => .error e
      | .ok idx => if idx < n then .ok (some idx) else firstInRange n rest

/-- What is tried when no `Winner` in range was found. -/
def parseLastDigits (output : String) (n : Nat) : Except SynthesisError Nat :=
  match Regex.hits judgeDigitsRe output with
  | [] =>
      .error (.dispatch .judgeFailure
        ("[synthesis.dispatch] judge output didn't contain a digit: " ++ takeText output 200))
  | first :: rest =>
      match firstInRange n (first :: rest).reverse with
      | .error e => .error e
      | .ok (some idx) => .ok idx
      | .ok none =>
          match readIndex first with
          | .error e => .error e
          | .ok firstIdx =>
              .error (.dispatch .judgeFailure
                ("[synthesis.dispatch] judge picked out-of-range index " ++ toString firstIdx ++
                  " (N=" ++ toString n ++ "); full output: " ++ takeText output 200))

def parseJudgeOutput (env : DispatchEnv) (output : String) (n : Nat) :
    Except SynthesisError Nat :=
  match (Regex.hits (judgeWinnerRe env) output).head? with
  | some hit =>
      match readIndex (winnerGroup hit) with
      | .error e => .error e
      | .ok idx => if idx < n then .ok idx else parseLastDigits output n
  | none => parseLastDigits output n

theorem firstInRange_lt {n idx : Nat} {runs : List (List Char)}
    (h : firstInRange n runs = .ok (some idx)) : idx < n := by
  induction runs with
  | nil => cases h
  | cons digits rest ih =>
    rw [firstInRange] at h
    cases hRead : readIndex digits with
    | error e =>
      rw [hRead] at h
      cases h
    | ok found =>
      rw [hRead] at h
      dsimp only at h
      split at h
      · cases h
        assumption
      · exact ih h

theorem parseLastDigits_lt {output : String} {n idx : Nat}
    (h : parseLastDigits output n = .ok idx) : idx < n := by
  unfold parseLastDigits at h
  split at h
  · cases h
  · split at h
    · cases h
    · cases h
      exact firstInRange_lt ‹_›
    · split at h
      · cases h
      · cases h

theorem parseJudgeOutput_lt {env : DispatchEnv} {output : String} {n idx : Nat}
    (h : parseJudgeOutput env output n = .ok idx) : idx < n := by
  unfold parseJudgeOutput at h
  split at h
  · split at h
    · cases h
    · split at h
      · cases h
        assumption
      · exact parseLastDigits_lt h
  · exact parseLastDigits_lt h

/-! ## The candidates -/

inductive CandidatePhase
  | unstarted
  | awaited
  | settled (result : Except SynthesisError PassResult)

def CandidatePhase.settled? : CandidatePhase → Option (Except SynthesisError PassResult)
  | .settled result => some result
  | _ => none

structure GatherState (n : Nat) where
  dispatch : DispatchState
  phase : Fin n → CandidatePhase

/-- The next step of one candidate. -/
def candidateStep (env : PassEnv) (llmArgs : LlmCallArgs) (audit : PassAuditCtx) {n : Nat}
    (s : GatherState n) (i : Fin n) : GatherState n :=
  match s.phase i with
  | .unstarted =>
      match startPass env (.candidate i) llmArgs audit s.dispatch with
      | .error e => ⟨s.dispatch, Function.update s.phase i (.settled (.error e))⟩
      | .ok started => ⟨started, Function.update s.phase i .awaited⟩
  | .awaited =>
      let finished := finishPass env (.candidate i) llmArgs s.dispatch
      ⟨finished.2, Function.update s.phase i (.settled finished.1)⟩
  | .settled _ => s

/-- `asyncio.gather` with `return_exceptions=True`: the results in the order of the
candidates. -/
def gather (env : DispatchEnv) (llmArgs : LlmCallArgs) (audit : PassAuditCtx) (n : Nat)
    (state : DispatchState) : List (Except SynthesisError PassResult) × DispatchState :=
  let final := (env.schedule n).steps.foldl (candidateStep env.toPassEnv llmArgs audit)
    ⟨state, fun _ => .unstarted⟩
  ((List.finRange n).filterMap fun i => (final.phase i).settled?, final.dispatch)

def passSuccess? : Except SynthesisError PassResult → Option PassResult
  | .ok pass => some pass
  | .error _ => none

def passFailure? : Except SynthesisError PassResult → Option String
  | .ok _ => none
  | .error e => some e.text

/-! ## The tiers -/

def auditCtx (req : SynthesizeRequest) (promptId passInputForAudit : String) : PassAuditCtx where
  passSessionId := req.passSessionId
  promptId
  targetSummaryId := req.targetSummaryId
  targetCacheId := req.targetCacheId
  passInputForAudit

def costOf (pass : PassResult) : Int :=
  pass.costCents.getD 0

/-- The judgement of at least two candidates that came back. -/
def judgeCandidates (env : DispatchEnv) (req : SynthesizeRequest) (primaryPrompt : PromptRecord)
    (model : String) (candidateResults : List PassResult) (state : DispatchState) :
    Except SynthesisError SynthesizeResult × DispatchState :=
  match env.getActivePrompt req.memoryType req.tier .bestOfNJudge with
  | none =>
      (.error (.dispatch .missingPrompt
        ("[synthesis.dispatch] yearly tier requires best_of_n_judge prompt for memory_type=" ++
          req.memoryType.text ++ ", tier=" ++ req.tier.text)), state)
  | some judgePrompt =>
      match env.renderJudgePrompt judgePrompt.template req.sourceText
          (candidateResults.map (·.output)) with
      | .error exc => (.error (.raised exc), state)
      | .ok renderedJudge =>
          let judged := runPassWithAudit env.toPassEnv .judge
            ⟨model, renderedJudge, .bestOfNJudge, some 50⟩
            (auditCtx req judgePrompt.promptId
              ("\n---\n".intercalate (candidateResults.map (·.output)))) state
          match judged.1 with
          | .error e => (.error e, judged.2)
          | .ok judgeResult =>
              match parseJudgeOutput env judgeResult.output candidateResults.length with
              | .error e => (.error e, judged.2)
              | .ok selectedIndex =>
                  match candidateResults[selectedIndex]? with
                  | none => (.error (.raised "list index out of range"), judged.2)
                  | some selected =>
                      (.ok
                        { output := selected.output
                          primaryPromptId := primaryPrompt.promptId
                          auditIds := candidateResults.map (·.auditId) ++ [judgeResult.auditId]
                          totalLatencyMs := (candidateResults.map (·.latencyMs)).sum +
                            judgeResult.latencyMs
                          totalCostCents := (candidateResults.map costOf).sum + costOf judgeResult
                          hallucinationFlagged := none
                          bestOfN := some
                            { n := candidateResults.length
                              selectedIndex
                              candidates := candidateResults.map (·.output)
                              requested := none
                              capped := false } }, judged.2)

def runBestOfNYearly (env : DispatchEnv) (req : SynthesizeRequest) (primaryPrompt : PromptRecord)
    (model : String) (bestOfN : Nat) (state : DispatchState) :
    Except SynthesisError SynthesizeResult × DispatchState :=
  match env.renderPrompt primaryPrompt.template req with
  | .error exc => (.error (.raised exc), state)
  | .ok renderedSingle =>
      let gathered := gather env ⟨model, renderedSingle, .single, none⟩
        (auditCtx req primaryPrompt.promptId req.sourceText) bestOfN state
      match gathered.1.filterMap passSuccess? with
      | [] =>
          (.error (.dispatch .llmFailure ("[synthesis.dispatch] all " ++ toString bestOfN ++
            " best-of-N candidates failed: " ++
            takeText (" | ".intercalate (gathered.1.filterMap passFailure?)) 600)), gathered.2)
      | [sole] =>
          (.ok
            { output := sole.output
              primaryPromptId := primaryPrompt.promptId
              auditIds := [sole.auditId]
              totalLatencyMs := sole.latencyMs
              totalCostCents := costOf sole
              hallucinationFlagged := none
              bestOfN := some ⟨1, 0, [sole.output], none, false⟩ }, gathered.2)
      | first :: second :: rest =>
          judgeCandidates env req primaryPrompt model (first :: second :: rest) gathered.2

/-- The optional check of a text by a second pass: what it adds to the audit ids, the
latency and the cost, and its verdict. -/
def verifyFidelity (env : DispatchEnv) (req : SynthesizeRequest) (model : String)
    (single : PassResult) (state : DispatchState) :
    Except SynthesisError (Option (PassResult × Bool)) × DispatchState :=
  if .verifyFidelity ∈ PASS_STRATEGY_BY_TIER req.tier then
    match env.getActivePrompt req.memoryType req.tier .verifyFidelity with
    | none => (.ok none, state)
    | some verifyPrompt =>
        match env.renderVerifyPrompt verifyPrompt.template req.sourceText single.output with
        | .error exc => (.error (.raised exc), state)
        | .ok renderedVerify =>
            let verified := runPassWithAudit env.toPassEnv .verify
              ⟨model, renderedVerify, .verifyFidelity, some 100⟩
              (auditCtx req verifyPrompt.promptId single.output) state
            match verified.1 with
            | .error e => (.error e, verified.2)
            | .ok verifyResult =>
                (.ok (some (verifyResult, parseVerifyOutput env verifyResult.output)), verified.2)
  else (.ok none, state)

/-- The tiers with one candidate. -/
def runSinglePass (env : DispatchEnv) (req : SynthesizeRequest) (primaryPrompt : PromptRecord)
    (model : String) (state : DispatchState) :
    Except SynthesisError SynthesizeResult × DispatchState :=
  match env.renderPrompt primaryPrompt.template req with
  | .error exc => (.error (.raised exc), state)
  | .ok singlePassPrompt =>
      let passed := runPassWithAudit env.toPassEnv .single
        ⟨model, singlePassPrompt, .single, none⟩
        (auditCtx req primaryPrompt.promptId req.sourceText) state
      match passed.1 with
      | .error e => (.error e, passed.2)
      | .ok single =>
          let verified := verifyFidelity env req model single passed.2
          match verified.1 with
          | .error e => (.error e, verified.2)
          | .ok verdict =>
              let passes := single :: (verdict.map (·.1)).toList
              (.ok
                { output := single.output
                  primaryPromptId := primaryPrompt.promptId
                  auditIds := passes.map (·.auditId)
                  totalLatencyMs := (passes.map (·.latencyMs)).sum
                  totalCostCents := (passes.map costOf).sum
                  hallucinationFlagged := verdict.map (·.2)
                  bestOfN := none }, verified.2)

/-- The count that the yearly tier runs, of the count that is asked for. -/
def cappedBestOfN (requested : Int) : Nat :=
  (max 1 (min HARD_CAP_BEST_OF_N requested)).toNat

def withRequested (requested : Int) (result : SynthesizeResult) : SynthesizeResult :=
  { result with
    bestOfN := result.bestOfN.map fun detail =>
      { detail with
        requested := some requested
        capped := decide (HARD_CAP_BEST_OF_N < requested) } }

def synthesize (env : DispatchEnv) (req : SynthesizeRequest) (audit : List AuditRow) :
    Except SynthesisError SynthesizeResult × DispatchState :=
  let state : DispatchState := ⟨audit, []⟩
  if req.targetSummaryId = none ∧ req.targetCacheId = none then
    (.error (.dispatch .missingTarget
      ("[synthesis.dispatch] either target_summary_id or target_cache_id is required " ++
        "(lcm_synthesis_audit CHECK constraint requires one of them set)")), state)
  else
    match env.getActivePrompt req.memoryType req.tier .single with
    | none =>
        (.error (.dispatch .missingPrompt
          ("[synthesis.dispatch] no active prompt for (memory_type=" ++ req.memoryType.text ++
            ", tier=" ++ req.tier.text ++ ", pass_kind=single)")), state)
    | some primaryPrompt =>
        let model := pickModel env req primaryPrompt
        if req.tier = .yearly then
          let requested := req.bestOfN.getD 3
          let result := runBestOfNYearly env req primaryPrompt model (cappedBestOfN requested) state
          (result.1.map (withRequested requested), result.2)
        else runSinglePass env req primaryPrompt model state

end LosslessHermes.Dispatch
