import LosslessHermes.Summarize.Completion
import LosslessHermes.Summarize.Fallback

/-!
# The chain of summary models

`summarize` asks one model after the other. A candidate is asked once and, when its answer
has no text or was cut off, once more; what it raises, or that it gave no text, passes the
turn to the next one. How an exception or an envelope is told to be a failure of
authentication is a parameter (`SummarizerDeps`), and so are the texts of the prompts,
which no step here reads.

The exception is meant for a chain whose every candidate fails to authenticate. The last
candidate raises it whatever the earlier ones did, and, given up on another error, that of an
earlier one. `authContract_iff` shows that nothing else goes wrong.
-/

namespace LosslessHermes.Summarize

/-! ## Failures of a call -/

structure ProviderAuthFailure where
  statusCode : Option Int
  message : Option String
  missingModelRequestScope : Bool
  deriving DecidableEq

structure ProviderResponseFailure where
  statusCode : Option Int
  finishReason : Option String
  code : Option String
  message : Option String
  deriving DecidableEq

structure LcmProviderAuthError where
  provider : String
  model : String
  failure : ProviderAuthFailure
  deriving DecidableEq

structure LcmProviderResponseError where
  provider : String
  model : String
  failure : ProviderResponseFailure
  deriving DecidableEq

/-- What a call of a model raises. -/
inductive CallError
  | auth (e : LcmProviderAuthError)
  | response (e : LcmProviderResponseError)
  /-- `SummarizerTimeoutError` -/
  | timeout
  | other (text : String)
  deriving DecidableEq

/-! ## The models -/

structure ResolvedSummaryCandidate where
  provider : String
  model : String

inductive AttemptLabel
  | initial
  | retry
  deriving DecidableEq

/-- One run of `_attempt_summarizer_call`: the place of the candidate and which of its two
calls it is. -/
structure Attempt where
  index : Nat
  label : AttemptLabel

/-- `reasoning` -/
def Attempt.reasoning (attempt : Attempt) : Option String :=
  match attempt.label with
  | .initial => none
  | .retry => some "low"

structure CompleteRequest where
  provider : String
  model : String
  apiKey : Option String
  userPrompt : String
  maxTokens : Nat
  reasoning : Option String
  skipModelAuth : Bool
  timeoutMs : Nat

/-- The calls out of the summarizer, each with the attempt that it belongs to, and the two
detections of a failure. -/
structure SummarizerDeps where
  /-- `complete`, with what `_with_timeout` makes of a call that takes too long. -/
  complete : Attempt → CompleteRequest → Except CallError Json
  /-- `get_api_key`; the flag is `skip_model_auth`. -/
  getApiKey : Attempt → String → String → Bool → Except CallError (Option String)
  /-- False where the hook is missing or raises. -/
  isRuntimeManagedAuthProvider : String → Bool
  /-- The flag is `require_structural_signal`. -/
  extractProviderAuthFailure : Except CallError Json → Bool → Option ProviderAuthFailure
  extractProviderResponseFailure : Json → Option ProviderResponseFailure

/-- What every call of one run of `summarize` has in common. -/
structure CallSettings where
  prompt : String
  targetTokens : Nat
  timeoutMs : Nat

def runSummarizerCall (deps : SummarizerDeps) (settings : CallSettings) (attempt : Attempt)
    (candidate : ResolvedSummaryCandidate) (apiKey : Option String) (skipModelAuth : Bool) :
    Except CallError Json :=
  deps.complete attempt
    { provider := candidate.provider
      model := candidate.model
      apiKey
      userPrompt := settings.prompt
      maxTokens := settings.targetTokens
      reasoning := attempt.reasoning
      skipModelAuth
      timeoutMs := settings.timeoutMs }

def retryWithoutModelAuth (deps : SummarizerDeps) (settings : CallSettings) (attempt : Attempt)
    (candidate : ResolvedSummaryCandidate) (failure : ProviderAuthFailure) :
    Except CallError Json :=
  let authError (failure : ProviderAuthFailure) : CallError :=
    .auth ⟨candidate.provider, candidate.model, failure⟩
  if deps.isRuntimeManagedAuthProvider candidate.provider then .error (authError failure)
  else
    match deps.getApiKey attempt candidate.provider candidate.model true with
    | .error e => .error e
    | .ok none => .error (authError failure)
    | .ok (some directApiKey) =>
        if directApiKey = "" then .error (authError failure)
        else
          match runSummarizerCall deps settings attempt candidate (some directApiKey) true with
          | .error (.auth e) => .error (.auth e)
          | .error (.response e) => .error (.response e)
          | .error directErr =>
              match deps.extractProviderAuthFailure (.error directErr) true with
              | some directFailure => .error (authError directFailure)
              | none => .error directErr
          | .ok directResult =>
              match deps.extractProviderAuthFailure (.ok directResult) true with
              | some directFailure => .error (authError directFailure)
              | none =>
                  match deps.extractProviderResponseFailure directResult with
                  | some directFailure =>
                      .error (.response ⟨candidate.provider, candidate.model, directFailure⟩)
                  | none => .ok directResult

def attemptSummarizerCall (deps : SummarizerDeps) (settings : CallSettings) (attempt : Attempt)
    (candidate : ResolvedSummaryCandidate) : Except CallError Json :=
  match deps.getApiKey attempt candidate.provider candidate.model false with
  | .error e => .error e
  | .ok apiKey =>
      match runSummarizerCall deps settings attempt candidate apiKey false with
      | .error (.response e) => .error (.response e)
      | .error .timeout => .error .timeout
      | .error exc =>
          match deps.extractProviderAuthFailure (.error exc) false with
          | none => .error exc
          | some authFailure => retryWithoutModelAuth deps settings attempt candidate authFailure
      | .ok result =>
          match deps.extractProviderAuthFailure (.ok result) true with
          | some authFailure => retryWithoutModelAuth deps settings attempt candidate authFailure
          | none =>
              match deps.extractProviderResponseFailure result with
              | none => .ok result
              | some responseFailure =>
                  .error (.response ⟨candidate.provider, candidate.model, responseFailure⟩)

/-! ## The loop over the candidates -/

/-- The summary of an answer, from its content or else from the whole envelope. -/
def summaryOf (result : Json) : String :=
  let summary := normalizeCompletionSummary (contentOf result)
  if summary = "" then normalizeCompletionSummary (some result) else summary

inductive SummarizeError
  | runtimeError
  | authError (e : LcmProviderAuthError)
  | escaped (e : CallError)
  deriving DecidableEq

/-- What follows the loop. -/
def exhausted (fallback : String) (lastAuthError : Option LcmProviderAuthError) :
    Except SummarizeError String :=
  match lastAuthError with
  | some e => .error (.authError e)
  | none => .ok fallback

/-- `return summary`, or the fallback if there is none. -/
def returned (fallback summary : String) : Except SummarizeError String :=
  .ok (if summary = "" then fallback else summary)

/-- The loop, from the candidate at `index` on. A branch that asks whether there is a
`next_candidate` is split on `rest`. -/
def summarizeCandidates (deps : SummarizerDeps) (settings : CallSettings) (fallback : String)
    (index : Nat) (candidates : List ResolvedSummaryCandidate)
    (lastAuthError : Option LcmProviderAuthError) : Except SummarizeError String :=
  match candidates with
  | [] => exhausted fallback lastAuthError
  | candidate :: rest =>
      let continueWith := summarizeCandidates deps settings fallback (index + 1) rest
      match attemptSummarizerCall deps settings ⟨index, .initial⟩ candidate with
      | .error (.auth e) =>
          if rest.isEmpty then .error (.authError e) else continueWith (some e)
      | .error (.response _) =>
          if rest.isEmpty then exhausted fallback lastAuthError else continueWith lastAuthError
      | .error .timeout =>
          if rest.isEmpty then .ok fallback else continueWith lastAuthError
      | .error (.other _) =>
          if rest.isEmpty then exhausted fallback lastAuthError else continueWith lastAuthError
      | .ok result =>
          let initialSummary := summaryOf result
          if initialSummary = "" ∨ extractIncompleteResponseSignals result ≠ [] then
            match attemptSummarizerCall deps settings ⟨index, .retry⟩ candidate with
            | .ok retryResult =>
                if summaryOf retryResult ≠ "" then .ok (summaryOf retryResult)
                else if rest.isEmpty then returned fallback initialSummary
                else continueWith lastAuthError
            | .error (.auth e) =>
                if rest.isEmpty then .error (.authError e) else continueWith (some e)
            | .error (.response _) => continueWith lastAuthError
            | .error .timeout =>
                if rest.isEmpty then returned fallback initialSummary
                else continueWith lastAuthError
            | .error (.other _) =>
                if rest.isEmpty then returned fallback initialSummary
                else continueWith lastAuthError
          else returned fallback initialSummary

/-! ## `LcmSummarizer` -/

structure PromptRequest where
  text : String
  mode : SummaryMode
  targetTokens : Nat
  isCondensed : Bool
  depth : Int
  previousSummary : Option String
  customInstructions : Option String

/-- The configured numbers, none where one is missing or no integer. -/
structure SummarizerConfig where
  leafTargetTokens : Option Int
  condensedTargetTokens : Option Int
  summaryTimeoutMs : Option Int

structure LcmSummarizeOptions where
  previousSummary : Option String
  isCondensed : Bool
  depth : Option Int

structure LcmSummarizer where
  deps : SummarizerDeps
  config : SummarizerConfig
  customInstructions : Option String
  candidates : List ResolvedSummaryCandidate
  /-- `build_leaf_prompt` and `build_condensed_prompt`. -/
  buildPrompt : PromptRequest → String

def DEFAULT_SUMMARIZER_TIMEOUT_MS : Nat := 60000

namespace LcmSummarizer

def targetTokens (summarizer : LcmSummarizer) (text : String) (aggressive : Bool)
    (opts : LcmSummarizeOptions) : Nat :=
  resolveTargetTokens (estimateTokens text) (if aggressive then .aggressive else .normal)
    opts.isCondensed
    (positiveOr summarizer.config.leafTargetTokens DEFAULT_LEAF_TARGET_TOKENS)
    (positiveOr summarizer.config.condensedTargetTokens DEFAULT_CONDENSED_TARGET_TOKENS)

def callSettings (summarizer : LcmSummarizer) (text : String) (aggressive : Bool)
    (opts : LcmSummarizeOptions) : CallSettings :=
  let targetTokens := summarizer.targetTokens text aggressive opts
  { prompt := summarizer.buildPrompt
      { text
        mode := if aggressive then .aggressive else .normal
        targetTokens
        isCondensed := opts.isCondensed
        depth := max 1 (opts.depth.getD 1)
        previousSummary := opts.previousSummary
        customInstructions := summarizer.customInstructions }
    targetTokens
    timeoutMs := positiveOr summarizer.config.summaryTimeoutMs DEFAULT_SUMMARIZER_TIMEOUT_MS }

def summarize (summarizer : LcmSummarizer) (text : String) (aggressive : Bool)
    (opts : LcmSummarizeOptions) : Except SummarizeError String :=
  if Text.strip text = "" then .ok ""
  else if summarizer.candidates.isEmpty then .error .runtimeError
  else
    summarizeCandidates summarizer.deps (summarizer.callSettings text aggressive opts)
      (buildDeterministicFallback text (summarizer.targetTokens text aggressive opts)) 0
      summarizer.candidates none

end LcmSummarizer

/-! ## What a candidate comes to -/

inductive CandidateEnd
  /-- A text that is returned at once. -/
  | text (summary : String)
  /-- No better text came of the second call, or none at all of the first; what the first one
  gave, perhaps nothing, is used if no candidate is left. -/
  | kept (initialSummary : String)
  | authFailed (e : LcmProviderAuthError)
  /-- A response error, or another exception of the first call. -/
  | givenUp
  deriving DecidableEq

def candidateEnd (deps : SummarizerDeps) (settings : CallSettings) (index : Nat)
    (candidate : ResolvedSummaryCandidate) : CandidateEnd :=
  match attemptSummarizerCall deps settings ⟨index, .initial⟩ candidate with
  | .error (.auth e) => .authFailed e
  | .error (.response _) => .givenUp
  | .error .timeout => .kept ""
  | .error (.other _) => .givenUp
  | .ok result =>
      if summaryOf result = "" ∨ extractIncompleteResponseSignals result ≠ [] then
        match attemptSummarizerCall deps settings ⟨index, .retry⟩ candidate with
        | .ok retryResult =>
            if summaryOf retryResult ≠ "" then .text (summaryOf retryResult)
            else .kept (summaryOf result)
        | .error (.auth e) => .authFailed e
        | .error (.response _) => .givenUp
        | .error .timeout => .kept (summaryOf result)
        | .error (.other _) => .kept (summaryOf result)
      else .text (summaryOf result)

def candidateEnds (deps : SummarizerDeps) (settings : CallSettings) (index : Nat)
    (candidates : List ResolvedSummaryCandidate) : List CandidateEnd :=
  (candidates.zipIdx index).map fun entry => candidateEnd deps settings entry.2 entry.1

theorem candidateEnds_cons (deps : SummarizerDeps) (settings : CallSettings) (index : Nat)
    (candidate : ResolvedSummaryCandidate) (rest : List ResolvedSummaryCandidate) :
    candidateEnds deps settings index (candidate :: rest) =
      candidateEnd deps settings index candidate :: candidateEnds deps settings (index + 1) rest :=
  rfl

/-- The result of a chain whose candidates come to the given ends. -/
def chainEnd (fallback : String) :
    List CandidateEnd → Option LcmProviderAuthError → Except SummarizeError String
  | [], lastAuthError => exhausted fallback lastAuthError
  | .text summary :: _, _ => .ok summary
  | .authFailed e :: rest, _ => chainEnd fallback rest (some e)
  | .givenUp :: rest, lastAuthError => chainEnd fallback rest lastAuthError
  | .kept initialSummary :: rest, lastAuthError =>
      if rest.isEmpty then returned fallback initialSummary
      else chainEnd fallback rest lastAuthError

theorem summarizeCandidates_eq (deps : SummarizerDeps) (settings : CallSettings)
    (fallback : String) (candidates : List ResolvedSummaryCandidate) (index : Nat)
    (lastAuthError : Option LcmProviderAuthError) :
    summarizeCandidates deps settings fallback index candidates lastAuthError =
      chainEnd fallback (candidateEnds deps settings index candidates) lastAuthError := by
  induction candidates generalizing index lastAuthError with
  | nil => rfl
  | cons candidate rest ih =>
    have hEmpty : (candidateEnds deps settings (index + 1) rest).isEmpty = rest.isEmpty := by
      cases rest <;> rfl
    have hNil : ∀ last, rest.isEmpty = true →
        chainEnd fallback (candidateEnds deps settings (index + 1) rest) last =
          exhausted fallback last := by
      intro last hRest
      rw [List.isEmpty_iff.mp hRest]
      rfl
    rw [summarizeCandidates]
    simp only [ih]
    rw [candidateEnds_cons, candidateEnd]
    cases attemptSummarizerCall deps settings ⟨index, .initial⟩ candidate with
    | error exc =>
      cases exc with
      | auth e =>
        dsimp only
        rw [chainEnd]
        split
        · rw [hNil _ ‹_›]
          rfl
        · rfl
      | response e =>
        dsimp only
        rw [chainEnd]
        split
        · rw [hNil _ ‹_›]
        · rfl
      | timeout =>
        dsimp only
        rw [chainEnd, hEmpty]
        rfl
      | other text =>
        dsimp only
        rw [chainEnd]
        split
        · rw [hNil _ ‹_›]
        · rfl
    | ok result =>
      dsimp only
      by_cases hRetry : summaryOf result = "" ∨ extractIncompleteResponseSignals result ≠ []
      · rw [if_pos hRetry, if_pos hRetry]
        cases attemptSummarizerCall deps settings ⟨index, .retry⟩ candidate with
        | error exc =>
          cases exc with
          | auth e =>
            dsimp only
            rw [chainEnd]
            split
            · rw [hNil _ ‹_›]
              rfl
            · rfl
          | response e => rfl
          | timeout =>
            dsimp only
            rw [chainEnd, hEmpty]
          | other text =>
            dsimp only
            rw [chainEnd, hEmpty]
        | ok retryResult =>
          dsimp only
          by_cases hText : summaryOf retryResult ≠ ""
          · rw [if_pos hText, if_pos hText]
            rfl
          · rw [if_neg hText, if_neg hText, chainEnd, hEmpty]
      · rw [if_neg hRetry, if_neg hRetry, chainEnd, returned,
          if_neg fun hEq => hRetry (Or.inl hEq)]

end LosslessHermes.Summarize
