import LosslessHermes.Summarize.Chain

/-!
# When the chain raises the authentication error

`AuthContract` is what the class says of `summarize`: the authentication error exactly when
every candidate failed to authenticate, a usable text otherwise, and no other exception.
`MixedFailure` describes the chains that break it, by the ends of their candidates alone.
-/

namespace LosslessHermes.Summarize

/-! ## Chains without a text -/

def CandidateEnd.isText : CandidateEnd → Bool
  | .text _ => true
  | _ => false

def CandidateEnd.isAuth : CandidateEnd → Bool
  | .authFailed _ => true
  | _ => false

/-- `last_auth_error` after the candidates with the given ends. -/
def lastAuthError (ends : List CandidateEnd) (previous : Option LcmProviderAuthError) :
    Option LcmProviderAuthError :=
  ends.foldl
    (fun last x =>
      match x with
      | .authFailed e => some e
      | _ => last)
    previous

theorem chainEnd_append (fallback : String) {earlier rest : List CandidateEnd}
    (hRest : rest ≠ []) (hText : ∀ x ∈ earlier, x.isText = false)
    (previous : Option LcmProviderAuthError) :
    chainEnd fallback (earlier ++ rest) previous =
      chainEnd fallback rest (lastAuthError earlier previous) := by
  induction earlier generalizing previous with
  | nil => rfl
  | cons x earlier ih =>
    have hNext := ih fun y hy => hText y (List.mem_cons_of_mem _ hy)
    have hNe : (earlier ++ rest).isEmpty = false := by
      rw [List.isEmpty_eq_false_iff]
      exact List.append_ne_nil_of_right_ne_nil _ hRest
    cases x with
    | text summary => exact absurd (hText _ List.mem_cons_self) Bool.true_eq_false.mp
    | kept initialSummary =>
      rw [List.cons_append, chainEnd, hNe]
      exact hNext previous
    | authFailed e => exact hNext (some e)
    | givenUp => exact hNext previous

theorem lastAuthError_of_some (ends : List CandidateEnd) (e : LcmProviderAuthError) :
    ∃ e', lastAuthError ends (some e) = some e' := by
  induction ends generalizing e with
  | nil => exact ⟨e, rfl⟩
  | cons x ends ih =>
    cases x with
    | authFailed e' => exact ih e'
    | text summary => exact ih e
    | kept initialSummary => exact ih e
    | givenUp => exact ih e

theorem lastAuthError_of_auth {ends : List CandidateEnd} {x : CandidateEnd} (hMem : x ∈ ends)
    (hAuth : x.isAuth = true) (previous : Option LcmProviderAuthError) :
    ∃ e, lastAuthError ends previous = some e := by
  induction ends generalizing previous with
  | nil => cases hMem
  | cons y ends ih =>
    rcases List.mem_cons.mp hMem with rfl | hTail
    · cases x with
      | authFailed e => exact lastAuthError_of_some ends e
      | text summary => cases hAuth
      | kept initialSummary => cases hAuth
      | givenUp => cases hAuth
    · exact ih hTail _

theorem lastAuthError_of_no_auth {ends : List CandidateEnd}
    (hNone : ∀ x ∈ ends, x.isAuth = false) (previous : Option LcmProviderAuthError) :
    lastAuthError ends previous = previous := by
  induction ends generalizing previous with
  | nil => rfl
  | cons x ends ih =>
    have hTail := ih (fun y hy => hNone y (List.mem_cons_of_mem _ hy)) previous
    cases x with
    | authFailed e => exact absurd (hNone _ List.mem_cons_self) Bool.true_eq_false.mp
    | text summary => exact hTail
    | kept initialSummary => exact hTail
    | givenUp => exact hTail

/-! ## The texts of the models -/

/-- `summary` is the text of an answer to one of the calls of a candidate. -/
def Answered (deps : SummarizerDeps) (settings : CallSettings) (index : Nat)
    (candidate : ResolvedSummaryCandidate) (summary : String) : Prop :=
  ∃ label result, attemptSummarizerCall deps settings ⟨index, label⟩ candidate = .ok result ∧
    summaryOf result = summary

/-- `summary` is the text of an answer that some candidate gave. -/
def ModelText (deps : SummarizerDeps) (settings : CallSettings) (index : Nat)
    (candidates : List ResolvedSummaryCandidate) (summary : String) : Prop :=
  ∃ entry ∈ candidates.zipIdx index, Answered deps settings entry.2 entry.1 summary

theorem summaryOf_not_blank {result : Json} (h : summaryOf result ≠ "") :
    Text.isBlank (summaryOf result) = false := by
  rw [summaryOf] at h ⊢
  split at h
  · rw [if_pos ‹_›]
    exact normalizeCompletionSummary_not_blank h
  · rw [if_neg ‹_›]
    exact normalizeCompletionSummary_not_blank h

theorem ModelText.not_blank {deps : SummarizerDeps} {settings : CallSettings} {index : Nat}
    {candidates : List ResolvedSummaryCandidate} {summary : String} (hNe : summary ≠ "")
    (h : ModelText deps settings index candidates summary) : Text.isBlank summary = false := by
  obtain ⟨entry, -, label, result, -, hSummary⟩ := h
  subst hSummary
  exact summaryOf_not_blank hNe

/-- The texts of an end are answers; only the text that is kept may be missing. -/
def CandidateEnd.Backed (answered : String → Prop) : CandidateEnd → Prop
  | .text summary => summary ≠ "" ∧ answered summary
  | .kept initialSummary => initialSummary = "" ∨ answered initialSummary
  | .authFailed _ => True
  | .givenUp => True

theorem candidateEnd_backed (deps : SummarizerDeps) (settings : CallSettings) (index : Nat)
    (candidate : ResolvedSummaryCandidate) :
    (candidateEnd deps settings index candidate).Backed
      (Answered deps settings index candidate) := by
  rw [candidateEnd]
  cases hInitial : attemptSummarizerCall deps settings ⟨index, .initial⟩ candidate with
  | error exc =>
    cases exc with
    | auth e => trivial
    | response e => trivial
    | timeout => exact Or.inl rfl
    | other text => trivial
  | ok result =>
    have hFirst : Answered deps settings index candidate (summaryOf result) :=
      ⟨.initial, result, hInitial, rfl⟩
    dsimp only
    -- The texts are named, so that no goal is reduced to the test of a text.
    generalize summaryOf result = summary at hFirst ⊢
    generalize extractIncompleteResponseSignals result = signals
    by_cases hAgain : summary = "" ∨ signals ≠ []
    · rw [if_pos hAgain]
      cases hRetry : attemptSummarizerCall deps settings ⟨index, .retry⟩ candidate with
      | error exc =>
        cases exc with
        | auth e => trivial
        | response e => trivial
        | timeout => exact Or.inr hFirst
        | other text => exact Or.inr hFirst
      | ok retryResult =>
        have hSecond : Answered deps settings index candidate (summaryOf retryResult) :=
          ⟨.retry, retryResult, hRetry, rfl⟩
        dsimp only
        generalize summaryOf retryResult = retrySummary at hSecond ⊢
        by_cases hText : retrySummary ≠ ""
        · rw [if_pos hText]
          exact ⟨hText, hSecond⟩
        · rw [if_neg hText]
          exact Or.inr hFirst
    · rw [if_neg hAgain]
      exact ⟨fun hEmpty => hAgain (.inl hEmpty), hFirst⟩

theorem backed_of_mem {deps : SummarizerDeps} {settings : CallSettings} {index : Nat}
    {candidates : List ResolvedSummaryCandidate} {x : CandidateEnd}
    (h : x ∈ candidateEnds deps settings index candidates) :
    x.Backed (ModelText deps settings index candidates) := by
  obtain ⟨entry, hMem, rfl⟩ := List.mem_map.mp h
  have hBacked := candidateEnd_backed deps settings entry.2 entry.1
  cases hEnd : candidateEnd deps settings entry.2 entry.1 with
  | text summary =>
    rw [hEnd] at hBacked
    exact ⟨hBacked.1, entry, hMem, hBacked.2⟩
  | kept initialSummary =>
    rw [hEnd] at hBacked
    exact hBacked.imp_right fun hAnswered => ⟨entry, hMem, hAnswered⟩
  | authFailed e => trivial
  | givenUp => trivial

/-! ## The contract -/

namespace LcmSummarizer

/-- The ends that the candidates come to on a source text. -/
def ends (summarizer : LcmSummarizer) (text : String) (aggressive : Bool)
    (opts : LcmSummarizeOptions) : List CandidateEnd :=
  candidateEnds summarizer.deps (summarizer.callSettings text aggressive opts) 0
    summarizer.candidates

/-- The authentication error is raised exactly when every candidate fails to authenticate (a
failure of that kind always passes the turn on, so that each has been tried and none is
left). Otherwise a model's text or the fallback is returned, and it is not blank. -/
structure AuthContract (summarizer : LcmSummarizer) (text : String) (aggressive : Bool)
    (opts : LcmSummarizeOptions) : Prop where
  raises_iff : (∃ e, summarizer.summarize text aggressive opts = .error (.authError e)) ↔
    ∀ x ∈ summarizer.ends text aggressive opts, x.isAuth = true
  returns : ∀ summary, summarizer.summarize text aggressive opts = .ok summary →
    Text.isBlank summary = false ∧
      (ModelText summarizer.deps (summarizer.callSettings text aggressive opts) 0
          summarizer.candidates summary ∨
        summary = buildDeterministicFallback text (summarizer.targetTokens text aggressive opts))
  raises_only : ∀ error, summarizer.summarize text aggressive opts = .error error →
    ∃ e, error = .authError e

end LcmSummarizer

/-- No candidate gave a text, some failed to authenticate and some did not, and the last one
failed to authenticate or was given up. -/
def MixedFailure (ends : List CandidateEnd) : Prop :=
  ∃ earlier last, ends = earlier ++ [last] ∧ (∀ x ∈ earlier, x.isText = false) ∧
    (last.isAuth = true ∧ (∃ x ∈ earlier, x.isAuth = false) ∨
      last = .givenUp ∧ ∃ x ∈ earlier, x.isAuth = true)

/-- The first text of a chain, or its last candidate where there is none. -/
theorem split_ends {ends : List CandidateEnd} (hNe : ends ≠ []) :
    ∃ earlier last rest, ends = earlier ++ last :: rest ∧ (∀ x ∈ earlier, x.isText = false) ∧
      (last.isText = true ∨ rest = []) := by
  induction ends with
  | nil => exact absurd rfl hNe
  | cons x ends ih =>
    by_cases hStop : x.isText = true ∨ ends = []
    · exact ⟨[], x, ends, rfl, (fun y hy => nomatch hy), hStop⟩
    · obtain ⟨earlier, last, rest, rfl, hText, hLast⟩ := ih fun hNil => hStop (.inr hNil)
      refine ⟨x :: earlier, last, rest, rfl, ?_, hLast⟩
      intro y hy
      rcases List.mem_cons.mp hy with rfl | hTail
      · exact Bool.eq_false_iff.mpr fun hHead => hStop (.inl hHead)
      · exact hText y hTail

/-- What the chain does at its first text or at its last candidate, after candidates that
gave no text. -/
def lastEnd (fallback : String) (earlier : List CandidateEnd) :
    CandidateEnd → Except SummarizeError String
  | .text summary => .ok summary
  | .kept initialSummary => returned fallback initialSummary
  | .authFailed e => .error (.authError e)
  | .givenUp => exhausted fallback (lastAuthError earlier none)

theorem chainEnd_split (fallback : String) {earlier rest : List CandidateEnd}
    {last : CandidateEnd} (hEarlier : ∀ x ∈ earlier, x.isText = false)
    (hLast : last.isText = true ∨ rest = []) :
    chainEnd fallback (earlier ++ last :: rest) none = lastEnd fallback earlier last := by
  rw [chainEnd_append fallback (List.cons_ne_nil last rest) hEarlier]
  cases last with
  | text summary => rfl
  | kept initialSummary =>
    obtain rfl : rest = [] := hLast.resolve_left Bool.false_ne_true
    rfl
  | authFailed e =>
    obtain rfl : rest = [] := hLast.resolve_left Bool.false_ne_true
    rfl
  | givenUp =>
    obtain rfl : rest = [] := hLast.resolve_left Bool.false_ne_true
    rfl

theorem eq_authFailed_of_isAuth {x : CandidateEnd} (h : x.isAuth = true) :
    ∃ e, x = .authFailed e := by
  cases x with
  | authFailed e => exact ⟨e, rfl⟩
  | text summary => cases h
  | kept initialSummary => cases h
  | givenUp => cases h

section Contract

variable {summarizer : LcmSummarizer} {text : String} {aggressive : Bool}
  {opts : LcmSummarizeOptions}

theorem summarize_of_blank (h : Text.isBlank text = true) :
    summarizer.summarize text aggressive opts = .ok "" := by
  rw [LcmSummarizer.summarize, if_pos (Text.strip_of_isBlank h)]

theorem summarize_eq (hBlank : Text.isBlank text = false) (hNe : summarizer.candidates ≠ []) :
    summarizer.summarize text aggressive opts =
      chainEnd (buildDeterministicFallback text (summarizer.targetTokens text aggressive opts))
        (summarizer.ends text aggressive opts) none := by
  rw [LcmSummarizer.summarize, if_neg (Text.strip_ne_of_isBlank hBlank), if_neg]
  · exact summarizeCandidates_eq ..
  · rw [List.isEmpty_iff]
    exact hNe

theorem ends_ne_nil (hNe : summarizer.candidates ≠ []) :
    summarizer.ends text aggressive opts ≠ [] := by
  rw [LcmSummarizer.ends, candidateEnds]
  intro hNil
  rw [List.map_eq_nil_iff, List.zipIdx_eq_nil_iff] at hNil
  exact hNe hNil

/-- The mixed chains raise the authentication error although some candidate did not fail to
authenticate. -/
theorem not_authContract_of_mixed (hBlank : Text.isBlank text = false)
    (hNe : summarizer.candidates ≠ [])
    (hMixed : MixedFailure (summarizer.ends text aggressive opts)) :
    ¬ summarizer.AuthContract text aggressive opts := by
  intro hContract
  obtain ⟨earlier, last, hEnds, hText, hLast⟩ := hMixed
  have hResult : summarizer.summarize text aggressive opts = _ := summarize_eq hBlank hNe
  rw [hEnds, chainEnd_split _ hText (Or.inr rfl)] at hResult
  rcases hLast with ⟨hAuth, x, hMem, hNot⟩ | ⟨rfl, x, hMem, hAuth⟩
  · obtain ⟨e, rfl⟩ := eq_authFailed_of_isAuth hAuth
    have hAll := hContract.raises_iff.mp ⟨e, hResult⟩ x
    rw [hEnds, hNot] at hAll
    cases hAll (List.mem_append_left _ hMem)
  · obtain ⟨e, hError⟩ := lastAuthError_of_auth hMem hAuth none
    rw [lastEnd, hError] at hResult
    have hAll := hContract.raises_iff.mp ⟨e, hResult⟩ .givenUp
    rw [hEnds] at hAll
    cases hAll (List.mem_append_right _ List.mem_cons_self)

/-- A chain that returns keeps the contract if some candidate did not fail to authenticate
and the text is an answer or the fallback. -/
theorem authContract_of_returned {summary : String} (hBlank : Text.isBlank text = false)
    (hResult : summarizer.summarize text aggressive opts = .ok summary)
    (hOther : ∃ x ∈ summarizer.ends text aggressive opts, x.isAuth = false)
    (hText : summary ≠ "" ∧ ModelText summarizer.deps
        (summarizer.callSettings text aggressive opts) 0 summarizer.candidates summary ∨
      summary = buildDeterministicFallback text (summarizer.targetTokens text aggressive opts)) :
    summarizer.AuthContract text aggressive opts where
  raises_iff := by
    constructor
    · rintro ⟨e, hError⟩
      rw [hResult] at hError
      cases hError
    · intro hAll
      obtain ⟨x, hMem, hNot⟩ := hOther
      rw [hAll x hMem] at hNot
      cases hNot
  returns := by
    intro found hFound
    rw [hResult] at hFound
    cases hFound
    rcases hText with ⟨hNe, hModel⟩ | hFallback
    · exact ⟨hModel.not_blank hNe, Or.inl hModel⟩
    · refine ⟨?_, Or.inr hFallback⟩
      rw [hFallback]
      exact buildDeterministicFallback_not_blank hBlank _
  raises_only := by
    intro error hError
    rw [hResult] at hError
    cases hError

/-- A chain raises the authentication error exactly when every candidate fails to
authenticate, and returns a usable text otherwise, except where the failures are mixed. -/
theorem authContract_iff (hNe : summarizer.candidates ≠ []) :
    summarizer.AuthContract text aggressive opts ↔
      Text.isBlank text = false ∧ ¬ MixedFailure (summarizer.ends text aggressive opts) := by
  constructor
  · intro hContract
    have hBlank : Text.isBlank text = false := by
      rw [Bool.eq_false_iff]
      intro hNot
      cases (hContract.returns "" (summarize_of_blank hNot)).1
    exact ⟨hBlank, fun hMixed => not_authContract_of_mixed hBlank hNe hMixed hContract⟩
  · rintro ⟨hBlank, hMixed⟩
    have hEndsNe : summarizer.ends text aggressive opts ≠ [] := ends_ne_nil hNe
    obtain ⟨earlier, last, rest, hEnds, hEarlier, hLast⟩ := split_ends hEndsNe
    have hMem : last ∈ summarizer.ends text aggressive opts := by
      rw [hEnds]
      exact List.mem_append_right _ List.mem_cons_self
    have hBacked := backed_of_mem hMem
    have hResult : summarizer.summarize text aggressive opts = _ := summarize_eq hBlank hNe
    rw [hEnds, chainEnd_split _ hEarlier hLast] at hResult
    cases last with
    | text summary =>
      exact authContract_of_returned hBlank hResult ⟨_, hMem, rfl⟩ (Or.inl hBacked)
    | kept initialSummary =>
      by_cases hEmpty : initialSummary = ""
      · rw [lastEnd, returned, if_pos hEmpty] at hResult
        exact authContract_of_returned hBlank hResult ⟨_, hMem, rfl⟩ (Or.inr rfl)
      · rw [lastEnd, returned, if_neg hEmpty] at hResult
        exact authContract_of_returned hBlank hResult ⟨_, hMem, rfl⟩
          (Or.inl ⟨hEmpty, hBacked.resolve_left hEmpty⟩)
    | authFailed e =>
      obtain rfl : rest = [] := hLast.resolve_left Bool.false_ne_true
      refine ⟨⟨fun _ x hx => ?_, fun _ => ⟨e, hResult⟩⟩, fun summary h => ?_, fun error h => ?_⟩
      · -- an earlier end that is no failure of authentication would be a mixed failure
        rw [hEnds] at hx
        rcases List.mem_append.mp hx with hBefore | hHere
        · by_contra hNot
          exact hMixed ⟨earlier, _, hEnds, hEarlier,
            Or.inl ⟨rfl, x, hBefore, Bool.eq_false_iff.mpr hNot⟩⟩
        · rw [List.mem_singleton.mp hHere]
          rfl
      · rw [hResult] at h
        cases h
      · rw [hResult] at h
        cases h
        exact ⟨e, rfl⟩
    | givenUp =>
      obtain rfl : rest = [] := hLast.resolve_left Bool.false_ne_true
      have hNone : lastAuthError earlier none = none := by
        apply lastAuthError_of_no_auth
        intro x hx
        rw [Bool.eq_false_iff]
        exact fun hAuth => hMixed ⟨earlier, _, hEnds, hEarlier, Or.inr ⟨rfl, x, hx, hAuth⟩⟩
      rw [lastEnd, hNone] at hResult
      exact authContract_of_returned hBlank hResult ⟨_, hMem, rfl⟩ (Or.inr rfl)

end Contract

/-! ## Two models, one refusing and one overloaded -/

/-- Each candidate answers every call with the envelope of its place; an envelope with
`status` 401 is a failure of authentication, one with another status of at least 400 a
response error. -/
def statusDeps (statuses : List Int) : SummarizerDeps where
  complete attempt _ :=
    match statuses[attempt.index]? with
    | some status => .ok (.obj [("status", .int status)])
    | none => .error .timeout
  getApiKey _ _ _ _ := .ok none
  isRuntimeManagedAuthProvider _ := false
  extractProviderAuthFailure value _ :=
    match value with
    | .ok (.obj [("status", .int 401)]) => some ⟨some 401, some "401", false⟩
    | _ => none
  extractProviderResponseFailure value :=
    match value with
    | .obj [("status", .int status)] =>
        if 400 ≤ status then some ⟨some status, none, none, none⟩ else none
    | _ => none

def statusChain (statuses : List Int) : LcmSummarizer where
  deps := statusDeps statuses
  config := ⟨none, none, none⟩
  customInstructions := none
  candidates := [⟨"anthropic", "sonnet"⟩, ⟨"openai", "mini"⟩]
  buildPrompt request := request.text

/-- The first model refuses the credentials and the second one is overloaded: the chain
raises the authentication error of the first. -/
theorem overloaded_after_refused :
    ¬ (statusChain [401, 503]).AuthContract "user: hello" false ⟨none, false, none⟩ := by
  intro hContract
  have hAll := hContract.raises_iff.mp
    ⟨⟨"anthropic", "sonnet", ⟨some 401, some "401", false⟩⟩, by decide +kernel⟩
  have hLast := hAll .givenUp (by decide +kernel)
  cases hLast

theorem authContract_of_refused :
    (statusChain [401, 401]).AuthContract "user: hello" false ⟨none, false, none⟩ ↔
      Text.isBlank "user: hello" = false ∧ ¬ MixedFailure
        [.authFailed ⟨"anthropic", "sonnet", ⟨some 401, some "401", false⟩⟩,
          .authFailed ⟨"openai", "mini", ⟨some 401, some "401", false⟩⟩] :=
  authContract_iff (by decide)

end LosslessHermes.Summarize
