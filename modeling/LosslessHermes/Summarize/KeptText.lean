import LosslessHermes.Summarize.AuthContract

/-!
# When a text of a model is thrown away

A first answer that has a text but was cut off asks for a second call, and meanwhile its
text waits in a local variable. Only the last candidate ever looks at that variable again,
and not where its second call fails to authenticate or ends in a response error. So what
one call returned is lost exactly in the chains of `LosesText` (`keepsModelText_iff`).
-/

namespace LosslessHermes.Summarize

/-! ## The calls of a run -/

/-- The calls of one candidate: a second one where the first answer has no text or was cut
off. -/
def callsOf (deps : SummarizerDeps) (settings : CallSettings) (index : Nat)
    (candidate : ResolvedSummaryCandidate) : List (Attempt × ResolvedSummaryCandidate) :=
  match attemptSummarizerCall deps settings ⟨index, .initial⟩ candidate with
  | .error _ => [(⟨index, .initial⟩, candidate)]
  | .ok result =>
      if summaryOf result = "" ∨ extractIncompleteResponseSignals result ≠ [] then
        [(⟨index, .initial⟩, candidate), (⟨index, .retry⟩, candidate)]
      else [(⟨index, .initial⟩, candidate)]

/-- The calls of the loop, which goes on to the next candidate until one comes to a text. -/
def callsMade (deps : SummarizerDeps) (settings : CallSettings) (index : Nat) :
    List ResolvedSummaryCandidate → List (Attempt × ResolvedSummaryCandidate)
  | [] => []
  | candidate :: rest =>
      callsOf deps settings index candidate ++
        if (candidateEnd deps settings index candidate).isText then []
        else callsMade deps settings (index + 1) rest

/-- `summary` is the text of an answer to one of the calls. -/
def TextOf (deps : SummarizerDeps) (settings : CallSettings)
    (calls : List (Attempt × ResolvedSummaryCandidate)) (summary : String) : Prop :=
  summary ≠ "" ∧ ∃ call ∈ calls, ∃ result,
    attemptSummarizerCall deps settings call.1 call.2 = .ok result ∧ summaryOf result = summary

variable {deps : SummarizerDeps} {settings : CallSettings}

variable {summary : String}

theorem TextOf.mono {calls calls' : List (Attempt × ResolvedSummaryCandidate)}
    (hSubset : calls ⊆ calls') (h : TextOf deps settings calls summary) :
    TextOf deps settings calls' summary := by
  obtain ⟨hNe, call, hCall, hAnswer⟩ := h
  exact ⟨hNe, call, hSubset hCall, hAnswer⟩

/-- The first answer of a candidate has a text. -/
def FirstText (deps : SummarizerDeps) (settings : CallSettings) (index : Nat)
    (candidate : ResolvedSummaryCandidate) : Prop :=
  ∃ result, attemptSummarizerCall deps settings ⟨index, .initial⟩ candidate = .ok result ∧
    summaryOf result ≠ ""

theorem initial_mem_callsOf (deps : SummarizerDeps) (settings : CallSettings) (index : Nat)
    (candidate : ResolvedSummaryCandidate) :
    (⟨index, .initial⟩, candidate) ∈ callsOf deps settings index candidate := by
  unfold callsOf
  split
  · exact List.mem_cons_self
  · split
    · exact List.mem_cons_self
    · exact List.mem_cons_self

variable {index : Nat} {candidate : ResolvedSummaryCandidate}

/-- A text that ends a candidate's turn, or waits at its end, is that of one of its
calls. -/
theorem textOf_candidateEnd (hNe : summary ≠ "")
    (h : candidateEnd deps settings index candidate = .text summary ∨
      candidateEnd deps settings index candidate = .kept summary) :
    TextOf deps settings (callsOf deps settings index candidate) summary := by
  have hFirst := initial_mem_callsOf deps settings index candidate
  refine ⟨hNe, ?_⟩
  unfold candidateEnd at h
  split at h
  · simp at h
  · simp at h
  · simp only [reduceCtorEq, CandidateEnd.kept.injEq, false_or] at h
    exact absurd h.symm hNe
  · simp at h
  · rename_i result hInitial
    split at h
    · rename_i hAgain
      have hRetryMem : (⟨index, .retry⟩, candidate) ∈ callsOf deps settings index candidate := by
        unfold callsOf
        rw [hInitial]
        dsimp only
        rw [if_pos hAgain]
        exact List.mem_cons_of_mem _ List.mem_cons_self
      split at h
      · rename_i retryResult hRetry
        split at h
        · simp only [CandidateEnd.text.injEq, reduceCtorEq, or_false] at h
          exact ⟨_, hRetryMem, retryResult, hRetry, h⟩
        · simp only [reduceCtorEq, CandidateEnd.kept.injEq, false_or] at h
          exact ⟨_, hFirst, result, hInitial, h⟩
      · simp at h
      · simp at h
      · simp only [reduceCtorEq, CandidateEnd.kept.injEq, false_or] at h
        exact ⟨_, hFirst, result, hInitial, h⟩
      · simp only [reduceCtorEq, CandidateEnd.kept.injEq, false_or] at h
        exact ⟨_, hFirst, result, hInitial, h⟩
    · simp only [CandidateEnd.text.injEq, reduceCtorEq, or_false] at h
      exact ⟨_, hFirst, result, hInitial, h⟩

/-- Without a text at the end, only the first answer can have had one. -/
theorem firstText_of_textOf
    (h : TextOf deps settings (callsOf deps settings index candidate) summary)
    (hEnd : (candidateEnd deps settings index candidate).isText = false) :
    FirstText deps settings index candidate := by
  obtain ⟨hNe, call, hCall, answer, hAnswer, hText⟩ := h
  unfold callsOf at hCall
  unfold candidateEnd at hEnd
  cases hInitial : attemptSummarizerCall deps settings ⟨index, .initial⟩ candidate with
  | error exc =>
    rw [hInitial] at hCall
    obtain rfl := List.mem_singleton.mp hCall
    rw [hInitial] at hAnswer
    cases hAnswer
  | ok result =>
    rw [hInitial] at hCall hEnd
    dsimp only at hCall hEnd
    have hOf : answer = result → FirstText deps settings index candidate := by
      rintro rfl
      exact ⟨_, hInitial, by rwa [hText]⟩
    by_cases hAgain : summaryOf result = "" ∨ extractIncompleteResponseSignals result ≠ []
    · rw [if_pos hAgain] at hCall hEnd
      rcases List.mem_cons.mp hCall with rfl | hCall
      · exact hOf (Except.ok.inj (hAnswer.symm.trans hInitial))
      · -- a text of the second call would have ended the turn
        obtain rfl := List.mem_singleton.mp hCall
        dsimp only at hAnswer
        rw [hAnswer] at hEnd
        dsimp only at hEnd
        rw [if_pos (by rwa [hText])] at hEnd
        cases hEnd
    · rw [if_neg hAgain] at hCall
      obtain rfl := List.mem_singleton.mp hCall
      exact hOf (Except.ok.inj (hAnswer.symm.trans hInitial))

theorem callsMade_pass (h : (candidateEnd deps settings index candidate).isText = false)
    (rest : List ResolvedSummaryCandidate) :
    callsMade deps settings index (candidate :: rest) =
      callsOf deps settings index candidate ++ callsMade deps settings (index + 1) rest := by
  rw [callsMade, h]
  rfl

/-! ## Chains that keep a text -/

/-- Some candidate came to a text, or one waits at the last candidate, which uses it. -/
def HasText (ends : List CandidateEnd) : Prop :=
  (∃ x ∈ ends, x.isText = true) ∨ ∃ waiting, waiting ≠ "" ∧ ends.getLast? = some (.kept waiting)

variable {ends : List CandidateEnd}

theorem HasText.of_cons {x : CandidateEnd} (hText : x.isText = false)
    (hRest : ends ≠ []) (h : HasText (x :: ends)) : HasText ends := by
  rcases h with ⟨y, hy, hIs⟩ | ⟨waiting, hNe, hLast⟩
  · rcases List.mem_cons.mp hy with rfl | hy
    · rw [hText] at hIs
      cases hIs
    · exact Or.inl ⟨y, hy, hIs⟩
  · rw [List.getLast?_cons_of_ne_nil hRest] at hLast
    exact Or.inr ⟨waiting, hNe, hLast⟩

theorem HasText.cons {x : CandidateEnd} {ends : List CandidateEnd} (h : HasText ends) :
    HasText (x :: ends) := by
  rcases h with ⟨y, hy, hIs⟩ | ⟨waiting, hNe, hLast⟩
  · exact Or.inl ⟨y, List.mem_cons_of_mem _ hy, hIs⟩
  · refine Or.inr ⟨waiting, hNe, ?_⟩
    have hRest : ends ≠ [] := by
      rintro rfl
      cases hLast
    rwa [List.getLast?_cons_of_ne_nil hRest]

/-- A turn that does not end in a text passes on to the rest of the chain. -/
theorem chainEnd_pass {x : CandidateEnd} (hText : x.isText = false)
    (hRest : ends ≠ []) (lastAuthError : Option LcmProviderAuthError) :
    ∃ next, ∀ fallback,
      chainEnd fallback (x :: ends) lastAuthError = chainEnd fallback ends next := by
  cases x with
  | text summary => cases hText
  | authFailed e => exact ⟨some e, fun _ => rfl⟩
  | givenUp => exact ⟨lastAuthError, fun _ => rfl⟩
  | kept waiting =>
    refine ⟨lastAuthError, fun fallback => ?_⟩
    rw [chainEnd, List.isEmpty_eq_false_iff.mpr hRest]
    rfl

/-- What a chain with a text comes to does not depend on the fallback. -/
theorem chainEnd_of_hasText (candidates : List ResolvedSummaryCandidate) (index : Nat)
    (lastAuthError : Option LcmProviderAuthError)
    (h : HasText (candidateEnds deps settings index candidates)) :
    ∃ summary, TextOf deps settings (callsMade deps settings index candidates) summary ∧
      ∀ fallback, chainEnd fallback (candidateEnds deps settings index candidates)
        lastAuthError = .ok summary := by
  induction candidates generalizing index lastAuthError with
  | nil =>
    rcases h with ⟨x, hx, -⟩ | ⟨waiting, -, hLast⟩
    · cases hx
    · cases hLast
  | cons candidate rest ih =>
    rw [candidateEnds_cons] at h ⊢
    have hOwn : callsOf deps settings index candidate ⊆
        callsMade deps settings index (candidate :: rest) := List.subset_append_left _ _
    cases hIs : (candidateEnd deps settings index candidate).isText with
    | true =>
      have hBacked := candidateEnd_backed deps settings index candidate
      cases hEnd : candidateEnd deps settings index candidate with
      | text summary =>
        rw [hEnd] at hBacked
        exact ⟨summary, (textOf_candidateEnd hBacked.1 (Or.inl hEnd)).mono hOwn,
          fun _ => rfl⟩
      | _ =>
        rw [hEnd] at hIs
        cases hIs
    | false =>
      cases rest with
      | nil =>
        rcases h with ⟨x, hx, hText⟩ | ⟨waiting, hNe, hLast⟩
        · rw [List.mem_singleton.mp hx, hIs] at hText
          cases hText
        · have hEnd : candidateEnd deps settings index candidate = .kept waiting :=
            Option.some.inj hLast
          refine ⟨waiting, (textOf_candidateEnd hNe (Or.inr hEnd)).mono hOwn,
            fun fallback => ?_⟩
          rw [hEnd]
          show returned fallback waiting = .ok waiting
          rw [returned, if_neg hNe]
      | cons next rest =>
        obtain ⟨passed, hPass⟩ := chainEnd_pass hIs (List.cons_ne_nil
          (candidateEnd deps settings (index + 1) next)
          (candidateEnds deps settings (index + 1 + 1) rest)) lastAuthError
        obtain ⟨summary, hText, hRun⟩ := ih (index + 1) passed
          (h.of_cons hIs (List.cons_ne_nil _ _))
        refine ⟨summary, hText.mono ?_, fun fallback => ?_⟩
        · rw [callsMade_pass hIs]
          exact List.subset_append_right _ _
        · exact (hPass fallback).trans (hRun fallback)

/-- Without one the chain returns the fallback if it returns. -/
theorem eq_fallback_of_not_hasText {fallback : String}
    {lastAuthError : Option LcmProviderAuthError} (h : ¬ HasText ends)
    (hRun : chainEnd fallback ends lastAuthError = .ok summary) : summary = fallback := by
  induction ends generalizing lastAuthError with
  | nil =>
    cases lastAuthError with
    | none => exact (Except.ok.inj hRun).symm
    | some e => cases hRun
  | cons x ends ih =>
    have hText : x.isText = false :=
      Bool.eq_false_iff.mpr fun hIs => h (Or.inl ⟨x, List.mem_cons_self, hIs⟩)
    by_cases hRest : ends = []
    · subst hRest
      cases x with
      | text text => cases hText
      | authFailed e => cases hRun
      | givenUp => exact ih (fun hNil => h hNil.cons) hRun
      | kept waiting =>
        have hEmpty : waiting = "" :=
          Classical.not_not.mp fun hNe => h (Or.inr ⟨waiting, hNe, rfl⟩)
        subst hEmpty
        exact (Except.ok.inj hRun).symm
    · obtain ⟨next, hPass⟩ := chainEnd_pass hText hRest lastAuthError
      rw [hPass] at hRun
      exact ih (fun hTail => h hTail.cons) hRun

/-- Where no candidate comes to a text, the texts of the calls are those of first answers. -/
theorem exists_textOf_iff (candidates : List ResolvedSummaryCandidate) (index : Nat)
    (h : ∀ x ∈ candidateEnds deps settings index candidates, x.isText = false) :
    (∃ summary, TextOf deps settings (callsMade deps settings index candidates) summary) ↔
      ∃ entry ∈ candidates.zipIdx index, FirstText deps settings entry.2 entry.1 := by
  induction candidates generalizing index with
  | nil => simp [callsMade, TextOf]
  | cons candidate rest ih =>
    rw [candidateEnds_cons] at h
    have hEnd := h _ List.mem_cons_self
    have hRest := ih (index + 1) fun x hx => h x (List.mem_cons_of_mem _ hx)
    rw [callsMade_pass hEnd, List.zipIdx_cons]
    constructor
    · rintro ⟨summary, hNe, call, hCall, hAnswer⟩
      rcases List.mem_append.mp hCall with hOwn | hLater
      · exact ⟨_, List.mem_cons_self, firstText_of_textOf ⟨hNe, call, hOwn, hAnswer⟩ hEnd⟩
      · obtain ⟨entry, hEntry, hFirst⟩ := hRest.mp ⟨summary, hNe, call, hLater, hAnswer⟩
        exact ⟨entry, List.mem_cons_of_mem _ hEntry, hFirst⟩
    · rintro ⟨entry, hEntry, hFirst⟩
      rcases List.mem_cons.mp hEntry with rfl | hEntry
      · obtain ⟨result, hResult, hNe⟩ := hFirst
        exact ⟨summaryOf result, hNe, _, List.mem_append_left _
          (initial_mem_callsOf deps settings index candidate), result, hResult, rfl⟩
      · obtain ⟨summary, hText⟩ := hRest.mpr ⟨entry, hEntry, hFirst⟩
        exact ⟨summary, hText.mono (List.subset_append_right _ _)⟩

/-! ## The summarizer -/

namespace LcmSummarizer

/-- The calls that `summarize` makes. -/
def calls (summarizer : LcmSummarizer) (text : String) (aggressive : Bool)
    (opts : LcmSummarizeOptions) : List (Attempt × ResolvedSummaryCandidate) :=
  if Text.strip text = "" then []
  else
    callsMade summarizer.deps (summarizer.callSettings text aggressive opts) 0
      summarizer.candidates

/-- If a call returns a text, the result is the text of a call, and not because the fallback
happens to be that text: it would be the result whatever the fallback is. -/
def KeepsModelText (summarizer : LcmSummarizer) (text : String) (aggressive : Bool)
    (opts : LcmSummarizeOptions) : Prop :=
  let settings := summarizer.callSettings text aggressive opts
  let returnedText := TextOf summarizer.deps settings (summarizer.calls text aggressive opts)
  (∃ summary, returnedText summary) →
    ∃ summary, returnedText summary ∧ summarizer.summarize text aggressive opts = .ok summary ∧
      ∀ fallback, summarizeCandidates summarizer.deps settings fallback 0
        summarizer.candidates none = .ok summary

/-- A first answer has a text, no candidate comes to one, and none waits at the last one. -/
def LosesText (summarizer : LcmSummarizer) (text : String) (aggressive : Bool)
    (opts : LcmSummarizeOptions) : Prop :=
  (∃ entry ∈ summarizer.candidates.zipIdx,
    FirstText summarizer.deps (summarizer.callSettings text aggressive opts) entry.2 entry.1) ∧
  (∀ x ∈ summarizer.ends text aggressive opts, x.isText = false) ∧
  ∀ waiting, (summarizer.ends text aggressive opts).getLast? = some (.kept waiting) →
    waiting = ""

variable {summarizer : LcmSummarizer} {text : String} {aggressive : Bool}
  {opts : LcmSummarizeOptions}

theorem calls_of_not_blank (h : Text.isBlank text = false) :
    summarizer.calls text aggressive opts =
      callsMade summarizer.deps (summarizer.callSettings text aggressive opts) 0
        summarizer.candidates :=
  if_neg (Text.strip_ne_of_isBlank h)

theorem LosesText.not_hasText (h : summarizer.LosesText text aggressive opts) :
    ¬ HasText (summarizer.ends text aggressive opts) := by
  rintro (⟨x, hx, hIs⟩ | ⟨waiting, hNe, hLast⟩)
  · rw [h.2.1 x hx] at hIs
    cases hIs
  · exact hNe (h.2.2 waiting hLast)

theorem LosesText.not_keepsModelText (hBlank : Text.isBlank text = false)
    (h : summarizer.LosesText text aggressive opts) :
    ¬ summarizer.KeepsModelText text aggressive opts := by
  intro hKeeps
  have hReturned := (exists_textOf_iff summarizer.candidates 0 h.2.1).mpr h.1
  rw [← calls_of_not_blank hBlank] at hReturned
  obtain ⟨summary, ⟨hNe, -⟩, -, hRun⟩ := hKeeps hReturned
  have hEmpty := hRun ""
  rw [summarizeCandidates_eq] at hEmpty
  exact hNe (eq_fallback_of_not_hasText h.not_hasText hEmpty)

theorem keepsModelText_of_hasText (hBlank : Text.isBlank text = false)
    (h : HasText (summarizer.ends text aggressive opts)) :
    summarizer.KeepsModelText text aggressive opts := by
  rintro -
  obtain ⟨summary, hText, hRun⟩ := chainEnd_of_hasText summarizer.candidates 0 none h
  have hCandidates : summarizer.candidates ≠ [] := by
    intro hNil
    rw [ends, hNil] at h
    rcases h with ⟨x, hx, -⟩ | ⟨waiting, -, hLast⟩
    · cases hx
    · cases hLast
  refine ⟨summary, ?_, (summarize_eq hBlank hCandidates).trans (hRun _), fun fallback => ?_⟩
  · rw [calls_of_not_blank hBlank]
    exact hText
  · rw [summarizeCandidates_eq]
    exact hRun fallback

theorem keepsModelText_of_not_loses (hBlank : Text.isBlank text = false)
    (h : ¬ summarizer.LosesText text aggressive opts) :
    summarizer.KeepsModelText text aggressive opts := by
  by_cases hText : HasText (summarizer.ends text aggressive opts)
  · exact keepsModelText_of_hasText hBlank hText
  · intro hReturned
    have hNone : ∀ x ∈ summarizer.ends text aggressive opts, x.isText = false :=
      fun x hx => Bool.eq_false_iff.mpr fun hIs => hText (Or.inl ⟨x, hx, hIs⟩)
    rw [calls_of_not_blank hBlank] at hReturned
    refine absurd ⟨(exists_textOf_iff _ 0 hNone).mp hReturned, hNone, ?_⟩ h
    intro waiting hLast
    by_contra hNe
    exact hText (Or.inr ⟨waiting, hNe, hLast⟩)

/-- A text that a call returned is the result, or another one is, except in the chains that
lose it. A blank source makes no call. -/
theorem keepsModelText_iff (summarizer : LcmSummarizer) (text : String) (aggressive : Bool)
    (opts : LcmSummarizeOptions) :
    summarizer.KeepsModelText text aggressive opts ↔
      Text.isBlank text = true ∨ ¬ summarizer.LosesText text aggressive opts := by
  cases hBlank : Text.isBlank text with
  | true =>
    refine ⟨fun _ => Or.inl rfl, fun _ => ?_⟩
    rintro ⟨summary, -, call, hCall, -⟩
    rw [calls, if_pos (Text.strip_of_isBlank hBlank)] at hCall
    cases hCall
  | false =>
    refine ⟨fun hKeeps => Or.inr fun hLoses => hLoses.not_keepsModelText hBlank hKeeps, ?_⟩
    rintro (h | h)
    · cases h
    · exact keepsModelText_of_not_loses hBlank h

end LcmSummarizer

/-! ## A cut off answer and a server error -/

/-- The first answer is cut off, and the second call meets an overloaded server. -/
def cutOffDeps : SummarizerDeps where
  complete attempt _ :=
    match attempt.label with
    | .initial => .ok (.obj [("status", .str "incomplete"),
        ("content", .arr [.obj [("type", .str "text"), ("text", .str "The parser was split")]])])
    | .retry => .error (.response ⟨"anthropic", "sonnet", ⟨some 529, none, none, none⟩⟩)
  getApiKey _ _ _ _ := .ok none
  isRuntimeManagedAuthProvider _ := false
  extractProviderAuthFailure _ _ := none
  extractProviderResponseFailure _ := none

def cutOffChain : LcmSummarizer where
  deps := cutOffDeps
  config := ⟨none, none, none⟩
  customInstructions := none
  candidates := [⟨"anthropic", "sonnet"⟩]
  buildPrompt request := request.text

theorem cutOff_not_keepsModelText :
    ¬ cutOffChain.KeepsModelText "user: split the parser" false ⟨none, false, none⟩ := by
  apply LcmSummarizer.LosesText.not_keepsModelText (by decide +kernel)
  refine ⟨⟨_, List.mem_cons_self, _, rfl, by decide +kernel⟩, by decide +kernel, ?_⟩
  have hEnds : cutOffChain.ends "user: split the parser" false ⟨none, false, none⟩ =
      [.givenUp] := by
    decide +kernel
  intro waiting hLast
  rw [hEnds] at hLast
  cases hLast

end LosslessHermes.Summarize
