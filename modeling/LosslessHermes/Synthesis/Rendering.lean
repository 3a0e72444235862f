import LosslessHermes.Library.Replacement

/-!
# Rendering a prompt

A prompt template is rendered by one `re.sub` for each placeholder, with the value as the
replacement. So a backslash in a value is read as an escape or raises, and a placeholder in
a value that is already in the text is filled in by a later step. Where neither happens,
the rendered prompt is the template with its placeholders replaced once by the values as
they are (`renders_verbatim`).
-/

namespace LosslessHermes.Dispatch

def SOURCE_TEXT : SlotName := ⟨"source_text".toList, by decide, List.all_eq_true.mp (by decide)⟩

def SOURCE_LEAVES : SlotName := ⟨"source_leaves".toList, by decide, List.all_eq_true.mp (by decide)⟩

def CANDIDATE_SUMMARY : SlotName :=
  ⟨"candidate_summary".toList, by decide, List.all_eq_true.mp (by decide)⟩

def DRAFT : SlotName := ⟨"draft".toList, by decide, List.all_eq_true.mp (by decide)⟩

def CANDIDATES : SlotName := ⟨"candidates".toList, by decide, List.all_eq_true.mp (by decide)⟩

def TIER : SlotName := ⟨"tier".toList, by decide, List.all_eq_true.mp (by decide)⟩

def MEMORY_TYPE : SlotName := ⟨"memory_type".toList, by decide, List.all_eq_true.mp (by decide)⟩

def SUB_SOURCE_TEXT : Regex := placeholder SOURCE_TEXT

def SUB_SOURCE_LEAVES : Regex := placeholder SOURCE_LEAVES

def SUB_CANDIDATE_SUMMARY : Regex := placeholder CANDIDATE_SUMMARY

def SUB_DRAFT : Regex := placeholder DRAFT

def SUB_CANDIDATES : Regex := placeholder CANDIDATES

def SUB_TIER : Regex := placeholder TIER

def SUB_MEMORY_TYPE : Regex := placeholder MEMORY_TYPE

/-- None where a substitution raises. -/
def renderPrompt (template sourceText tier memoryType : String) : Option String := do
  let out ← substitutePattern SUB_SOURCE_TEXT sourceText template
  let out ← substitutePattern SUB_TIER tier out
  let out ← substitutePattern SUB_MEMORY_TYPE memoryType out
  return out

def renderVerifyPrompt (template sourceText candidateSummary : String) : Option String := do
  let out ← substitutePattern SUB_SOURCE_TEXT sourceText template
  let out ← substitutePattern SUB_SOURCE_LEAVES sourceText out
  let out ← substitutePattern SUB_CANDIDATE_SUMMARY candidateSummary out
  let out ← substitutePattern SUB_DRAFT candidateSummary out
  return out

def candidatesList (candidates : List String) : String :=
  "\n\n".intercalate
    (candidates.mapIdx fun i c => "### Candidate " ++ toString i ++ "\n\n" ++ c)

def renderJudgePrompt (template sourceText : String) (candidates : List String) :
    Option String := do
  let out ← substitutePattern SUB_SOURCE_TEXT sourceText template
  let out ← substitutePattern SUB_CANDIDATES (candidatesList candidates) out
  return out

/-! ## The values of the placeholders -/

def promptValues (sourceText tier memoryType : String) : List (SlotName × String) :=
  [(SOURCE_TEXT, sourceText), (TIER, tier), (MEMORY_TYPE, memoryType)]

def verifyValues (sourceText candidateSummary : String) : List (SlotName × String) :=
  [(SOURCE_TEXT, sourceText), (SOURCE_LEAVES, sourceText),
    (CANDIDATE_SUMMARY, candidateSummary), (DRAFT, candidateSummary)]

def judgeValues (sourceText : String) (candidates : List String) : List (SlotName × String) :=
  [(SOURCE_TEXT, sourceText), (CANDIDATES, candidatesList candidates)]

/-- The template with each placeholder replaced once, by its value as it is. -/
def verbatim (values : List (SlotName × String)) (template : String) : String :=
  String.ofList (filledIn (values.map (·.1)) values template)

theorem renderPrompt_eq (template sourceText tier memoryType : String) :
    renderPrompt template sourceText tier memoryType =
      substituteEach (promptValues sourceText tier memoryType) template := by
  simp [renderPrompt, substituteEach, promptValues, SUB_SOURCE_TEXT, SUB_TIER, SUB_MEMORY_TYPE]

theorem renderVerifyPrompt_eq (template sourceText candidateSummary : String) :
    renderVerifyPrompt template sourceText candidateSummary =
      substituteEach (verifyValues sourceText candidateSummary) template := by
  simp [renderVerifyPrompt, substituteEach, verifyValues, SUB_SOURCE_TEXT, SUB_SOURCE_LEAVES,
    SUB_CANDIDATE_SUMMARY, SUB_DRAFT]

theorem renderJudgePrompt_eq (template sourceText : String) (candidates : List String) :
    renderJudgePrompt template sourceText candidates =
      substituteEach (judgeValues sourceText candidates) template := by
  simp [renderJudgePrompt, substituteEach, judgeValues, SUB_SOURCE_TEXT, SUB_CANDIDATES]

/-- A rendering raises exactly for a value that is no replacement template, whatever the
prompt template is, and for harmless values it is the verbatim one. -/
theorem rendering_of_values {values : List (SlotName × String)}
    (hNodup : (values.map (·.1)).Nodup) (template : String) :
    (substituteEach values template = none ↔
      ∃ entry ∈ values, parseTemplate entry.2.toList = none) ∧
    (Harmless values template → substituteEach values template = some (verbatim values template)) :=
  ⟨substituteEach_eq_none_iff, substituteEach_eq hNodup⟩

/-- The three renderings. -/
theorem renders_verbatim (template sourceText tier memoryType candidateSummary : String)
    (candidates : List String) :
    (let values := promptValues sourceText tier memoryType;
      (renderPrompt template sourceText tier memoryType = none ↔
        ∃ entry ∈ values, parseTemplate entry.2.toList = none) ∧
      (Harmless values template →
        renderPrompt template sourceText tier memoryType = some (verbatim values template))) ∧
    (let values := verifyValues sourceText candidateSummary;
      (renderVerifyPrompt template sourceText candidateSummary = none ↔
        ∃ entry ∈ values, parseTemplate entry.2.toList = none) ∧
      (Harmless values template →
        renderVerifyPrompt template sourceText candidateSummary =
          some (verbatim values template))) ∧
    (let values := judgeValues sourceText candidates;
      (renderJudgePrompt template sourceText candidates = none ↔
        ∃ entry ∈ values, parseTemplate entry.2.toList = none) ∧
      (Harmless values template →
        renderJudgePrompt template sourceText candidates = some (verbatim values template))) := by
  rw [renderPrompt_eq, renderVerifyPrompt_eq, renderJudgePrompt_eq]
  refine ⟨rendering_of_values ?_ template, rendering_of_values ?_ template,
    rendering_of_values ?_ template⟩
  · show [SOURCE_TEXT, TIER, MEMORY_TYPE].Nodup
    decide
  · show [SOURCE_TEXT, SOURCE_LEAVES, CANDIDATE_SUMMARY, DRAFT].Nodup
    decide
  · show [SOURCE_TEXT, CANDIDATES].Nodup
    decide

theorem renders_verbatim_sample :
    renderPrompt "\x7b\x7btier\x7d\x7d: \x7b\x7b source_text \x7d\x7d" "see \x7bthe\x7d diff" "daily"
      "episodic-leaf" = some "daily: see \x7bthe\x7d diff" := by
  have hHarmless : Harmless (promptValues "see \x7bthe\x7d diff" "daily" "episodic-leaf")
      "\x7b\x7btier\x7d\x7d: \x7b\x7b source_text \x7d\x7d" := by
    decide +kernel
  have hRender := (renders_verbatim "\x7b\x7btier\x7d\x7d: \x7b\x7b source_text \x7d\x7d"
    "see \x7bthe\x7d diff" "daily" "episodic-leaf" "" []).1.2 hHarmless
  exact hRender.trans (by decide +kernel)

-- two later steps that undo each other: the result is verbatim, the way to it is not
example :
    renderPrompt "\x7b\x7bsource_text\x7d\x7d" "\x7b\x7btier\x7d\x7d" "\x7b\x7bmemory_type\x7d\x7d"
        "\x7b\x7btier\x7d\x7d" = some "\x7b\x7btier\x7d\x7d" ∧
      ¬ Harmless (promptValues "\x7b\x7btier\x7d\x7d" "\x7b\x7bmemory_type\x7d\x7d"
        "\x7b\x7btier\x7d\x7d") "\x7b\x7bsource_text\x7d\x7d" := by
  decide +kernel

/-- A path in the source text is no replacement template, and a placeholder in it is filled
in as if it stood in the template. -/
theorem renderPrompt_not_verbatim :
    renderPrompt "Sum up: \x7b\x7bsource_text\x7d\x7d" "see C:\\data" "daily" "episodic-leaf" = none ∧
    renderPrompt "Sum up: \x7b\x7bsource_text\x7d\x7d" "see \x7b\x7btier\x7d\x7d" "daily"
      "episodic-leaf" ≠
        some (verbatim (promptValues "see \x7b\x7btier\x7d\x7d" "daily" "episodic-leaf")
          "Sum up: \x7b\x7bsource_text\x7d\x7d") := by
  decide +kernel

end LosslessHermes.Dispatch
