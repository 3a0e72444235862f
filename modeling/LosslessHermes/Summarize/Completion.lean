import LosslessHermes.Library.Json
import LosslessHermes.Library.Text

/-!
# The text of a provider's answer

`normalizeCompletionSummary` collects the text fields of a content list or of a whole
response, leaves out the blocks of reasoning and joins the distinct fragments;
`extractIncompleteResponseSignals` finds the marks of an answer that was cut off. The block
types which the former also returns are only logged and are left out.
-/

namespace LosslessHermes.Summarize

open Json (get?)

/-! ## Fragments -/

/-- `_is_reasoning_like_type` -/
def isReasoningLikeType : Option Json → Bool
  | some (.str type) => Text.containsWord type "reasoning" || Text.containsWord type "thinking"
  | _ => false

/-- A string under a key of an object. -/
def textField (fields : List (String × Json)) (key : String) : List String :=
  match get? fields key with
  | some (.str s) => [s]
  | _ => []

mutual

/-- `_append_text_value` -/
def appendTextValue : Json → List String
  | .str s => [s]
  | .arr items => appendTextItems items
  | .obj fields => textField fields "value" ++ textField fields "text"
  | _ => []

def appendTextItems : List Json → List String
  | [] => []
  | item :: items => appendTextValue item ++ appendTextItems items

end

/-- What the texts under a list of keys add, in the order of the keys. -/
def underKeys {α : Type} (fields : List (String × List α)) (keys : List String) : List α :=
  keys.flatMap fun key => (fields.lookup key).getD []

mutual

/-- `_collect_text_like_fields`; the keys that an object is searched under are looked up
among what each of its fields collects. -/
def collectTextLikeFields : Json → List String
  | .arr items => collectTextItems items
  | .obj fields =>
      if isReasoningLikeType (get? fields "type") then []
      else
        underKeys (fields.map fun f => (f.1, appendTextValue f.2)) ["text", "output_text"] ++
          underKeys (collectTextFields fields)
            ["content", "summary", "output", "message", "response"]
  | _ => []

def collectTextItems : List Json → List String
  | [] => []
  | item :: items => collectTextLikeFields item ++ collectTextItems items

def collectTextFields : List (String × Json) → List (String × List String)
  | [] => []
  | field :: fields => (field.1, collectTextLikeFields field.2) :: collectTextFields fields

end

/-- The loop of `_normalize_text_fragments`: the fragments kept so far are those seen. -/
def keepFragment (normalized : List String) (chunk : String) : List String :=
  let trimmed := Text.strip chunk
  if trimmed = "" ∨ trimmed ∈ normalized then normalized else normalized ++ [trimmed]

/-- `_normalize_text_fragments` -/
def normalizeTextFragments (chunks : List String) : String :=
  Text.strip ("\n".intercalate (chunks.foldl keepFragment []))

/-- The text that `normalize_completion_summary` returns; content that is missing has none. -/
def normalizeCompletionSummary (content : Option Json) : String :=
  normalizeTextFragments ((content.map collectTextLikeFields).getD [])

theorem normalizeCompletionSummary_not_blank {content : Option Json}
    (h : normalizeCompletionSummary content ≠ "") :
    Text.isBlank (normalizeCompletionSummary content) = false :=
  Text.isBlank_strip_of_ne h

/-- `result.get("content") if isinstance(result, Mapping) else None` -/
def contentOf : Json → Option Json
  | .obj fields => get? fields "content"
  | _ => none

/-! ## Incomplete answers -/

def DIAGNOSTIC_MAX_DEPTH : Nat := 4

def DIAGNOSTIC_MAX_ARRAY_ITEMS : Nat := 8

/-- The signals that an object carries itself. -/
def ownIncompleteSignals (fields : List (String × Json)) (label : String) : List String :=
  (match get? fields "status" with
    | some (.str status) =>
        if Text.isWord status "incomplete" then [label ++ ".status=incomplete"] else []
    | _ => []) ++
  (match get? fields "incomplete_details" with
    | some (.obj details) =>
        match get? details "reason" with
        | some (.str reason) =>
            if Text.strip reason = "" then [] else [label ++ ".reason=" ++ Text.strip reason]
        | _ => []
    | _ => [])

/-- `_collect_incomplete_response_signals`, with the levels that are left. -/
def collectIncompleteResponseSignals : Nat → String → Json → List String
  | 0, _, _ => []
  | levels + 1, label, .arr items =>
      ((items.take DIAGNOSTIC_MAX_ARRAY_ITEMS).zipIdx).flatMap fun entry =>
        collectIncompleteResponseSignals levels
          (label ++ "[" ++ toString entry.2 ++ "]") entry.1
  | levels + 1, label, .obj fields =>
      ownIncompleteSignals fields label ++
        ["content", "output", "message", "response", "items"].flatMap fun key =>
          match get? fields key with
          | some value => collectIncompleteResponseSignals levels (label ++ "." ++ key) value
          | none => []
  | _ + 1, _, _ => []

/-- `extract_incomplete_response_signals` -/
def extractIncompleteResponseSignals (value : Json) : List String :=
  (collectIncompleteResponseSignals DIAGNOSTIC_MAX_DEPTH "response" value).dedup.mergeSort

end LosslessHermes.Summarize
