import LosslessHermes.Assembler.Pairing
import Mathlib.Data.List.TakeWhile

/-!
# The turns of a message list

A message list is a leading part and its turns: the assistant messages, each with
what stands between it and the next one. `collectSpan_spec` says what the repair
collects behind a turn.
-/

namespace LosslessHermes.Assembler

open Json (get?)

/-! ## Turns -/

def isAssistant : Json → Bool :=
  blockSatisfies fun message => roleOf message = some "assistant"

def isToolResult : Json → Bool :=
  blockSatisfies fun message => roleOf message = some "toolResult"

/-- The id of the call that a tool result answers. -/
def resultId (entry : Json) : Option String :=
  match entry with
  | .obj message => if isToolResult (.obj message) then extractToolResultId message else none
  | _ => none

/-- The identifiable calls of a turn that did not fail. -/
def turnCalls (message : Message) : List ToolCall :=
  if isFailedStop message then [] else extractToolCallsFromAssistant message

def turnIds (message : Message) : List String :=
  (turnCalls message).map (·.id)

/-- What stands in front of the first assistant message. -/
def leading (entries : List Json) : List Json :=
  entries.takeWhile fun entry => !isAssistant entry

/-- The rest, from the first assistant message on. -/
def fromAssistant (entries : List Json) : List Json :=
  entries.dropWhile fun entry => !isAssistant entry

structure Turn where
  message : Message
  span : List Json

def turns : List Json → List Turn
  | [] => []
  | .obj message :: entries =>
      if isAssistant (.obj message) then
        { message := message, span := leading entries } :: turns entries
      else turns entries
  | _ :: entries => turns entries

def callIds (entries : List Json) : List String :=
  (turns entries).flatMap fun turn => turnIds turn.message

variable {entry : Json}

theorem turns_cons_of_not (h : isAssistant entry = false) (entries : List Json) :
    turns (entry :: entries) = turns entries := by
  cases entry with
  | obj message => rw [turns, if_neg (by rw [h]; simp)]
  | _ => rfl

theorem turns_cons {message : Message} (h : isAssistant (.obj message) = true)
    (entries : List Json) :
    turns (.obj message :: entries) = ⟨message, leading entries⟩ :: turns entries := by
  rw [turns, if_pos h]

variable {entries : List Json}

theorem turns_append_of_not (h : ∀ entry ∈ entries, isAssistant entry = false)
    (rest : List Json) : turns (entries ++ rest) = turns rest := by
  induction entries with
  | nil => rfl
  | cons entry entries ih =>
    rw [List.cons_append, turns_cons_of_not (h entry List.mem_cons_self)]
    exact ih fun found hFound => h found (List.mem_cons_of_mem _ hFound)

theorem leading_not (h : entry ∈ leading entries) :
    isAssistant entry = false := by
  simpa using List.mem_takeWhile_imp h

theorem leading_append (entries : List Json) : leading entries ++ fromAssistant entries = entries :=
  List.takeWhile_append_dropWhile

theorem turns_fromAssistant (entries : List Json) :
    turns (fromAssistant entries) = turns entries := by
  conv_rhs => rw [← leading_append entries]
  exact (turns_append_of_not (fun _ h => leading_not h) _).symm

theorem leading_fromAssistant (entries : List Json) : leading (fromAssistant entries) = [] := by
  unfold leading fromAssistant
  induction entries with
  | nil => rfl
  | cons entry entries ih =>
    cases h : isAssistant entry with
    | true => simp [h]
    | false => simpa [h] using ih

theorem exists_of_isAssistant (h : isAssistant entry = true) :
    ∃ message, entry = .obj message := by
  cases entry with
  | obj message => exact ⟨message, rfl⟩
  | _ => cases h

/-- A list is its leading part and its turns. -/
theorem turns_flatten (entries : List Json) :
    leading entries ++ (turns entries).flatMap (fun turn => .obj turn.message :: turn.span) =
      entries := by
  induction entries with
  | nil => rfl
  | cons entry entries ih =>
    cases h : isAssistant entry with
    | true =>
      obtain ⟨message, rfl⟩ := exists_of_isAssistant h
      have hLeading : leading (.obj message :: entries) = [] := by simp [leading, h]
      rw [turns_cons h, hLeading, List.nil_append, List.flatMap_cons, List.cons_append, ih]
    | false =>
      have hLeading : leading (entry :: entries) = entry :: leading entries := by
        simp [leading, h]
      rw [turns_cons_of_not h, hLeading, List.cons_append, ih]

theorem isAssistant_of_mem_turns {turn : Turn} (h : turn ∈ turns entries) :
    isAssistant (.obj turn.message) = true ∧ ∀ entry ∈ turn.span, isAssistant entry = false := by
  induction entries with
  | nil => cases h
  | cons entry entries ih =>
    cases hAssistant : isAssistant entry with
    | true =>
      obtain ⟨message, rfl⟩ := exists_of_isAssistant hAssistant
      rw [turns_cons hAssistant] at h
      rcases List.mem_cons.mp h with rfl | h
      · exact ⟨hAssistant, fun _ hEntry => leading_not hEntry⟩
      · exact ih h
    | false =>
      rw [turns_cons_of_not hAssistant] at h
      exact ih h

/-- The turns of a list that is put together from turns. -/
theorem turns_flatMap {α : Type} (f : α → Message) (g : α → List Json) (xs : List α)
    (hf : ∀ x ∈ xs, isAssistant (.obj (f x)) = true)
    (hg : ∀ x ∈ xs, ∀ entry ∈ g x, isAssistant entry = false) :
    leading (xs.flatMap fun x => .obj (f x) :: g x) = [] ∧
      turns (xs.flatMap fun x => .obj (f x) :: g x) = xs.map fun x => ⟨f x, g x⟩ := by
  induction xs with
  | nil => exact ⟨rfl, rfl⟩
  | cons x xs ih =>
    obtain ⟨hfx, hfs⟩ := List.forall_mem_cons.mp hf
    obtain ⟨hgx, hgs⟩ := List.forall_mem_cons.mp hg
    obtain ⟨hLeading, hTurns⟩ := ih hfs hgs
    have hSpan : leading (g x ++ xs.flatMap fun x => .obj (f x) :: g x) = g x := by
      have hNot : ∀ entry ∈ g x, (!isAssistant entry) = true := fun entry hEntry => by
        rw [hgx entry hEntry]
        rfl
      unfold leading
      rw [List.takeWhile_append_of_pos hNot]
      exact (congrArg (g x ++ ·) hLeading).trans (List.append_nil _)
    refine ⟨by simp [leading, hfx], ?_⟩
    rw [List.flatMap_cons, List.cons_append, turns_cons hfx, hSpan, turns_append_of_not hgx,
      hTurns, List.map_cons]

theorem leading_append_of_not
    (h : ∀ entry ∈ entries, isAssistant entry = false) (rest : List Json) :
    leading (entries ++ rest) = entries ++ leading rest :=
  List.takeWhile_append_of_pos fun entry hEntry => by rw [h entry hEntry]; rfl

theorem isAssistant_of_isToolResult (h : isToolResult entry = true) :
    isAssistant entry = false := by
  cases entry with
  | obj message =>
    have hRole : roleOf message = some "toolResult" := by
      simpa [isToolResult, blockSatisfies] using h
    simp [isAssistant, blockSatisfies, hRole]
  | _ => rfl

variable {id : String}

theorem isToolResult_of_resultId (h : resultId entry = some id) :
    isToolResult entry = true := by
  cases entry with
  | obj message =>
    by_contra hNot
    rw [resultId, if_neg hNot] at h
    cases h
  | _ => cases h

/-! ## The span behind a turn -/

/-- The first result for a call. -/
def resultFor (span : List Json) (id : String) : Option Json :=
  span.find? fun entry => resultId entry = some id

/-- The results that the repair puts behind a turn. -/
def answer (span : List Json) (call : ToolCall) : Json :=
  (resultFor span call.id).getD (.obj (makeMissingToolResult call))

/-- Whether a result in a span belongs to one of these calls and to no earlier one. -/
def isAccepted (callIds seen : List String) (entry : Json) : Bool :=
  (resultId entry).any fun id => callIds.contains id && !seen.contains id

theorem resultFor_cons (entry : Json) (span : List Json) (id : String) :
    resultFor (entry :: span) id =
      if resultId entry = some id then some entry else resultFor span id := by
  unfold resultFor
  by_cases h : resultId entry = some id
  · rw [if_pos h, List.find?_cons_of_pos (by simpa using h)]
  · rw [if_neg h, List.find?_cons_of_neg (by simpa using h)]

theorem resultId_of_resultFor {span : List Json}
    (h : resultFor span id = some entry) : resultId entry = some id := by
  simpa using List.find?_some h

/-- What the scan of a span collects for a call. -/
def collected (callIds seen : List String) (span : List Json) (id : String) : Option Json :=
  if callIds.contains id && !seen.contains id then resultFor span id else none

structure SpanSpec (callIds seen : List String) (results : List (String × Message))
    (entries : List Json) (span : Span) : Prop where
  remainder : span.remainder = (leading entries).filter fun entry => !isToolResult entry
  rest : span.rest = fromAssistant entries
  dropped : span.dropped = (leading entries).any fun entry =>
    isToolResult entry && !isAccepted callIds seen entry
  results : ∀ id, (span.results.lookup id).map Json.obj =
    ((results.lookup id).map Json.obj).or (collected callIds seen (leading entries) id)

theorem resultId_eq_none (h : isToolResult entry = false) :
    resultId entry = none := by
  cases hId : resultId entry with
  | none => rfl
  | some id =>
    rw [isToolResult_of_resultId hId] at h
    cases h

variable {callIds seen : List String}

theorem collected_cons_of_not
    (h : isAccepted callIds seen entry = false) (span : List Json) (id : String) :
    collected callIds seen (entry :: span) id = collected callIds seen span id := by
  unfold collected
  split
  · rename_i hWanted
    rw [resultFor_cons, if_neg]
    intro hId
    rw [isAccepted, hId, Option.any_some, hWanted] at h
    cases h
  · rfl

theorem collected_cons_of_accepted
    (hId : resultId entry = some id) (hAccepted : isAccepted callIds seen entry = true)
    (span : List Json) (found : String) :
    collected callIds seen (entry :: span) found =
      if found = id then some entry else collected callIds seen span found := by
  rw [isAccepted, hId, Option.any_some] at hAccepted
  by_cases hEq : found = id
  · rw [if_pos hEq, hEq, collected, if_pos hAccepted, resultFor_cons, if_pos hId]
  · have hNe : resultId entry ≠ some found := by
      rw [hId]
      exact fun h => hEq (Option.some.inj h).symm
    rw [if_neg hEq, collected, resultFor_cons, if_neg hNe, collected]

theorem SpanSpec.keep {results : List (String × Message)} {span : Span}
    (h : SpanSpec callIds seen results entries span)
    (hAssistant : isAssistant entry = false) (hResult : isToolResult entry = false) :
    SpanSpec callIds seen results (entry :: entries)
      { span with remainder := entry :: span.remainder } := by
  have hLeading : leading (entry :: entries) = entry :: leading entries := by
    simp [leading, hAssistant]
  have hAccepted : isAccepted callIds seen entry = false := by
    rw [isAccepted, resultId_eq_none hResult]
    rfl
  refine ⟨?_, ?_, ?_, fun id => ?_⟩
  · rw [hLeading, List.filter_cons_of_pos (by rw [hResult]; rfl), h.remainder]
  · rw [h.rest]
    simp [fromAssistant, hAssistant]
  · rw [hLeading, List.any_cons, hResult, Bool.false_and, Bool.false_or]
    exact h.dropped
  · rw [hLeading, collected_cons_of_not hAccepted]
    exact h.results id

/-- A result that is stepped over. -/
theorem SpanSpec.skip {results results' : List (String × Message)} {span : Span}
    (h : SpanSpec callIds seen results' entries span) (hResult : isToolResult entry = true)
    {dropped : Bool} (hDropped : dropped = (!isAccepted callIds seen entry || span.dropped))
    (hResults : ∀ id, ((results'.lookup id).map Json.obj).or
        (collected callIds seen (leading entries) id) = ((results.lookup id).map Json.obj).or
        (collected callIds seen (entry :: leading entries) id)) :
    SpanSpec callIds seen results (entry :: entries) { span with dropped := dropped } := by
  have hAssistant := isAssistant_of_isToolResult hResult
  have hLeading : leading (entry :: entries) = entry :: leading entries := by
    simp [leading, hAssistant]
  refine ⟨?_, ?_, ?_, fun id => ?_⟩
  · rw [hLeading, List.filter_cons_of_neg (by rw [hResult]; simp)]
    exact h.remainder
  · rw [h.rest]
    simp [fromAssistant, hAssistant]
  · rw [hLeading, List.any_cons, hResult, Bool.true_and, ← h.dropped]
    exact hDropped
  · rw [hLeading]
    exact (h.results id).trans (hResults id)

theorem collectSpan_spec (callIds seen : List String) (results : List (String × Message))
    (entries : List Json) :
    SpanSpec callIds seen results entries (collectSpan callIds seen results entries) := by
  induction entries generalizing results with
  | nil =>
    refine ⟨rfl, rfl, rfl, fun id => ?_⟩
    have hNone : collected callIds seen (leading []) id = none := by
      unfold collected
      split <;> rfl
    rw [hNone, Option.or_none]
    rfl
  | cons entry entries ih =>
    cases entry with
    | obj message =>
      rw [collectSpan]
      split
      · rename_i hRole
        have hAssistant : isAssistant (.obj message) = true := by
          simpa [isAssistant, blockSatisfies] using hRole
        have hLeading : leading (.obj message :: entries) = [] := by simp [leading, hAssistant]
        refine ⟨by rw [hLeading]; rfl, by simp [fromAssistant, hAssistant],
          by rw [hLeading]; rfl, fun id => ?_⟩
        have hNone : collected callIds seen [] id = none := by
          unfold collected
          split <;> rfl
        rw [hLeading, hNone, Option.or_none]
      · rename_i hAssistantRole
        have hAssistant : isAssistant (.obj message) = false := by
          simpa [isAssistant, blockSatisfies] using hAssistantRole
        split
        · rename_i hRole
          have hResult : isToolResult (.obj message) = true := by
            simpa [isToolResult, blockSatisfies] using hRole
          have hId : resultId (.obj message) = extractToolResultId message := if_pos hResult
          have hDrop : isAccepted callIds seen (.obj message) = false →
              SpanSpec callIds seen results (.obj message :: entries)
                { collectSpan callIds seen results entries with dropped := true } := by
            intro hAccepted
            refine (ih results).skip hResult (by rw [hAccepted]; rfl) fun id => ?_
            rw [collected_cons_of_not hAccepted]
          split
          · rename_i id hExtract
            rw [hExtract] at hId
            split
            · rename_i hCall
              split
              · rename_i hSeen
                exact hDrop (by rw [isAccepted, hId, Option.any_some, hCall, hSeen]; rfl)
              · rename_i hSeen
                have hAccepted : isAccepted callIds seen (.obj message) = true := by
                  rw [isAccepted, hId, Option.any_some, hCall, Bool.eq_false_iff.mpr hSeen]
                  rfl
                have hCons := collected_cons_of_accepted hId hAccepted (leading entries)
                split
                · rename_i hFound
                  refine (ih results).skip hResult (by rw [hAccepted]; rfl) fun found => ?_
                  rw [hCons]
                  split
                  · rename_i hEq
                    obtain ⟨first, hFirst⟩ := Option.isSome_iff_exists.mp hFound
                    rw [hEq, hFirst]
                    rfl
                  · rfl
                · rename_i hMissing
                  have hNone : results.lookup id = none :=
                    Option.not_isSome_iff_eq_none.mp hMissing
                  refine (ih (results ++ [(id, message)])).skip hResult
                    (by rw [hAccepted]; rfl) fun found => ?_
                  rw [hCons, List.lookup_append]
                  by_cases hEq : found = id
                  · simp [hEq, hNone]
                  · have hBeq : (found == id) = false := beq_false_of_ne hEq
                    simp [hEq, List.lookup_cons, hBeq]
            · rename_i hCall
              exact hDrop (by
                rw [isAccepted, hId, Option.any_some, Bool.eq_false_iff.mpr hCall]
                rfl)
          · rename_i hExtract
            rw [hExtract] at hId
            exact hDrop (by rw [isAccepted, hId]; rfl)
        · rename_i hRole
          have hResult : isToolResult (.obj message) = false := by
            simpa [isToolResult, blockSatisfies] using hRole
          exact (ih results).keep hAssistant hResult
    | _ => exact (ih results).keep rfl rfl

end LosslessHermes.Assembler
