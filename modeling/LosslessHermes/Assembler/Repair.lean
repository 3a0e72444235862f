import LosslessHermes.Assembler.Turns

/-!
# The loop of the pairing repair

What the loop does with one turn, and from that with a whole list:
`sanitizeLoop_changed` says when the flag for a change stays unset,
`sanitizeLoop_out` what the list becomes where no two calls have one id, and
`sanitizeLoop_distinct` that it never keeps two results for a call.
-/

namespace LosslessHermes.Assembler

open Json (get?)

/-! ## The results behind a turn -/

/-- No call has two results in the repaired part, and every answered one is noted. -/
structure Repair.Distinct (repair : Repair) : Prop where
  nodup : (repair.out.filterMap resultId).Nodup
  noted : ∀ id ∈ repair.out.filterMap resultId, id ∈ repair.seenToolResultIds

/-- The collected results stand under the ids that they answer. -/
def Keyed (results : List (String × Message)) : Prop :=
  ∀ id message, results.lookup id = some message → resultId (.obj message) = some id

variable {message : Message} {id : String}

theorem extractToolResultId_of_resultId
    (h : resultId (.obj message) = some id) : extractToolResultId message = some id := by
  have hEq : resultId (.obj message) = extractToolResultId message :=
    if_pos (isToolResult_of_resultId h)
  rw [← hEq, h]

variable {call : ToolCall}

theorem resultId_missing (h : call.id ≠ "") :
    resultId (.obj (makeMissingToolResult call)) = some call.id := by
  have hResult : isToolResult (.obj (makeMissingToolResult call)) = true := rfl
  have hId : extractToolResultId (makeMissingToolResult call) =
      safeString (some (.str call.id)) := by
    unfold extractToolResultId firstString
    rw [List.findSome?_cons]
    have hGet : get? (makeMissingToolResult call) "toolCallId" = some (.str call.id) := rfl
    rw [hGet]
    simp [safeString, h]
  rw [resultId, if_pos hResult, hId, safeString, if_neg h]

/-- The result that is pushed for a call. -/
def pushed (results : List (String × Message)) (call : ToolCall) : Message :=
  (results.lookup call.id).getD (makeMissingToolResult call)

theorem resultId_pushed {results : List (String × Message)} (hKeyed : Keyed results)
    (h : call.id ≠ "") :
    resultId (.obj (pushed results call)) = some call.id := by
  unfold pushed
  cases hFound : results.lookup call.id with
  | none => exact resultId_missing h
  | some message => exact hKeyed _ _ hFound

/-- The ids that have been answered, with one more. -/
def noteId (seen : List String) (id : String) : List String :=
  if id ∈ seen then seen else id :: seen

variable {seen : List String}

theorem mem_noteId {found : String} :
    found ∈ noteId seen id ↔ found ∈ seen ∨ found = id := by
  unfold noteId
  split
  · rename_i hMem
    constructor
    · exact Or.inl
    · rintro (h | rfl)
      · exact h
      · exact hMem
  · rw [List.mem_cons, or_comm]

/-- The calls whose id has not been answered before. -/
def firstCalls : List String → List ToolCall → List ToolCall
  | _, [] => []
  | seen, call :: calls =>
      if call.id ∈ seen then firstCalls seen calls
      else call :: firstCalls (call.id :: seen) calls

theorem mem_firstCalls {calls : List ToolCall}
    (h : call ∈ firstCalls seen calls) : call ∈ calls ∧ call.id ∉ seen := by
  induction calls generalizing seen with
  | nil => cases h
  | cons first calls ih =>
    rw [firstCalls] at h
    split at h
    · exact ⟨List.mem_cons_of_mem _ (ih h).1, (ih h).2⟩
    · rename_i hNew
      rcases List.mem_cons.mp h with rfl | h
      · exact ⟨List.mem_cons_self, hNew⟩
      · obtain ⟨hCall, hApart⟩ := ih h
        exact ⟨List.mem_cons_of_mem _ hCall, fun hMem => hApart (List.mem_cons_of_mem _ hMem)⟩

theorem firstCalls_nodup (seen : List String) (calls : List ToolCall) :
    ((firstCalls seen calls).map (·.id)).Nodup := by
  induction calls generalizing seen with
  | nil => exact List.nodup_nil
  | cons call calls ih =>
    rw [firstCalls]
    split
    · exact ih seen
    · rw [List.map_cons, List.nodup_cons]
      refine ⟨fun hMem => ?_, ih _⟩
      obtain ⟨other, hOther, hEq⟩ := List.mem_map.mp hMem
      exact (mem_firstCalls hOther).2 (hEq ▸ List.mem_cons_self)

theorem firstCalls_eq_self {calls : List ToolCall}
    (hNodup : (calls.map (·.id)).Nodup) (hNew : ∀ id ∈ calls.map (·.id), id ∉ seen) :
    firstCalls seen calls = calls := by
  induction calls generalizing seen with
  | nil => rfl
  | cons call calls ih =>
    rw [List.map_cons] at hNodup hNew
    obtain ⟨hFresh, hNodup⟩ := List.nodup_cons.mp hNodup
    obtain ⟨hHead, hTail⟩ := List.forall_mem_cons.mp hNew
    rw [firstCalls, if_neg hHead, ih hNodup fun id hId hMem => ?_]
    rcases List.mem_cons.mp hMem with rfl | hMem
    · exact hFresh hId
    · exact hTail id hId hMem

/-- One call: its result, unless the id has been seen. -/
def Repair.pushCall (results : List (String × Message)) (repair : Repair) (call : ToolCall) :
    Repair :=
  (if (results.lookup call.id).isSome then repair else repair.change).pushToolResult
    (pushed results call)

theorem Repair.pushResults_cons (results : List (String × Message)) (repair : Repair)
    (call : ToolCall) (calls : List ToolCall) :
    Repair.pushResults results repair (call :: calls) =
      Repair.pushResults results (repair.pushCall results call) calls := by
  rw [pushResults, pushCall, pushed]
  cases results.lookup call.id <;> rfl

section Push

variable {results : List (String × Message)} (hKeyed : Keyed results)

include hKeyed

variable {call : ToolCall}

theorem Repair.pushCall_noted (repair : Repair) (hCall : call.id ≠ "") :
    (repair.pushCall results call).seenToolResultIds =
      noteId repair.seenToolResultIds call.id := by
  have hId := extractToolResultId_of_resultId (resultId_pushed hKeyed hCall)
  have hSeen : (if (results.lookup call.id).isSome then repair
      else repair.change).seenToolResultIds = repair.seenToolResultIds := by
    split <;> rfl
  unfold pushCall pushToolResult noteId
  rw [hId]
  dsimp only
  rw [hSeen]
  by_cases hMem : call.id ∈ repair.seenToolResultIds
  · rw [if_pos (List.contains_iff_mem.mpr hMem), if_pos hMem]
    exact hSeen
  · rw [if_neg (mt List.contains_iff_mem.mp hMem), if_neg hMem]

theorem Repair.pushCall_seen (repair : Repair) (hCall : call.id ≠ "")
    (id : String) : id ∈ (repair.pushCall results call).seenToolResultIds ↔
      id ∈ repair.seenToolResultIds ∨ id = call.id := by
  rw [pushCall_noted hKeyed repair hCall, mem_noteId]

theorem Repair.pushCall_changed (repair : Repair) (hCall : call.id ≠ "") :
    (repair.pushCall results call).changed = false ↔ repair.changed = false ∧
      call.id ∉ repair.seenToolResultIds ∧ (results.lookup call.id).isSome = true := by
  have hId := extractToolResultId_of_resultId (resultId_pushed hKeyed hCall)
  unfold pushCall pushToolResult
  rw [hId]
  cases hFound : (results.lookup call.id).isSome with
  | true =>
    simp only [if_true, and_true]
    split
    · rename_i hContains
      simp [change, List.contains_iff_mem.mp hContains]
    · rename_i hContains
      simp [push, mt List.contains_iff_mem.mpr hContains]
  | false =>
    simp only [Bool.false_eq_true, if_false, and_false, iff_false]
    split <;> simp [change, push]

theorem Repair.pushCall_out (repair : Repair) (hCall : call.id ≠ "") :
    (repair.pushCall results call).out =
      if call.id ∈ repair.seenToolResultIds then repair.out
      else repair.out ++ [.obj (pushed results call)] := by
  have hId := extractToolResultId_of_resultId (resultId_pushed hKeyed hCall)
  have hSame : (if (results.lookup call.id).isSome then repair else repair.change).out =
      repair.out ∧ (if (results.lookup call.id).isSome then repair
        else repair.change).seenToolResultIds = repair.seenToolResultIds := by
    split <;> exact ⟨rfl, rfl⟩
  unfold pushCall pushToolResult
  rw [hId]
  dsimp only
  rw [hSame.2]
  by_cases hMem : call.id ∈ repair.seenToolResultIds
  · rw [if_pos (List.contains_iff_mem.mpr hMem), if_pos hMem]
    exact hSame.1
  · rw [if_neg (mt List.contains_iff_mem.mp hMem), if_neg hMem]
    exact congrArg (· ++ [Json.obj (pushed results call)]) hSame.1

theorem Repair.Distinct.pushCall {repair : Repair} (h : repair.Distinct)
    (hCall : call.id ≠ "") : (repair.pushCall results call).Distinct := by
  have hSeen := Repair.pushCall_seen hKeyed repair hCall
  have hOut := Repair.pushCall_out hKeyed repair hCall
  by_cases hMem : call.id ∈ repair.seenToolResultIds
  · rw [if_pos hMem] at hOut
    refine ⟨hOut ▸ h.nodup, fun id hId => (hSeen id).mpr (Or.inl (h.noted id ?_))⟩
    rw [hOut] at hId
    exact hId
  · rw [if_neg hMem] at hOut
    have hIds : (repair.pushCall results call).out.filterMap resultId =
        repair.out.filterMap resultId ++ [call.id] := by
      rw [hOut, List.filterMap_append, List.filterMap_cons, resultId_pushed hKeyed hCall]
      rfl
    refine ⟨?_, fun id hId => ?_⟩
    · rw [hIds, List.nodup_append]
      refine ⟨h.nodup, List.nodup_singleton _, fun id hId id' hId' => ?_⟩
      rw [List.mem_singleton.mp hId']
      rintro rfl
      exact hMem (h.noted _ hId)
    · rw [hIds] at hId
      rcases List.mem_append.mp hId with hId | hId
      · exact (hSeen id).mpr (Or.inl (h.noted id hId))
      · exact (hSeen id).mpr (Or.inr (List.mem_singleton.mp hId))

theorem Repair.pushResults_seen (repair : Repair) (calls : List ToolCall)
    (hCalls : ∀ call ∈ calls, call.id ≠ "") (id : String) :
    id ∈ (Repair.pushResults results repair calls).seenToolResultIds ↔
      id ∈ repair.seenToolResultIds ∨ id ∈ calls.map (·.id) := by
  induction calls generalizing repair with
  | nil => simp [pushResults]
  | cons call calls ih =>
    rw [pushResults_cons, ih _ fun other h => hCalls other (List.mem_cons_of_mem _ h),
      pushCall_seen hKeyed repair (hCalls call List.mem_cons_self), List.map_cons, List.mem_cons,
      or_assoc]

theorem Repair.pushResults_changed (repair : Repair) (calls : List ToolCall)
    (hCalls : ∀ call ∈ calls, call.id ≠ "") :
    (Repair.pushResults results repair calls).changed = false ↔ repair.changed = false ∧
      (calls.map (·.id)).Nodup ∧ (∀ id ∈ calls.map (·.id), id ∉ repair.seenToolResultIds) ∧
      ∀ call ∈ calls, (results.lookup call.id).isSome = true := by
  induction calls generalizing repair with
  | nil => simp [pushResults]
  | cons call calls ih =>
    have hCall := hCalls call List.mem_cons_self
    have hSeen := pushCall_seen hKeyed repair hCall
    rw [pushResults_cons, ih _ fun other h => hCalls other (List.mem_cons_of_mem _ h),
      pushCall_changed hKeyed repair hCall, List.map_cons, List.nodup_cons, List.forall_mem_cons,
      List.forall_mem_cons]
    constructor
    · rintro ⟨⟨hChanged, hNew, hFound⟩, hNodup, hDisjoint, hRest⟩
      refine ⟨hChanged, ⟨fun hMem => ?_, hNodup⟩, ⟨hNew, fun id hId hMem => ?_⟩, hFound, hRest⟩
      · exact hDisjoint _ hMem ((hSeen _).mpr (Or.inr rfl))
      · exact hDisjoint _ hId ((hSeen _).mpr (Or.inl hMem))
    · rintro ⟨hChanged, ⟨hFresh, hNodup⟩, ⟨hNew, hDisjoint⟩, hFound, hRest⟩
      refine ⟨⟨hChanged, hNew, hFound⟩, hNodup, fun id hId hMem => ?_, hRest⟩
      rcases (hSeen id).mp hMem with hMem | rfl
      · exact hDisjoint id hId hMem
      · exact hFresh hId

theorem Repair.pushResults_noted (repair : Repair) (calls : List ToolCall)
    (hCalls : ∀ call ∈ calls, call.id ≠ "") :
    (Repair.pushResults results repair calls).seenToolResultIds =
      (calls.map (·.id)).foldl noteId repair.seenToolResultIds := by
  induction calls generalizing repair with
  | nil => rfl
  | cons call calls ih =>
    rw [pushResults_cons, ih _ fun other h => hCalls other (List.mem_cons_of_mem _ h),
      pushCall_noted hKeyed repair (hCalls call List.mem_cons_self)]
    rfl

theorem Repair.pushResults_out (repair : Repair) (calls : List ToolCall)
    (hCalls : ∀ call ∈ calls, call.id ≠ "") :
    (Repair.pushResults results repair calls).out = repair.out ++
      (firstCalls repair.seenToolResultIds calls).map fun call => .obj (pushed results call) := by
  induction calls generalizing repair with
  | nil => simp [pushResults, firstCalls]
  | cons call calls ih =>
    have hCall := hCalls call List.mem_cons_self
    rw [pushResults_cons, ih _ fun other h => hCalls other (List.mem_cons_of_mem _ h),
      pushCall_noted hKeyed repair hCall, pushCall_out hKeyed repair hCall, firstCalls, noteId]
    by_cases hMem : call.id ∈ repair.seenToolResultIds
    · rw [if_pos hMem, if_pos hMem, if_pos hMem]
    · rw [if_neg hMem, if_neg hMem, if_neg hMem, List.map_cons, List.append_assoc,
        List.singleton_append]

theorem Repair.Distinct.pushResults {repair : Repair} (h : repair.Distinct) (calls : List ToolCall)
    (hCalls : ∀ call ∈ calls, call.id ≠ "") : (repair.pushResults results calls).Distinct := by
  induction calls generalizing repair with
  | nil => exact h
  | cons call calls ih =>
    rw [Repair.pushResults_cons]
    exact ih (h.pushCall hKeyed (hCalls call List.mem_cons_self))
      fun other hOther => hCalls other (List.mem_cons_of_mem _ hOther)

end Push

/-! ## The turn that is pushed -/

def normalized (message : Message) : Message :=
  (normalizeAssistantReasoningBlocks message).getD message

theorem normalized_cases (message : Message) :
    normalized message = message ∨
      ∃ content, get? message "content" = some (.arr content) ∧
        normalized message = Json.setField message "content"
          (.arr (content.filter (blockSatisfies isReasoningBlock) ++
            content.filter (blockSatisfies isToolCallBlock))) := by
  unfold normalized normalizeAssistantReasoningBlocks
  split
  · rename_i content hContent
    split
    · split
      · exact Or.inr ⟨content, hContent, rfl⟩
      · exact Or.inl rfl
    · exact Or.inl rfl
  · exact Or.inl rfl

theorem get?_normalized (message : Message) {key : String} (h : key ≠ "content") :
    get? (normalized message) key = get? message key := by
  rcases normalized_cases message with hEq | ⟨content, -, hEq⟩
  · rw [hEq]
  · rw [hEq, Json.get?_setField_of_ne _ h]

theorem roleOf_normalized (message : Message) : roleOf (normalized message) = roleOf message := by
  unfold roleOf
  rw [get?_normalized _ (by decide)]

theorem isAssistant_normalized (message : Message) :
    isAssistant (.obj (normalized message)) = isAssistant (.obj message) := by
  simp only [isAssistant, blockSatisfies, roleOf_normalized]

theorem isToolCallBlock_of_isReasoningBlock {block : Message} (h : isReasoningBlock block = true) :
    isToolCallBlock block = false := by
  unfold isReasoningBlock at h
  unfold isToolCallBlock
  simp only [Bool.or_eq_true, decide_eq_true_eq] at h
  rcases h with h | h <;> rw [h] <;> decide

theorem filterMap_filter_of_none {α β : Type} {f : α → Option β} {p : α → Bool}
    (h : ∀ x, p x = false → f x = none) (xs : List α) :
    (xs.filter p).filterMap f = xs.filterMap f := by
  induction xs with
  | nil => rfl
  | cons x xs ih =>
    cases hx : p x with
    | true => rw [List.filter_cons_of_pos hx, List.filterMap_cons, List.filterMap_cons, ih]
    | false =>
      rw [List.filter_cons_of_neg (by rw [hx]; simp), ih, List.filterMap_cons, h x hx]

/-- Reasoning that is moved in front of a call leaves the calls. -/
theorem turnCalls_normalized (message : Message) :
    turnCalls (normalized message) = turnCalls message := by
  have hFailed : isFailedStop (normalized message) = isFailedStop message := by
    unfold isFailedStop
    rw [get?_normalized _ (by decide)]
  have hCalls : extractToolCallsFromAssistant (normalized message) =
      extractToolCallsFromAssistant message := by
    rcases normalized_cases message with hEq | ⟨content, hContent, hEq⟩
    · rw [hEq]
    · unfold extractToolCallsFromAssistant
      rw [hEq, Json.get?_setField_self, hContent]
      dsimp only
      rw [List.filterMap_append,
        @filterMap_filter_of_none _ _ _ (blockSatisfies isToolCallBlock),
        List.filterMap_eq_nil_iff.mpr,
        List.nil_append]
      · intro block hBlock
        have hReasoning := (List.mem_filter.mp hBlock).2
        cases block with
        | obj fields =>
          dsimp only
          rw [isToolCallBlock_of_isReasoningBlock hReasoning]
          rfl
        | _ => rfl
      · intro block hNot
        cases block with
        | obj fields =>
          have hBlock : isToolCallBlock fields = false := hNot
          dsimp only
          rw [hBlock]
          rfl
        | _ => rfl
  unfold turnCalls
  rw [hFailed, hCalls]

theorem turnCalls_id_ne (h : call ∈ turnCalls message) :
    call.id ≠ "" := by
  unfold turnCalls at h
  split at h
  · cases h
  · unfold extractToolCallsFromAssistant at h
    split at h
    · obtain ⟨block, -, hBlock⟩ := List.mem_filterMap.mp h
      split at hBlock
      · split at hBlock
        · obtain ⟨id, hId, rfl⟩ := Option.map_eq_some_iff.mp hBlock
          obtain ⟨key, -, hKey⟩ := List.exists_of_findSome?_eq_some hId
          unfold safeString at hKey
          split at hKey
          · split at hKey
            · cases hKey
            · rename_i hNe
              cases hKey
              exact hNe
          · cases hKey
        · cases hBlock
      · cases hBlock
    · cases h

/-- What a turn becomes: the message, the results of its calls and the rest of the
span. -/
def repairedSpan (turn : Turn) : List Json :=
  (turnCalls turn.message).map (answer turn.span) ++
    turn.span.filter fun entry => !isToolResult entry

def repairedTurn (turn : Turn) : List Json :=
  .obj (normalized turn.message) :: repairedSpan turn

/-- The repaired list, where no two calls have one id. -/
def repaired (messages : List Json) : List Json :=
  (leading messages).filter (fun entry => !isToolResult entry) ++
    (turns messages).flatMap repairedTurn

/-- What a turn becomes where `seen` has the ids that have been answered. -/
def rebuiltTurn (seen : List String) (turn : Turn) : List Json :=
  .obj (normalized turn.message) ::
    ((firstCalls seen (turnCalls turn.message)).map (answer turn.span) ++
      turn.span.filter fun entry => !isToolResult entry)

def rebuiltTurns : List String → List Turn → List Json
  | _, [] => []
  | seen, turn :: rest =>
      rebuiltTurn seen turn ++ rebuiltTurns ((turnIds turn.message).foldl noteId seen) rest

theorem mem_foldl_noteId {ids : List String} :
    id ∈ ids.foldl noteId seen ↔ id ∈ seen ∨ id ∈ ids := by
  induction ids generalizing seen with
  | nil => simp
  | cons first ids ih => rw [List.foldl_cons, ih, mem_noteId, List.mem_cons, or_assoc]

/-- Where no two calls have one id, every turn is answered in full. -/
theorem rebuiltTurns_of_nodup {found : List Turn}
    (hNodup : (found.flatMap fun turn => turnIds turn.message).Nodup)
    (hNew : ∀ id ∈ found.flatMap fun turn => turnIds turn.message, id ∉ seen) :
    rebuiltTurns seen found = found.flatMap repairedTurn := by
  induction found generalizing seen with
  | nil => rfl
  | cons turn rest ih =>
    rw [List.flatMap_cons] at hNodup hNew
    obtain ⟨hTurn, hRest, hApart⟩ := List.nodup_append.mp hNodup
    have hSelf := firstCalls_eq_self hTurn fun id hId => hNew id (List.mem_append_left _ hId)
    rw [rebuiltTurns, ih hRest fun id hId hMem => ?_, rebuiltTurn, hSelf, List.flatMap_cons]
    · rfl
    · rcases mem_foldl_noteId.mp hMem with hMem | hMem
      · exact hNew id (List.mem_append_right _ hId) hMem
      · exact hApart id hMem id hId rfl

/-- The repair in front of the results of a turn. -/
def Repair.pushTurn (repair : Repair) (message : Message) (span : Span) : Repair :=
  let pushed := (if span.dropped then repair.change else repair).push (.obj message)
  if !span.results.isEmpty && !span.remainder.isEmpty then pushed.change else pushed

theorem Repair.pushTurn_spec (repair : Repair) (message : Message) (span : Span) :
    (repair.pushTurn message span).out = repair.out ++ [.obj message] ∧
      (repair.pushTurn message span).seenToolResultIds = repair.seenToolResultIds ∧
      (repair.pushTurn message span).changed =
        (repair.changed || span.dropped || (!span.results.isEmpty && !span.remainder.isEmpty)) := by
  unfold pushTurn
  cases span.dropped <;> cases !span.results.isEmpty && !span.remainder.isEmpty <;>
    simp [push, change]

theorem Repair.pushCalls_eq (repair : Repair) (message : Message) (calls : List ToolCall)
    (span : Span) : repair.pushCalls message calls span =
      { Repair.pushResults span.results (repair.pushTurn message span) calls with
        out := (Repair.pushResults span.results (repair.pushTurn message span) calls).out ++
          span.remainder } := rfl

section Span

variable {ids seen : List String} {entries : List Json} {span : Span}
  (hSpan : SpanSpec ids seen [] entries span)

include hSpan

theorem SpanSpec.lookup (id : String) :
    (span.results.lookup id).map Json.obj = collected ids seen (Assembler.leading entries) id := by
  have hLookup := hSpan.results id
  simpa using hLookup

theorem SpanSpec.keyed : Keyed span.results := by
  intro id message hFound
  have hLookup := hSpan.lookup id
  rw [hFound, Option.map_some, collected] at hLookup
  split at hLookup
  · exact resultId_of_resultFor hLookup.symm
  · cases hLookup

theorem SpanSpec.lookup_of_new {id : String} (hId : id ∈ ids) (hNew : id ∉ seen) :
    (span.results.lookup id).map Json.obj = resultFor (Assembler.leading entries) id := by
  rw [hSpan.lookup, collected, if_pos]
  rw [List.contains_iff_mem.mpr hId, Bool.true_and, Bool.not_eq_true', Bool.eq_false_iff]
  exact mt List.contains_iff_mem.mp hNew

theorem SpanSpec.pushed_eq_answer {call : ToolCall} (hId : call.id ∈ ids) (hNew : call.id ∉ seen) :
    Json.obj (pushed span.results call) = answer (Assembler.leading entries) call := by
  rw [answer, ← hSpan.lookup_of_new hId hNew, pushed]
  cases span.results.lookup call.id <;> rfl

theorem SpanSpec.dropped_eq_false (hNew : ∀ id ∈ ids, id ∉ seen) :
    span.dropped = false ↔ ∀ entry ∈ Assembler.leading entries, isToolResult entry = true →
      ∃ id ∈ ids, resultId entry = some id := by
  rw [hSpan.dropped, List.any_eq_false]
  refine forall₂_congr fun entry _ => ?_
  have hAccepted : isAccepted ids seen entry = true ↔ ∃ id ∈ ids, resultId entry = some id := by
    unfold isAccepted
    rw [Option.any_eq_true]
    constructor
    · rintro ⟨id, hId, hWanted⟩
      rw [Bool.and_eq_true] at hWanted
      exact ⟨id, List.contains_iff_mem.mp hWanted.1, hId⟩
    · rintro ⟨id, hMem, hId⟩
      refine ⟨id, hId, ?_⟩
      rw [List.contains_iff_mem.mpr hMem, Bool.true_and, Bool.not_eq_true', Bool.eq_false_iff]
      exact mt List.contains_iff_mem.mp (hNew id hMem)
  rw [← hAccepted]
  cases isToolResult entry <;> simp

theorem SpanSpec.found_iff {id : String} (hId : id ∈ ids) (hNew : id ∉ seen) :
    (span.results.lookup id).isSome = true ↔
      ∃ entry ∈ Assembler.leading entries, resultId entry = some id := by
  have hSome : (span.results.lookup id).isSome =
      (resultFor (Assembler.leading entries) id).isSome := by
    rw [← hSpan.lookup_of_new hId hNew, Option.isSome_map]
  rw [hSome, resultFor, List.find?_isSome]
  simp

theorem SpanSpec.remainder_eq_nil : span.remainder = [] ↔
    ∀ entry ∈ Assembler.leading entries, isToolResult entry = true := by
  rw [hSpan.remainder, List.filter_eq_nil_iff]
  simp

end Span

/-- The repair has nothing to do for a turn that would set its flag. -/
structure Settled (turn : Turn) : Prop where
  reasoning : normalizeAssistantReasoningBlocks turn.message = none
  owned : ∀ entry ∈ turn.span, isToolResult entry = true →
    ∃ id ∈ turnIds turn.message, resultId entry = some id
  unmixed : turnIds turn.message ≠ [] → ∀ entry ∈ turn.span, isToolResult entry = true
  answered : ∀ id ∈ turnIds turn.message, ∃ entry ∈ turn.span, resultId entry = some id

/-- The repair has nothing to do that would set its flag. -/
structure NeedsNoRepair (messages : List Json) : Prop where
  leading : ∀ entry ∈ leading messages, isToolResult entry = false
  settled : ∀ turn ∈ turns messages, Settled turn
  distinct : (callIds messages).Nodup

/-! ## The loop -/

section Turn

variable {repair : Repair} {message : Message} {entries : List Json} {span : Span}
  (hSpan : SpanSpec (turnIds message) repair.seenToolResultIds [] entries span)

include hSpan

theorem Repair.pushCalls_seen (pushedMessage : Message) (id : String) :
    id ∈ (repair.pushCalls pushedMessage (turnCalls message) span).seenToolResultIds ↔
      id ∈ repair.seenToolResultIds ∨ id ∈ turnIds message := by
  rw [pushCalls_eq]
  exact (pushResults_seen hSpan.keyed _ _ (fun _ h => turnCalls_id_ne h) id).trans
    (by rw [(pushTurn_spec repair pushedMessage span).2.1]; rfl)

theorem Repair.pushCalls_changed (pushedMessage : Message) (hCalls : turnIds message ≠ []) :
    (repair.pushCalls pushedMessage (turnCalls message) span).changed = false ↔
      repair.changed = false ∧
      (∀ entry ∈ leading entries, isToolResult entry = true →
        ∃ id ∈ turnIds message, resultId entry = some id) ∧
      (∀ entry ∈ leading entries, isToolResult entry = true) ∧
      (∀ id ∈ turnIds message, ∃ entry ∈ leading entries, resultId entry = some id) ∧
      (turnIds message).Nodup ∧ ∀ id ∈ turnIds message, id ∉ repair.seenToolResultIds := by
  obtain ⟨-, hSeen, hChanged⟩ := pushTurn_spec repair pushedMessage span
  rw [pushCalls_eq]
  refine (pushResults_changed hSpan.keyed _ _ fun _ h => turnCalls_id_ne h).trans ?_
  rw [hSeen, hChanged]
  change _ ∧ (turnIds message).Nodup ∧ (∀ id ∈ turnIds message, id ∉ repair.seenToolResultIds) ∧
    _ ↔ _
  have hFound (hNew : ∀ id ∈ turnIds message, id ∉ repair.seenToolResultIds) :
      (∀ call ∈ turnCalls message, (span.results.lookup call.id).isSome = true) ↔
        ∀ id ∈ turnIds message, ∃ entry ∈ leading entries, resultId entry = some id := by
    unfold turnIds at hNew ⊢
    rw [List.forall_mem_map]
    refine forall₂_congr fun call hCall => ?_
    have hMem : call.id ∈ turnIds message := List.mem_map_of_mem hCall
    exact hSpan.found_iff hMem (hNew _ (List.mem_map_of_mem hCall))
  have hNonempty : (∀ call ∈ turnCalls message, (span.results.lookup call.id).isSome = true) →
      span.results.isEmpty = false := by
    intro hAll
    cases hResults : span.results with
    | nil =>
      obtain ⟨id, hId⟩ := List.exists_mem_of_ne_nil _ hCalls
      obtain ⟨call, hCall, -⟩ := List.mem_map.mp hId
      have hSome := hAll call hCall
      rw [hResults] at hSome
      cases hSome
    | cons result results => rfl
  constructor
  · rintro ⟨hBase, hNodup, hNew, hAll⟩
    rw [hNonempty hAll] at hBase
    simp only [Bool.not_false, Bool.true_and, Bool.or_eq_false_iff, Bool.not_eq_false',
      List.isEmpty_iff] at hBase
    exact ⟨hBase.1.1, (hSpan.dropped_eq_false hNew).mp hBase.1.2,
      hSpan.remainder_eq_nil.mp hBase.2, (hFound hNew).mp hAll, hNodup, hNew⟩
  · rintro ⟨hRepair, hOwned, hUnmixed, hAnswered, hNodup, hNew⟩
    have hAll := (hFound hNew).mpr hAnswered
    refine ⟨?_, hNodup, hNew, hAll⟩
    rw [hRepair, (hSpan.dropped_eq_false hNew).mpr hOwned, hSpan.remainder_eq_nil.mpr hUnmixed]
    simp

theorem Repair.pushCalls_out :
    (repair.pushCalls (normalized message) (turnCalls message) span).out =
      repair.out ++ rebuiltTurn repair.seenToolResultIds ⟨message, leading entries⟩ := by
  obtain ⟨hOut, hSeen, -⟩ := pushTurn_spec repair (normalized message) span
  have hAnswers : (firstCalls repair.seenToolResultIds (turnCalls message)).map
        (fun call => Json.obj (pushed span.results call)) =
      (firstCalls repair.seenToolResultIds (turnCalls message)).map (answer (leading entries)) := by
    refine List.map_congr_left fun call hCall => ?_
    obtain ⟨hMem, hNew⟩ := mem_firstCalls hCall
    exact hSpan.pushed_eq_answer (List.mem_map_of_mem hMem) hNew
  rw [pushCalls_eq]
  dsimp only
  rw [pushResults_out hSpan.keyed _ _ (fun _ h => turnCalls_id_ne h), hSeen, hOut, hAnswers,
    hSpan.remainder]
  simp [rebuiltTurn]

theorem Repair.pushCalls_noted (pushedMessage : Message) :
    (repair.pushCalls pushedMessage (turnCalls message) span).seenToolResultIds =
      (turnIds message).foldl noteId repair.seenToolResultIds := by
  rw [pushCalls_eq]
  exact (pushResults_noted hSpan.keyed _ _ fun _ h => turnCalls_id_ne h).trans
    (by rw [(pushTurn_spec repair pushedMessage span).2.1]; rfl)

theorem Repair.Distinct.pushCalls (h : repair.Distinct) {pushedMessage : Message}
    (hAssistant : isAssistant (.obj pushedMessage) = true) :
    (repair.pushCalls pushedMessage (turnCalls message) span).Distinct := by
  obtain ⟨hOut, hSeen, -⟩ := pushTurn_spec repair pushedMessage span
  have hNone : resultId (.obj pushedMessage) = none := by
    refine resultId_eq_none (Bool.eq_false_iff.mpr fun hResult => ?_)
    rw [isAssistant_of_isToolResult hResult] at hAssistant
    cases hAssistant
  have hBase : (repair.pushTurn pushedMessage span).Distinct := by
    have hIds : (repair.pushTurn pushedMessage span).out.filterMap resultId =
        repair.out.filterMap resultId := by
      rw [hOut, List.filterMap_append, List.filterMap_cons, hNone]
      simp
    exact ⟨hIds ▸ h.nodup, hIds ▸ hSeen ▸ h.noted⟩
  have hPushed := hBase.pushResults hSpan.keyed (turnCalls message) fun _ h => turnCalls_id_ne h
  have hRemainder : span.remainder.filterMap resultId = [] := by
    rw [hSpan.remainder, List.filterMap_eq_nil_iff]
    intro entry hEntry
    exact resultId_eq_none (by simpa using (List.mem_filter.mp hEntry).2)
  rw [pushCalls_eq]
  refine ⟨?_, ?_⟩
  · simpa [List.filterMap_append, hRemainder] using hPushed.nodup
  · simpa [List.filterMap_append, hRemainder] using hPushed.noted

end Turn

variable {entry : Json}

theorem sanitizeLoop_other (h : isAssistant entry = false) (fuel : Nat)
    (repair : Repair) (entries : List Json) :
    sanitizeLoop (fuel + 1) repair (entry :: entries) =
      sanitizeLoop fuel (if isToolResult entry then repair.change else repair.push entry)
        entries := by
  cases entry with
  | obj message =>
    have hRole : roleOf message ≠ some "assistant" := by
      simpa [isAssistant, blockSatisfies] using h
    rw [sanitizeLoop, if_neg hRole]
    by_cases hResult : roleOf message = some "toolResult"
    · simp [hResult, isToolResult, blockSatisfies]
    · simp [hResult, isToolResult, blockSatisfies]
  | _ => rfl

/-- The repair that has noted whether the reasoning of a turn moved. -/
def Repair.noteReasoning (repair : Repair) (message : Message) : Repair :=
  if (normalizeAssistantReasoningBlocks message).isSome then repair.change else repair

theorem Repair.noteReasoning_spec (repair : Repair) (message : Message) :
    (repair.noteReasoning message).out = repair.out ∧
      (repair.noteReasoning message).seenToolResultIds = repair.seenToolResultIds ∧
      ((repair.noteReasoning message).changed = false ↔
        repair.changed = false ∧ normalizeAssistantReasoningBlocks message = none) := by
  unfold noteReasoning
  cases normalizeAssistantReasoningBlocks message <;> simp [change]

theorem Repair.noteReasoning_span (repair : Repair) (message : Message) (entries : List Json) :
    SpanSpec (turnIds message) (repair.noteReasoning message).seenToolResultIds [] entries
      (collectSpan (turnIds message) repair.seenToolResultIds [] entries) := by
  rw [(repair.noteReasoning_spec message).2.1]
  exact collectSpan_spec _ _ _ _

theorem sanitizeLoop_turn (h : isAssistant (.obj message) = true) (fuel : Nat)
    (repair : Repair) (entries : List Json) :
    sanitizeLoop (fuel + 1) repair (.obj message :: entries) =
      if turnIds message = [] then
        sanitizeLoop fuel ((repair.noteReasoning message).push (.obj (normalized message))) entries
      else
        sanitizeLoop fuel ((repair.noteReasoning message).pushCalls (normalized message)
          (turnCalls message)
          (collectSpan (turnIds message) repair.seenToolResultIds [] entries))
          (fromAssistant entries) := by
  have hRole : roleOf message = some "assistant" := by
    simpa [isAssistant, blockSatisfies] using h
  rw [sanitizeLoop, if_pos hRole]
  change (if (isFailedStop (normalized message) ||
      (extractToolCallsFromAssistant (normalized message)).isEmpty) = true then _ else _) = _
  have hCalls := turnCalls_normalized message
  by_cases hQuiet : turnIds message = []
  · have hNil : turnCalls message = [] := List.map_eq_nil_iff.mp hQuiet
    rw [if_pos hQuiet, if_pos]
    · rfl
    · rw [hNil] at hCalls
      unfold turnCalls at hCalls
      cases hFailed : isFailedStop (normalized message) with
      | true => rfl
      | false =>
        rw [hFailed] at hCalls
        simpa using hCalls
  · have hNotFailed : isFailedStop (normalized message) = false := by
      cases hFailed : isFailedStop (normalized message) with
      | false => rfl
      | true =>
        refine absurd ?_ hQuiet
        rw [turnIds, ← hCalls, turnCalls, if_pos hFailed, List.map_nil]
    have hExtract : extractToolCallsFromAssistant
        ((normalizeAssistantReasoningBlocks message).getD message) = turnCalls message := by
      rw [← hCalls, turnCalls, hNotFailed]
      rfl
    have hNonempty : (turnCalls message).isEmpty = false := by
      cases hNil : turnCalls message with
      | nil => exact absurd (by rw [turnIds, hNil]; rfl) hQuiet
      | cons call calls => rfl
    have hGoesOn : ¬ (isFailedStop (normalized message) ||
        (extractToolCallsFromAssistant (normalized message)).isEmpty) = true := by
      change ¬ (_ || (extractToolCallsFromAssistant
        ((normalizeAssistantReasoningBlocks message).getD message)).isEmpty) = true
      rw [hNotFailed, hExtract, hNonempty]
      decide
    rw [if_neg hQuiet, if_neg hGoesOn, hExtract]
    have hSpan := collectSpan_spec (turnIds message) repair.seenToolResultIds [] entries
    have hSeen := (repair.noteReasoning_spec message).2.1
    change sanitizeLoop fuel ((repair.noteReasoning message).pushCalls (normalized message)
      (turnCalls message) (collectSpan (turnIds message)
        (repair.noteReasoning message).seenToolResultIds [] entries)) (collectSpan (turnIds message)
          (repair.noteReasoning message).seenToolResultIds [] entries).rest = _
    rw [hSeen]
    exact congrArg _ hSpan.rest

/-! ## Lists that need no repair -/

theorem needsNoRepair_nil : NeedsNoRepair [] :=
  ⟨fun _ h => absurd h List.not_mem_nil, fun _ h => absurd h List.not_mem_nil, List.nodup_nil⟩

theorem leading_cons_of_not (h : isAssistant entry = false) (entries : List Json) :
    leading (entry :: entries) = entry :: leading entries := by
  simp [leading, h]

theorem leading_cons (h : isAssistant entry = true) (entries : List Json) :
    leading (entry :: entries) = [] := by
  simp [leading, h]

theorem callIds_cons_of_not (h : isAssistant entry = false) (entries : List Json) :
    callIds (entry :: entries) = callIds entries := by
  rw [callIds, callIds, turns_cons_of_not h]

theorem callIds_cons (h : isAssistant (.obj message) = true) (entries : List Json) :
    callIds (.obj message :: entries) = turnIds message ++ callIds entries := by
  rw [callIds, turns_cons h, List.flatMap_cons, callIds]

theorem callIds_fromAssistant (entries : List Json) :
    callIds (fromAssistant entries) = callIds entries := by
  rw [callIds, callIds, turns_fromAssistant]

theorem needsNoRepair_cons_of_not (h : isAssistant entry = false)
    (entries : List Json) : NeedsNoRepair (entry :: entries) ↔
      isToolResult entry = false ∧ NeedsNoRepair entries := by
  constructor
  · rintro ⟨hLeading, hSettled, hDistinct⟩
    rw [leading_cons_of_not h, List.forall_mem_cons] at hLeading
    rw [turns_cons_of_not h] at hSettled
    rw [callIds_cons_of_not h] at hDistinct
    exact ⟨hLeading.1, hLeading.2, hSettled, hDistinct⟩
  · rintro ⟨hEntry, hLeading, hSettled, hDistinct⟩
    refine ⟨?_, ?_, ?_⟩
    · rw [leading_cons_of_not h, List.forall_mem_cons]
      exact ⟨hEntry, hLeading⟩
    · rw [turns_cons_of_not h]
      exact hSettled
    · rw [callIds_cons_of_not h]
      exact hDistinct

theorem needsNoRepair_fromAssistant (entries : List Json) :
    NeedsNoRepair (fromAssistant entries) ↔
      (∀ turn ∈ turns entries, Settled turn) ∧ (callIds entries).Nodup := by
  constructor
  · rintro ⟨-, hSettled, hDistinct⟩
    rw [turns_fromAssistant] at hSettled
    rw [callIds_fromAssistant] at hDistinct
    exact ⟨hSettled, hDistinct⟩
  · rintro ⟨hSettled, hDistinct⟩
    refine ⟨?_, ?_, ?_⟩
    · rw [leading_fromAssistant]
      exact fun _ h => absurd h List.not_mem_nil
    · rw [turns_fromAssistant]
      exact hSettled
    · rw [callIds_fromAssistant]
      exact hDistinct

theorem needsNoRepair_cons (h : isAssistant (.obj message) = true)
    (entries : List Json) : NeedsNoRepair (.obj message :: entries) ↔
      Settled ⟨message, leading entries⟩ ∧ (∀ turn ∈ turns entries, Settled turn) ∧
        (turnIds message).Nodup ∧ (callIds entries).Nodup ∧
        ∀ id ∈ turnIds message, id ∉ callIds entries := by
  have hDisjoint : (∀ a ∈ turnIds message, ∀ b ∈ callIds entries, a ≠ b) ↔
      ∀ id ∈ turnIds message, id ∉ callIds entries :=
    forall₂_congr fun a _ => ⟨fun hNe hMem => hNe a hMem rfl, fun hNot b hb hEq => hNot (hEq ▸ hb)⟩
  constructor
  · rintro ⟨-, hSettled, hDistinct⟩
    rw [turns_cons h, List.forall_mem_cons] at hSettled
    rw [callIds_cons h, List.nodup_append] at hDistinct
    exact ⟨hSettled.1, hSettled.2, hDistinct.1, hDistinct.2.1, hDisjoint.mp hDistinct.2.2⟩
  · rintro ⟨hTurn, hSettled, hNodup, hRest, hNew⟩
    refine ⟨?_, ?_, ?_⟩
    · rw [leading_cons h]
      exact fun _ h => absurd h List.not_mem_nil
    · rw [turns_cons h, List.forall_mem_cons]
      exact ⟨hTurn, hSettled⟩
    · rw [callIds_cons h, List.nodup_append]
      exact ⟨hNodup, hRest, hDisjoint.mpr hNew⟩

theorem length_fromAssistant_le (entries : List Json) :
    (fromAssistant entries).length ≤ entries.length :=
  List.length_dropWhile_le _ _

/-- The flag stays unset exactly where nothing is to be repaired. -/
theorem sanitizeLoop_changed (fuel : Nat) (repair : Repair) (entries : List Json)
    (hFuel : entries.length ≤ fuel) :
    (sanitizeLoop fuel repair entries).changed = false ↔ repair.changed = false ∧
      NeedsNoRepair entries ∧ ∀ id ∈ callIds entries, id ∉ repair.seenToolResultIds := by
  induction fuel generalizing repair entries with
  | zero =>
    obtain rfl : entries = [] := List.length_eq_zero_iff.mp (Nat.le_zero.mp hFuel)
    simp [sanitizeLoop, needsNoRepair_nil, callIds, turns]
  | succ fuel ih =>
    cases entries with
    | nil => simp [sanitizeLoop, needsNoRepair_nil, callIds, turns]
    | cons entry entries =>
      have hLength : entries.length ≤ fuel := Nat.le_of_succ_le_succ hFuel
      cases hAssistant : isAssistant entry with
      | false =>
        rw [sanitizeLoop_other hAssistant, ih _ _ hLength,
          needsNoRepair_cons_of_not hAssistant, callIds_cons_of_not hAssistant]
        cases isToolResult entry with
        | true => simp [Repair.change]
        | false => simp [Repair.push]
      | true =>
        obtain ⟨message, rfl⟩ := exists_of_isAssistant hAssistant
        obtain ⟨-, hSeen, hNoted⟩ := repair.noteReasoning_spec message
        rw [sanitizeLoop_turn hAssistant, needsNoRepair_cons hAssistant,
          callIds_cons hAssistant]
        by_cases hQuiet : turnIds message = []
        · rw [if_pos hQuiet, ih _ _ hLength]
          change (repair.noteReasoning message).changed = false ∧ _ ∧
            (∀ id ∈ _, id ∉ (repair.noteReasoning message).seenToolResultIds) ↔ _
          rw [hNoted, hSeen, hQuiet]
          constructor
          · rintro ⟨⟨hChanged, hReasoning⟩, hRest, hNew⟩
            refine ⟨hChanged, ⟨⟨hReasoning, fun entry hEntry hResult => ?_, ?_, ?_⟩,
              hRest.settled, List.nodup_nil, hRest.distinct, ?_⟩, hNew⟩
            · rw [hRest.leading entry hEntry] at hResult
              cases hResult
            · exact fun hNe => absurd hQuiet hNe
            · exact fun id hId => absurd (hQuiet ▸ hId) List.not_mem_nil
            · exact fun id hId => absurd hId List.not_mem_nil
          · rintro ⟨hChanged, ⟨hTurn, hSettled, -, hDistinct, -⟩, hNew⟩
            refine ⟨⟨hChanged, hTurn.reasoning⟩, ⟨fun entry hEntry => ?_, hSettled, hDistinct⟩,
              hNew⟩
            cases hResult : isToolResult entry with
            | false => rfl
            | true =>
              obtain ⟨id, hId, -⟩ := hTurn.owned entry hEntry hResult
              exact absurd (hQuiet ▸ hId) List.not_mem_nil
        · have hSpan := repair.noteReasoning_span message entries
          rw [if_neg hQuiet, ih _ _ ((length_fromAssistant_le entries).trans hLength),
            Repair.pushCalls_changed hSpan _ hQuiet, hNoted, needsNoRepair_fromAssistant,
            callIds_fromAssistant, hSeen]
          have hSeen' := fun id => Repair.pushCalls_seen hSpan (normalized message) id
          rw [hSeen] at hSeen'
          constructor
          · rintro ⟨⟨⟨hChanged, hReasoning⟩, hOwned, hUnmixed, hAnswered, hNodup, hNew⟩,
              ⟨hSettled, hDistinct⟩, hLater⟩
            refine ⟨hChanged, ⟨⟨hReasoning, hOwned, fun _ => hUnmixed, hAnswered⟩, hSettled,
              hNodup, hDistinct, fun id hId hMem => ?_⟩, fun id hId => ?_⟩
            · exact hLater id hMem ((hSeen' id).mpr (Or.inr hId))
            · rcases List.mem_append.mp hId with hId | hId
              · exact hNew id hId
              · exact fun hMem => hLater id hId ((hSeen' id).mpr (Or.inl hMem))
          · rintro ⟨hChanged, ⟨hTurn, hSettled, hNodup, hDistinct, hApart⟩, hNew⟩
            refine ⟨⟨⟨hChanged, hTurn.reasoning⟩, hTurn.owned, hTurn.unmixed hQuiet,
              hTurn.answered, hNodup, fun id hId => hNew id (List.mem_append_left _ hId)⟩,
              ⟨hSettled, hDistinct⟩, fun id hId hMem => ?_⟩
            rcases (hSeen' id).mp hMem with hMem | hMem
            · exact hNew id (List.mem_append_right _ hId) hMem
            · exact hApart id hMem hId

theorem sanitizeLoop_rebuilt (fuel : Nat) (repair : Repair) (entries : List Json)
    (hFuel : entries.length ≤ fuel) :
    (sanitizeLoop fuel repair entries).out = repair.out ++
      ((leading entries).filter (fun entry => !isToolResult entry) ++
        rebuiltTurns repair.seenToolResultIds (turns entries)) := by
  induction fuel generalizing repair entries with
  | zero =>
    obtain rfl : entries = [] := List.length_eq_zero_iff.mp (Nat.le_zero.mp hFuel)
    simp [sanitizeLoop, leading, turns, rebuiltTurns]
  | succ fuel ih =>
    cases entries with
    | nil => simp [sanitizeLoop, leading, turns, rebuiltTurns]
    | cons entry entries =>
      have hLength : entries.length ≤ fuel := Nat.le_of_succ_le_succ hFuel
      cases hAssistant : isAssistant entry with
      | false =>
        rw [sanitizeLoop_other hAssistant, leading_cons_of_not hAssistant,
          turns_cons_of_not hAssistant]
        cases hResult : isToolResult entry with
        | true =>
          rw [if_pos rfl, ih repair.change _ hLength,
            List.filter_cons_of_neg (by rw [hResult]; simp)]
          rfl
        | false =>
          rw [if_neg (by simp), ih (repair.push entry) _ hLength,
            List.filter_cons_of_pos (by rw [hResult]; rfl)]
          simp [Repair.push]
      | true =>
        obtain ⟨message, rfl⟩ := exists_of_isAssistant hAssistant
        obtain ⟨hOut, hSeen, -⟩ := repair.noteReasoning_spec message
        rw [sanitizeLoop_turn hAssistant, leading_cons hAssistant, turns_cons hAssistant,
          rebuiltTurns]
        by_cases hQuiet : turnIds message = []
        · have hNil : turnCalls message = [] := List.map_eq_nil_iff.mp hQuiet
          have hPushed : ((repair.noteReasoning message).push
              (.obj (normalized message))).seenToolResultIds =
                repair.seenToolResultIds := hSeen
          rw [if_pos hQuiet, ih _ _ hLength, hPushed, hQuiet, rebuiltTurn]
          simp [Repair.push, hOut, hNil, firstCalls]
        · have hSpan := repair.noteReasoning_span message entries
          rw [if_neg hQuiet, ih _ _ ((length_fromAssistant_le entries).trans hLength),
            Repair.pushCalls_out hSpan, Repair.pushCalls_noted hSpan, hOut, hSeen,
            leading_fromAssistant, turns_fromAssistant]
          simp

/-- The repaired list, where no call id occurs twice. -/
theorem sanitizeLoop_out (fuel : Nat) (repair : Repair) (entries : List Json)
    (hFuel : entries.length ≤ fuel) (hNodup : (callIds entries).Nodup)
    (hNew : ∀ id ∈ callIds entries, id ∉ repair.seenToolResultIds) :
    (sanitizeLoop fuel repair entries).out = repair.out ++ repaired entries := by
  rw [sanitizeLoop_rebuilt fuel repair entries hFuel, rebuiltTurns_of_nodup hNodup hNew, repaired]

theorem sanitizeLoop_distinct (fuel : Nat) {repair : Repair} (h : repair.Distinct)
    (entries : List Json) : (sanitizeLoop fuel repair entries).Distinct := by
  have hPush : ∀ {repair : Repair} {entry : Json}, repair.Distinct → isToolResult entry = false →
      (repair.push entry).Distinct := by
    intro repair entry h hResult
    have hIds : (repair.push entry).out.filterMap resultId = repair.out.filterMap resultId := by
      rw [Repair.push, List.filterMap_append, List.filterMap_cons, resultId_eq_none hResult]
      simp
    exact ⟨hIds ▸ h.nodup, hIds ▸ h.noted⟩
  induction fuel generalizing repair entries with
  | zero => exact h
  | succ fuel ih =>
    cases entries with
    | nil => exact h
    | cons entry entries =>
      cases hAssistant : isAssistant entry with
      | false =>
        rw [sanitizeLoop_other hAssistant]
        refine ih ?_ entries
        split
        · exact ⟨h.nodup, h.noted⟩
        · rename_i hResult
          exact hPush h (Bool.eq_false_iff.mpr hResult)
      | true =>
        obtain ⟨message, rfl⟩ := exists_of_isAssistant hAssistant
        obtain ⟨hOut, hSeen, -⟩ := repair.noteReasoning_spec message
        have hNoted : (repair.noteReasoning message).Distinct :=
          ⟨hOut ▸ h.nodup, hOut ▸ hSeen ▸ h.noted⟩
        have hPushed : isAssistant (.obj (normalized message)) = true := by
          rw [isAssistant_normalized]
          exact hAssistant
        rw [sanitizeLoop_turn hAssistant]
        split
        · refine ih (hPush hNoted (Bool.eq_false_iff.mpr fun hResult => ?_)) entries
          rw [isAssistant_of_isToolResult hResult] at hPushed
          cases hPushed
        · have hSpan := repair.noteReasoning_span message entries
          exact ih (hNoted.pushCalls hSpan hPushed) _

end LosslessHermes.Assembler
