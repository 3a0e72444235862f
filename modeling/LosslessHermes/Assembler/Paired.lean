import LosslessHermes.Assembler.Repair
import Mathlib.Data.List.Pairwise

/-!
# What the pairing repair guarantees

`pairing_complete` says that behind every turn of a repaired list stand the results
of its calls. `duplicates_removed_iff` says when the repair removes every second
result for a call: not where the flag for a change stays unset although the results
are not one for each call, in order.
-/

namespace LosslessHermes.Assembler

open Json (get?)

/-! ## The repaired turns -/

theorem resultId_answer {span : List Json} {message : Message} {call : ToolCall}
    (h : call ∈ turnCalls message) : resultId (answer span call) = some call.id := by
  unfold answer
  cases hFound : resultFor span call.id with
  | none => exact resultId_missing (turnCalls_id_ne h)
  | some entry => exact resultId_of_resultFor hFound

variable {turn : Turn}

theorem isToolResult_answer {entry : Json}
    (h : entry ∈ (turnCalls turn.message).map (answer turn.span)) : isToolResult entry = true := by
  obtain ⟨call, hCall, rfl⟩ := List.mem_map.mp h
  exact isToolResult_of_resultId (resultId_answer hCall)

variable {messages : List Json}

theorem repairedSpan_not_assistant
    (hTurn : turn ∈ turns messages) : ∀ entry ∈ repairedSpan turn, isAssistant entry = false := by
  intro entry hEntry
  rcases List.mem_append.mp hEntry with hEntry | hEntry
  · exact isAssistant_of_isToolResult (isToolResult_answer hEntry)
  · exact (isAssistant_of_mem_turns hTurn).2 entry (List.mem_filter.mp hEntry).1

theorem turns_repaired (messages : List Json) :
    leading (repaired messages) = (leading messages).filter (fun entry => !isToolResult entry) ∧
      turns (repaired messages) =
        (turns messages).map fun turn => ⟨normalized turn.message, repairedSpan turn⟩ := by
  have hLeading : ∀ entry ∈ (leading messages).filter fun entry => !isToolResult entry,
      isAssistant entry = false :=
    fun entry hEntry => leading_not (List.mem_filter.mp hEntry).1
  obtain ⟨hNil, hTurns⟩ := turns_flatMap (fun turn : Turn => normalized turn.message) repairedSpan
    (turns messages)
    (fun turn hTurn => by
      rw [isAssistant_normalized]
      exact (isAssistant_of_mem_turns hTurn).1)
    fun turn hTurn => repairedSpan_not_assistant hTurn
  constructor
  · rw [repaired, leading_append_of_not hLeading]
    exact (congrArg _ hNil).trans (List.append_nil _)
  · rw [repaired, turns_append_of_not hLeading]
    exact hTurns

theorem filterMap_repairedSpan (turn : Turn) :
    (repairedSpan turn).filterMap resultId = turnIds turn.message := by
  have hAnswers : ((turnCalls turn.message).map (answer turn.span)).filterMap resultId =
      turnIds turn.message := by
    rw [List.filterMap_map, turnIds, ← List.filterMap_eq_map]
    exact List.filterMap_congr fun call hCall => resultId_answer hCall
  have hRest : (turn.span.filter fun entry => !isToolResult entry).filterMap resultId = [] := by
    rw [List.filterMap_eq_nil_iff]
    intro entry hEntry
    exact resultId_eq_none (by simpa using (List.mem_filter.mp hEntry).2)
  rw [repairedSpan, List.filterMap_append, hAnswers, hRest, List.append_nil]

/-- Results that are one for each call, in order, are those that the repair puts there. -/
theorem map_answer_of_inOrder {span : List Json} {calls : List ToolCall}
    (h : span.filterMap resultId = calls.map (·.id)) (hNodup : (calls.map (·.id)).Nodup)
    (hAll : ∀ entry ∈ span, resultId entry ≠ none) : calls.map (answer span) = span := by
  induction span generalizing calls with
  | nil =>
    have hNil : calls = [] := by simpa using h.symm
    rw [hNil]
    rfl
  | cons entry span ih =>
    obtain ⟨hEntry, hSpan⟩ := List.forall_mem_cons.mp hAll
    obtain ⟨id, hId⟩ := Option.ne_none_iff_exists'.mp hEntry
    rw [List.filterMap_cons, hId] at h
    cases calls with
    | nil => cases h
    | cons call calls =>
      rw [List.map_cons, List.cons.injEq] at h
      obtain ⟨rfl, hRest⟩ := h
      obtain ⟨hFresh, hNodup⟩ := List.nodup_cons.mp hNodup
      have hHead : answer (entry :: span) call = entry := by
        rw [answer, resultFor_cons, if_pos hId]
        rfl
      have hTail : calls.map (answer (entry :: span)) = calls.map (answer span) := by
        refine List.map_congr_left fun other hOther => ?_
        rw [answer, resultFor_cons, if_neg, answer]
        intro hEq
        rw [hId, Option.some.injEq] at hEq
        have hMem : other.id ∈ calls.map (·.id) := List.mem_map_of_mem hOther
        rw [← hEq] at hMem
        exact hFresh hMem
      rw [List.map_cons, hHead, hTail, ih hRest hNodup hSpan]

/-! ## Duplicate results -/

/-- The repaired list and its flag, before the repair decides what to answer with. -/
def rebuild (messages : List Json) : Repair :=
  sanitizeLoop messages.length ⟨[], [], false⟩ messages

theorem sanitize_eq (messages : List Json) : sanitizeToolUseResultPairing messages =
    if (rebuild messages).changed then (rebuild messages).out else messages := rfl

theorem rebuild_changed (messages : List Json) :
    (rebuild messages).changed = false ↔ NeedsNoRepair messages := by
  rw [rebuild, sanitizeLoop_changed _ _ _ (Nat.le_refl _)]
  simp

theorem rebuild_out (h : (callIds messages).Nodup) :
    (rebuild messages).out = repaired messages := by
  rw [rebuild, sanitizeLoop_out _ _ _ (Nat.le_refl _) h (by simp)]
  rfl

/-- No call has two results in the answer, and an answer that is the given list is
what the repair rebuilt. -/
structure DuplicatesRemoved (messages : List Json) : Prop where
  once : ((sanitizeToolUseResultPairing messages).filterMap resultId).Nodup
  unchanged : (rebuild messages).changed = false → (rebuild messages).out = messages

/-- Behind every turn stand the results of its calls, one for each, in order. -/
def InOrder (messages : List Json) : Prop :=
  ∀ turn ∈ turns messages, turn.span.filterMap resultId = turnIds turn.message

theorem repairedSpan_of_inOrder (h : NeedsNoRepair messages) (hTurn : turn ∈ turns messages)
    (hOrder : turn.span.filterMap resultId = turnIds turn.message) :
    repairedSpan turn = turn.span := by
  obtain ⟨-, hOwned, hUnmixed, -⟩ := h.settled turn hTurn
  by_cases hQuiet : turnIds turn.message = []
  · have hNil : turnCalls turn.message = [] := List.map_eq_nil_iff.mp hQuiet
    have hNone : ∀ entry ∈ turn.span, (!isToolResult entry) = true := by
      intro entry hEntry
      cases hResult : isToolResult entry with
      | false => rfl
      | true =>
        obtain ⟨id, hId, -⟩ := hOwned entry hEntry hResult
        exact absurd (hQuiet ▸ hId) List.not_mem_nil
    rw [repairedSpan, hNil, List.filter_eq_self.mpr hNone]
    rfl
  · have hResults := hUnmixed hQuiet
    have hNodup : (turnIds turn.message).Nodup :=
      (List.nodup_flatMap.mp h.distinct).1 turn hTurn
    have hNone : turn.span.filter (fun entry => !isToolResult entry) = [] := by
      rw [List.filter_eq_nil_iff]
      intro entry hEntry
      rw [hResults entry hEntry]
      simp
    rw [repairedSpan, hNone, List.append_nil]
    refine map_answer_of_inOrder hOrder hNodup fun entry hEntry hNoId => ?_
    obtain ⟨id, -, hId⟩ := hOwned entry hEntry (hResults entry hEntry)
    rw [hNoId] at hId
    cases hId

theorem filterMap_resultId_leading (h : NeedsNoRepair messages) :
    (leading messages).filterMap resultId = [] :=
  List.filterMap_eq_nil_iff.mpr fun entry hEntry => resultId_eq_none (h.leading entry hEntry)

/-- **The repair removes every second result for a call unless its flag stays unset
although the results behind some turn are not one for each call, in order.** -/
theorem duplicates_removed_iff (messages : List Json) :
    DuplicatesRemoved messages ↔ (NeedsNoRepair messages → InOrder messages) := by
  constructor
  · intro hRemoved hClean turn hTurn
    have hOut := hRemoved.unchanged ((rebuild_changed messages).mpr hClean)
    rw [rebuild_out hClean.distinct] at hOut
    have hTurns := (turns_repaired messages).2
    rw [hOut] at hTurns
    -- the turns are the repaired ones, so each is its own repair
    have hSelf : ∀ found ∈ turns messages,
        (⟨normalized found.message, repairedSpan found⟩ : Turn) = found := by
      have hMap : (turns messages).map (fun found : Turn =>
          (⟨normalized found.message, repairedSpan found⟩ : Turn)) = (turns messages).map id := by
        rw [List.map_id]
        exact hTurns.symm
      exact List.map_inj_left.mp hMap
    have hSpan : repairedSpan turn = turn.span := congrArg Turn.span (hSelf turn hTurn)
    rw [← hSpan]
    exact filterMap_repairedSpan turn
  · intro hOrder
    constructor
    · rw [sanitize_eq]
      cases hChanged : (rebuild messages).changed with
      | true =>
        have hStart : Repair.Distinct ⟨[], [], false⟩ :=
          ⟨List.nodup_nil, fun _ h => absurd h List.not_mem_nil⟩
        exact (sanitizeLoop_distinct _ hStart messages).nodup
      | false =>
        have hClean := (rebuild_changed messages).mp hChanged
        have hIds : messages.filterMap resultId = callIds messages := by
          conv_lhs => rw [← turns_flatten messages]
          rw [List.filterMap_append, filterMap_resultId_leading hClean, List.nil_append,
            List.filterMap_flatMap, callIds]
          refine List.flatMap_congr fun turn hTurn => ?_
          have hNone : resultId (.obj turn.message) = none := by
            refine resultId_eq_none (Bool.eq_false_iff.mpr fun hResult => ?_)
            have hAssistant := (isAssistant_of_mem_turns hTurn).1
            rw [isAssistant_of_isToolResult hResult] at hAssistant
            cases hAssistant
          rw [List.filterMap_cons, hNone]
          exact hOrder hClean turn hTurn
        rw [if_neg (by simp), hIds]
        exact hClean.distinct
    · intro hChanged
      have hClean := (rebuild_changed messages).mp hChanged
      rw [rebuild_out hClean.distinct]
      conv_rhs => rw [← turns_flatten messages]
      rw [repaired, List.filter_eq_self.mpr fun entry hEntry => by
        rw [hClean.leading entry hEntry]; rfl]
      congr 1
      refine List.flatMap_congr fun turn hTurn => ?_
      have hMessage : normalized turn.message = turn.message := by
        rw [normalized, (hClean.settled turn hTurn).reasoning]
        rfl
      rw [repairedTurn, hMessage, repairedSpan_of_inOrder hClean hTurn (hOrder hClean turn hTurn)]

/-- A call with a result, and the same result once more. -/
def repeatedResult : List Json :=
  let result := Json.obj [("role", .str "toolResult"), ("toolCallId", .str "call_1")]
  [.obj [("role", .str "assistant"),
      ("content", .arr [.obj [("type", .str "toolCall"), ("id", .str "call_1")]])], result, result]

theorem repeatedResult_survives : ¬ DuplicatesRemoved repeatedResult := by
  intro hRemoved
  have hOnce := hRemoved.once
  revert hOnce
  decide +kernel

/-! ## Complete pairing -/

/-- The tool results that stand directly behind a turn. -/
def Turn.block (turn : Turn) : List Json :=
  turn.span.takeWhile isToolResult

/-- A result of the list that stands behind the turn with its call. -/
def RealResult (messages : List Json) (id : String) (entry : Json) : Prop :=
  ∃ turn ∈ turns messages, id ∈ turnIds turn.message ∧ entry ∈ turn.span ∧
    resultId entry = some id

/-- The tool results of a list are the blocks behind its turns, and every block has
the results of the calls of its turn: real ones where there are any. -/
structure Paired (messages out : List Json) : Prop where
  sameTurns : (turns out).map (·.message) = (turns messages).map fun turn => normalized turn.message
  leading : ∀ entry ∈ leading out, isToolResult entry = false
  contiguous : ∀ turn ∈ turns out, ∀ entry ∈ turn.span.dropWhile isToolResult,
    isToolResult entry = false
  identified : ∀ turn ∈ turns out, ∀ entry ∈ turn.block, resultId entry ≠ none
  ids : ∀ turn ∈ turns out, ∀ id, some id ∈ turn.block.map resultId ↔ id ∈ turnIds turn.message
  real : ∀ turn ∈ turns out, ∀ call ∈ turnCalls turn.message, ∀ entry ∈ turn.block,
    resultId entry = some call.id → RealResult messages call.id entry ∨
      (¬ ∃ found, RealResult messages call.id found) ∧ entry = .obj (makeMissingToolResult call)

theorem block_repairedSpan (turn : Turn) :
    (repairedSpan turn).takeWhile isToolResult = (turnCalls turn.message).map (answer turn.span) ∧
      (repairedSpan turn).dropWhile isToolResult =
        turn.span.filter fun entry => !isToolResult entry := by
  have hAll : ∀ entry ∈ (turnCalls turn.message).map (answer turn.span),
      isToolResult entry = true := fun _ h => isToolResult_answer h
  have hNone : ∀ entry ∈ turn.span.filter fun entry => !isToolResult entry,
      isToolResult entry = false :=
    fun entry h => by simpa using (List.mem_filter.mp h).2
  have hEnds : ∀ rest : List Json, (∀ entry ∈ rest, isToolResult entry = false) →
      rest.takeWhile isToolResult = [] ∧ rest.dropWhile isToolResult = rest := by
    intro rest hRest
    cases rest with
    | nil => exact ⟨rfl, rfl⟩
    | cons entry rest => simp [hRest entry List.mem_cons_self]
  obtain ⟨hTake, hDrop⟩ := hEnds _ hNone
  constructor
  · rw [repairedSpan, List.takeWhile_append_of_pos hAll, hTake, List.append_nil]
  · rw [repairedSpan, List.dropWhile_append_of_pos hAll, hDrop]

/-- A call id that no other call has belongs to one turn. -/
theorem turn_unique (h : (callIds messages).Nodup) {turn' : Turn}
    (hTurn : turn ∈ turns messages) (hTurn' : turn' ∈ turns messages) {id : String}
    (hId : id ∈ turnIds turn.message) (hId' : id ∈ turnIds turn'.message) : turn = turn' := by
  by_contra hNe
  have hApart := (List.nodup_flatMap.mp h).2
  have hSymm : Std.Symm (Function.onFun List.Disjoint fun turn : Turn => turnIds turn.message) :=
    ⟨fun _ _ hDisjoint _ h h' => hDisjoint h' h⟩
  exact hApart.forall hTurn hTurn' hNe hId hId'

theorem paired_repaired (h : (callIds messages).Nodup) :
    Paired messages (repaired messages) := by
  obtain ⟨hLeading, hTurns⟩ := turns_repaired messages
  have hEach : ∀ {P : Turn → Prop}, (∀ turn ∈ turns messages,
      P ⟨normalized turn.message, repairedSpan turn⟩) →
    ∀ turn ∈ turns (repaired messages), P turn := by
    intro P hP turn hTurn
    rw [hTurns] at hTurn
    obtain ⟨found, hFound, rfl⟩ := List.mem_map.mp hTurn
    exact hP found hFound
  have hIds : ∀ message, turnIds (normalized message) = turnIds message := fun message => by
    rw [turnIds, turnCalls_normalized, turnIds]
  refine ⟨?_, ?_, hEach fun turn _ => ?_, hEach fun turn _ => ?_, hEach fun turn _ => ?_,
    hEach fun turn hTurn => ?_⟩
  · rw [hTurns, List.map_map]
    rfl
  · rw [hLeading]
    exact fun entry hEntry => by simpa using (List.mem_filter.mp hEntry).2
  · rw [(block_repairedSpan turn).2]
    exact fun entry hEntry => by simpa using (List.mem_filter.mp hEntry).2
  · rw [Turn.block, (block_repairedSpan turn).1]
    intro entry hEntry
    obtain ⟨call, hCall, rfl⟩ := List.mem_map.mp hEntry
    rw [resultId_answer hCall]
    simp
  · intro id
    rw [Turn.block, (block_repairedSpan turn).1, hIds, turnIds, List.mem_map, List.mem_map]
    constructor
    · rintro ⟨entry, hEntry, hId⟩
      obtain ⟨call, hCall, rfl⟩ := List.mem_map.mp hEntry
      rw [resultId_answer hCall, Option.some.injEq] at hId
      exact ⟨call, hCall, hId⟩
    · rintro ⟨call, hCall, rfl⟩
      exact ⟨_, List.mem_map_of_mem hCall, resultId_answer hCall⟩
  · rw [Turn.block, (block_repairedSpan turn).1, turnCalls_normalized]
    intro call hCall entry hEntry hId
    obtain ⟨other, hOther, rfl⟩ := List.mem_map.mp hEntry
    rw [resultId_answer hOther, Option.some.injEq] at hId
    have hNodup : (turnIds turn.message).Nodup := (List.nodup_flatMap.mp h).1 turn hTurn
    obtain rfl : other = call := List.inj_on_of_nodup_map hNodup hOther hCall hId
    have hMem : other.id ∈ turnIds turn.message := List.mem_map_of_mem hCall
    cases hFound : resultFor turn.span other.id with
    | some entry =>
      rw [answer, hFound]
      exact Or.inl ⟨turn, hTurn, hMem, List.mem_of_find?_eq_some hFound,
        resultId_of_resultFor hFound⟩
    | none =>
      rw [answer, hFound]
      refine Or.inr ⟨?_, rfl⟩
      rintro ⟨entry, found, hTurn', hMem', hReal, hId'⟩
      obtain rfl := turn_unique h hTurn' hTurn hMem' hMem
      exact List.find?_eq_none.mp hFound entry hReal (by simpa using hId')

theorem paired_self (h : NeedsNoRepair messages) :
    Paired messages messages := by
  have hQuiet : ∀ turn ∈ turns messages, turnIds turn.message = [] →
      ∀ entry ∈ turn.span, isToolResult entry = false := by
    intro turn hTurn hNil entry hEntry
    cases hResult : isToolResult entry with
    | false => rfl
    | true =>
      obtain ⟨id, hId, -⟩ := (h.settled turn hTurn).owned entry hEntry hResult
      exact absurd (hNil ▸ hId) List.not_mem_nil
  have hBlock : ∀ turn ∈ turns messages, ∀ entry ∈ turn.block,
      entry ∈ turn.span ∧ isToolResult entry = true :=
    fun turn _ entry hEntry =>
      ⟨List.takeWhile_subset _ hEntry, List.mem_takeWhile_imp hEntry⟩
  refine ⟨?_, h.leading, fun turn hTurn => ?_, fun turn hTurn entry hEntry hNone => ?_,
    fun turn hTurn id => ?_, fun turn hTurn call hCall entry hEntry hId => ?_⟩
  · refine List.map_congr_left fun turn hTurn => ?_
    rw [normalized, (h.settled turn hTurn).reasoning]
    rfl
  · by_cases hNil : turnIds turn.message = []
    · exact fun entry hEntry => hQuiet turn hTurn hNil entry (List.dropWhile_subset _ hEntry)
    · rw [List.dropWhile_eq_nil_iff.mpr ((h.settled turn hTurn).unmixed hNil)]
      exact fun _ hEntry => absurd hEntry List.not_mem_nil
  · obtain ⟨hMem, hResult⟩ := hBlock turn hTurn entry hEntry
    obtain ⟨id, -, hId⟩ := (h.settled turn hTurn).owned entry hMem hResult
    rw [hNone] at hId
    cases hId
  · rw [List.mem_map]
    constructor
    · rintro ⟨entry, hEntry, hId⟩
      obtain ⟨hMem, hResult⟩ := hBlock turn hTurn entry hEntry
      obtain ⟨id', hId', hEq⟩ := (h.settled turn hTurn).owned entry hMem hResult
      rw [hId, Option.some.injEq] at hEq
      exact hEq ▸ hId'
    · intro hId
      obtain ⟨entry, hEntry, hResult⟩ := (h.settled turn hTurn).answered id hId
      refine ⟨entry, ?_, hResult⟩
      have hNe : turnIds turn.message ≠ [] := fun hNil => absurd (hNil ▸ hId) List.not_mem_nil
      rw [Turn.block, List.takeWhile_eq_self_iff.mpr ((h.settled turn hTurn).unmixed hNe)]
      exact hEntry
  · exact Or.inl ⟨turn, hTurn, List.mem_map_of_mem hCall, (hBlock turn hTurn entry hEntry).1, hId⟩

/-- **Where no two calls have one id, behind every turn of the answer stand the
results of its calls, and no tool result stands anywhere else.** -/
theorem pairing_complete {messages : List Json} (h : (callIds messages).Nodup) :
    Paired messages (sanitizeToolUseResultPairing messages) := by
  rw [sanitize_eq]
  cases hChanged : (rebuild messages).changed with
  | true =>
    rw [if_pos rfl, rebuild_out h]
    exact paired_repaired h
  | false =>
    rw [if_neg (by simp)]
    exact paired_self ((rebuild_changed messages).mp hChanged)

theorem pairing_complete_repeatedResult :
    Paired repeatedResult (sanitizeToolUseResultPairing repeatedResult) :=
  pairing_complete (by decide +kernel)

end LosslessHermes.Assembler
