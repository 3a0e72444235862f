import LosslessHermes.Assembler.Estimate
import LosslessHermes.Assembler.Restore

/-!
# The calls that the passes keep

What the stripping of calls, the cleaning of content and the pairing repair do to
the calls that a message shows. `cleanItem_keeps` says that a message whose calls are
all answered later passes the cleaning with its calls; `turn_of_split` and
`split_of_turn` find the turn of a message from its place in the list and back.
-/

namespace LosslessHermes.Assembler

open Json (get?)

/-! ## The place of a turn -/

/-- A turn is an assistant message and what stands up to the next one. -/
theorem split_of_turn {entries : List Json} {turn : Turn} (h : turn ∈ turns entries) :
    ∃ before after, entries = before ++ .obj turn.message :: (turn.span ++ after) := by
  induction entries with
  | nil => cases h
  | cons entry entries ih =>
    have hLater : turn ∈ turns entries →
        ∃ before after,
          entry :: entries = before ++ .obj turn.message :: (turn.span ++ after) := by
      intro hTurn
      obtain ⟨before, after, hSplit⟩ := ih hTurn
      exact ⟨entry :: before, after, by rw [List.cons_append, ← hSplit]⟩
    cases hAssistant : isAssistant entry with
    | true =>
      obtain ⟨message, rfl⟩ := exists_of_isAssistant hAssistant
      rw [turns_cons hAssistant] at h
      rcases List.mem_cons.mp h with rfl | h
      · exact ⟨[], fromAssistant entries, by rw [leading_append]; rfl⟩
      · exact hLater h
    | false =>
      rw [turns_cons_of_not hAssistant] at h
      exact hLater h

variable {message : Message}

theorem turn_of_split (h : isAssistant (.obj message) = true) (before after : List Json) :
    (⟨message, leading after⟩ : Turn) ∈ turns (before ++ .obj message :: after) := by
  induction before with
  | nil =>
    rw [List.nil_append, turns_cons h]
    exact List.mem_cons_self
  | cons entry before ih =>
    rw [List.cons_append]
    cases hEntry : isAssistant entry with
    | true =>
      obtain ⟨other, rfl⟩ := exists_of_isAssistant hEntry
      rw [turns_cons hEntry]
      exact List.mem_cons_of_mem _ ih
    | false =>
      rw [turns_cons_of_not hEntry]
      exact ih

/-- Every entry stands in front of the turns, opens one or stands in one. -/
theorem mem_turns_cases {entries : List Json} {entry : Json} (h : entry ∈ entries) :
    entry ∈ leading entries ∨
      ∃ turn ∈ turns entries, entry = .obj turn.message ∨ entry ∈ turn.span := by
  rw [← turns_flatten entries] at h
  rcases List.mem_append.mp h with h | h
  · exact Or.inl h
  · obtain ⟨turn, hTurn, hEntry⟩ := List.mem_flatMap.mp h
    exact Or.inr ⟨turn, hTurn, List.mem_cons.mp hEntry⟩

/-! ## The calls that blocks show -/

theorem shownCalls_blocks {blocks : List Message}
    (h : get? message "content" = some (.arr (blocks.map .obj))) :
    shownCalls message = blocks.filterMap shownCall := by
  rw [shownCalls, h]
  dsimp only
  rw [List.filterMap_map]
  rfl

theorem isToolCallBlock_of_shownCall {block : Message} {call : HistoryCall}
    (h : shownCall block = some call) :
    isToolCallBlock block = true ∧ extractToolCallId block = some call.id := by
  unfold shownCall at h
  split at h
  · rename_i hBlock
    obtain ⟨id, hId, h⟩ := Option.bind_eq_some_iff.mp h
    obtain ⟨name, -, h⟩ := Option.bind_eq_some_iff.mp h
    obtain ⟨arguments, -, rfl⟩ := Option.map_eq_some_iff.mp h
    exact ⟨hBlock, hId⟩
  · cases h

/-- Where every call is complete, the repair and the blocks agree on the calls. -/
theorem turnIds_blocks {blocks : List Message}
    (h : get? message "content" = some (.arr (blocks.map .obj)))
    (hCompleted : isFailedStop message = false)
    (hComplete : ∀ block ∈ blocks, isToolCallBlock block = true → (shownCall block).isSome = true) :
    turnIds message = (shownCalls message).map (·.id) := by
  rw [shownCalls_blocks h, turnIds, turnCalls, hCompleted, if_neg (by simp),
    extractToolCallsFromAssistant, h]
  dsimp only
  rw [List.filterMap_map, List.map_filterMap, List.map_filterMap]
  refine List.filterMap_congr fun block hBlock => ?_
  dsimp only [Function.comp_apply]
  cases hCall : isToolCallBlock block with
  | true =>
    obtain ⟨call, hShown⟩ := Option.isSome_iff_exists.mp (hComplete block hBlock hCall)
    rw [if_pos rfl, hShown, (isToolCallBlock_of_shownCall hShown).2]
    rfl
  | false =>
    have hNone : shownCall block = none := by rw [shownCall, hCall]; rfl
    rw [if_neg (by simp), hNone]
    rfl

/-- Reasoning that is moved in front of a call leaves the calls as they are. -/
theorem shownCalls_normalized (message : Message) :
    shownCalls (normalized message) = shownCalls message := by
  rcases normalized_cases message with hEq | ⟨content, hContent, hEq⟩
  · rw [hEq]
  · unfold shownCalls
    rw [hEq, Json.get?_setField_self, hContent]
    dsimp only
    rw [List.filterMap_append, List.filterMap_eq_nil_iff.mpr, List.nil_append]
    · refine filterMap_filter_of_none (fun item hItem => ?_) content
      cases item with
      | obj fields =>
        have hCall : isToolCallBlock fields = false := hItem
        dsimp only
        rw [shownCall, hCall]
        rfl
      | _ => rfl
    · intro item hItem
      have hReasoning := (List.mem_filter.mp hItem).2
      cases item with
      | obj fields =>
        dsimp only
        rw [shownCall, isToolCallBlock_of_isReasoningBlock hReasoning]
        rfl
      | _ => rfl

/-! ## What cleaning leaves -/

theorem roleOf_setContent (message : Message) (content : Json) :
    roleOf (Json.setField message "content" content) = roleOf message := by
  unfold roleOf
  rw [Json.get?_setField_of_ne _ (by decide)]

theorem isFailedStop_setContent (message : Message) (content : Json) :
    isFailedStop (Json.setField message "content" content) = isFailedStop message := by
  unfold isFailedStop
  rw [Json.get?_setField_of_ne _ (by decide)]

/-- A list of blocks is rewritten only if a block is taken away. -/
theorem keep_content {content : List Json}
    (hContent : get? message "content" = some (.arr content)) (p : Json → Bool) {kept : Message}
    (hKept : kept = if (content.filter p).length = content.length then message
      else Json.setField message "content" (.arr (content.filter p))) :
    get? kept "content" = some (.arr (content.filter p)) ∧ roleOf kept = roleOf message ∧
      isFailedStop kept = isFailedStop message := by
  subst hKept
  split
  · rename_i hLength
    refine ⟨?_, rfl, rfl⟩
    rw [hContent, List.filter_eq_self.mpr (List.length_filter_eq_length_iff.mp hLength)]
  · exact ⟨Json.get?_setField_self _ _ _, roleOf_setContent _ _, isFailedStop_setContent _ _⟩

/-- A call is neither text nor reasoning. -/
theorem isToolCallBlock_apart {block : Message} (h : isToolCallBlock block = true) :
    isBlankTextBlock (.obj block) = false ∧
      (blockType block).any (thinkingLikeTypes.contains ·) = false := by
  obtain ⟨type, hType, hMem⟩ : ∃ type, blockType block = some type ∧ type ∈ toolCallTypes := by
    unfold isToolCallBlock at h
    cases hType : blockType block with
    | none =>
      rw [hType] at h
      cases h
    | some type =>
      rw [hType, Option.any_some, List.contains_iff_mem] at h
      exact ⟨type, rfl, h⟩
  have hGet : get? block "type" = some (.str type) := by
    unfold blockType at hType
    split at hType
    · cases hType
      assumption
    · cases hType
  have hApart : ∀ found ∈ toolCallTypes,
      found ≠ "text" ∧ thinkingLikeTypes.contains found = false := by decide
  obtain ⟨hText, hThinking⟩ := hApart type hMem
  constructor
  · unfold isBlankTextBlock
    dsimp only
    rw [hGet]
    cases get? block "text" with
    | none => rfl
    | some value =>
      cases value with
      | str text => simp [hText]
      | _ => rfl
  · rw [hType, Option.any_some]
    exact hThinking

section Clean

variable {selected resolved : List ResolvedItem} {orphanStrippingOrdinal : Int}
  {item : ResolvedItem}

theorem cleanItem_of_not_assistant (h : roleOf item.message ≠ some "assistant") :
    cleanItem selected resolved orphanStrippingOrdinal item = some item.message := by
  have hKeep : isEmptyAssistant item.message = false := by
    unfold isEmptyAssistant
    simp [h]
  rw [cleanItem, filterAssistantBlocks, if_pos h, Option.map_some, normalizeAssistantContent,
    if_pos h, Option.filter_some, hKeep]
  rfl

/-- What is left of an assistant message are the blocks that are kept, but for blank
text. -/
theorem cleanItem_assistant {content kept : List Json}
    (hRole : roleOf item.message = some "assistant")
    (hContent : get? item.message "content" = some (.arr content))
    (hKept : kept = content.filter
      (keepsBlock selected resolved orphanStrippingOrdinal item.ordinal)) :
    ∃ shown, roleOf shown = some "assistant" ∧
      isFailedStop shown = isFailedStop item.message ∧
      get? shown "content" = some (.arr (kept.filter fun block => !isBlankTextBlock block)) ∧
      cleanItem selected resolved orphanStrippingOrdinal item =
        if kept.isEmpty || isEmptyAssistant shown then none else some shown := by
  obtain ⟨hFiltered, hFilteredRole, hFilteredStop⟩ := keep_content hContent
    (keepsBlock selected resolved orphanStrippingOrdinal item.ordinal) rfl
  rw [← hKept] at hFiltered hFilteredRole hFilteredStop
  let filtered := if kept.length = content.length then item.message
    else Json.setField item.message "content" (.arr kept)
  have hFilter : filterAssistantBlocks selected resolved orphanStrippingOrdinal item =
      if kept.isEmpty then none else some filtered := by
    rw [filterAssistantBlocks, if_neg (by simp [hRole]), hContent, hKept]
    dsimp only
    split
    · rfl
    · exact (apply_ite some _ _ _).symm.trans (by rw [← hKept])
  have hNormalize : normalizeAssistantContent filtered =
      if (kept.filter fun block => !isBlankTextBlock block).length = kept.length then filtered
        else Json.setField filtered "content"
          (.arr (kept.filter fun block => !isBlankTextBlock block)) := by
    rw [normalizeAssistantContent, if_neg (by simp [filtered, hFilteredRole, hRole]), hFiltered]
    exact ite_not _ _ _
  obtain ⟨hShown, hShownRole, hShownStop⟩ := keep_content hFiltered _ hNormalize
  refine ⟨normalizeAssistantContent filtered, hShownRole.trans (hFilteredRole.trans hRole),
    hShownStop.trans hFilteredStop, hShown, ?_⟩
  rw [cleanItem, hFilter]
  cases hEmpty : kept.isEmpty with
  | true => rfl
  | false =>
    rw [if_neg (by simp), Option.map_some, Option.filter_some, Bool.false_or]
    cases isEmptyAssistant (normalizeAssistantContent filtered) <;> rfl

theorem filterMap_shownCall_blank (blocks : List Message) :
    (blocks.filter fun block => !isBlankTextBlock (.obj block)).filterMap shownCall =
      blocks.filterMap shownCall := by
  refine filterMap_filter_of_none (fun block hBlank => ?_) blocks
  cases hCall : isToolCallBlock block with
  | true =>
    rw [(isToolCallBlock_apart hCall).1] at hBlank
    cases hBlank
  | false =>
    rw [shownCall, hCall]
    rfl

/-- What is left of a restored assistant message. -/
theorem cleanItem_restored {calls : List HistoryCall} (h : RestoredAssistant calls item.message) :
    ∃ blocks kept shown, RestoredCalls calls blocks ∧
      kept = blocks.filter (fun block => keepsBlock selected resolved orphanStrippingOrdinal
        item.ordinal (.obj block)) ∧
      roleOf shown = some "assistant" ∧ isFailedStop shown = false ∧
      get? shown "content" =
        some (.arr ((kept.filter fun block => !isBlankTextBlock (.obj block)).map .obj)) ∧
      cleanItem selected resolved orphanStrippingOrdinal item =
        if kept.isEmpty || isEmptyAssistant shown then none else some shown := by
  obtain ⟨blocks, hContent, hCalls⟩ := h.content
  let kept := blocks.filter fun block =>
    keepsBlock selected resolved orphanStrippingOrdinal item.ordinal (.obj block)
  obtain ⟨shown, hRole, hStop, hShown, hEq⟩ := @cleanItem_assistant selected resolved
    orphanStrippingOrdinal item _ (kept.map .obj) h.role hContent
    (by rw [List.filter_map]; rfl)
  rw [List.filter_map] at hShown
  rw [List.isEmpty_map] at hEq
  exact ⟨blocks, kept, shown, hCalls, rfl, hRole, hStop.trans h.completed, hShown, hEq⟩

/-- No pass in front of the repair makes up a call. -/
theorem cleanItem_calls {calls : List HistoryCall} (h : RestoredAssistant calls item.message)
    {message : Message}
    (hClean : cleanItem selected resolved orphanStrippingOrdinal item = some message) :
    roleOf message = some "assistant" ∧
      (shownCalls message).Sublist (calls.map HistoryCall.restored) ∧
      turnIds message = (shownCalls message).map (·.id) := by
  obtain ⟨blocks, kept, shown, hCalls, hKept, hRole, hStop, hShown, hEq⟩ :=
    @cleanItem_restored selected resolved orphanStrippingOrdinal item calls h
  obtain rfl : shown = message := by
    rw [hEq] at hClean
    split at hClean
    · cases hClean
    · exact Option.some.inj hClean
  have hSublist : kept.Sublist blocks := hKept ▸ List.filter_sublist
  refine ⟨hRole, ?_, turnIds_blocks hShown hStop fun block hBlock => ?_⟩
  · rw [shownCalls_blocks hShown, filterMap_shownCall_blank, ← hCalls.shown]
    exact hSublist.filterMap shownCall
  · exact hCalls.complete block (hSublist.subset (List.mem_of_mem_filter hBlock))

theorem isEmptyAssistant_of_call {message : Message} {blocks : List Message}
    (hContent : get? message "content" = some (.arr (blocks.map .obj))) {block : Message}
    (hBlock : block ∈ blocks) (hCall : isToolCallBlock block = true) :
    isEmptyAssistant message = false := by
  obtain ⟨hText, hThinking⟩ := isToolCallBlock_apart hCall
  have hMem : Json.obj block ∈ blocks.map Json.obj := List.mem_map_of_mem hBlock
  unfold isEmptyAssistant
  rw [hContent]
  simp only [Bool.and_eq_false_imp, Bool.or_eq_false_iff, List.all_eq_false]
  intro _
  exact ⟨⟨_, hMem, by rw [blockSatisfies, hThinking]; simp⟩, ⟨_, hMem, by simp [hText]⟩⟩

/-- A message whose calls are all answered later passes with its calls. -/
theorem cleanItem_keeps {calls : List HistoryCall} (h : RestoredAssistant calls item.message)
    (hNonempty : calls ≠ []) (hAnswered : ∀ call ∈ calls,
      (resultOrdinals selected call.id).any (item.ordinal < ·) = true) :
    ∃ message, cleanItem selected resolved orphanStrippingOrdinal item = some message ∧
      shownCalls message = calls.map HistoryCall.restored := by
  obtain ⟨blocks, kept, shown, hCalls, hKept, hRole, hStop, hShown, hEq⟩ :=
    @cleanItem_restored selected resolved orphanStrippingOrdinal item calls h
  have hAll : kept = blocks := by
    rw [hKept, List.filter_eq_self]
    intro block hBlock
    cases hCall : isToolCallBlock block with
    | false => simp [keepsBlock, hCall]
    | true =>
      obtain ⟨call, hCallEq⟩ := Option.isSome_iff_exists.mp (hCalls.complete block hBlock hCall)
      have hMem : call ∈ calls.map HistoryCall.restored := by
        rw [← hCalls.shown]
        exact List.mem_filterMap.mpr ⟨block, hBlock, hCallEq⟩
      obtain ⟨found, hFound, rfl⟩ := List.mem_map.mp hMem
      unfold keepsBlock
      dsimp only
      rw [if_neg (by simp [hCall]), (isToolCallBlock_of_shownCall hCallEq).2]
      exact if_pos (hAnswered found hFound)
  rw [hAll] at hShown hEq
  obtain ⟨call, hCall⟩ := List.exists_mem_of_ne_nil _ hNonempty
  have hMem : call.restored ∈ blocks.filterMap shownCall := by
    rw [hCalls.shown]
    exact List.mem_map_of_mem hCall
  obtain ⟨block, hBlock, hBlockCall⟩ := List.mem_filterMap.mp hMem
  have hIsCall := (isToolCallBlock_of_shownCall hBlockCall).1
  have hKeptBlock : block ∈ blocks.filter fun block => !isBlankTextBlock (.obj block) :=
    List.mem_filter.mpr ⟨hBlock, by rw [(isToolCallBlock_apart hIsCall).1]; rfl⟩
  refine ⟨shown, ?_, ?_⟩
  · rw [hEq, isEmptyAssistant_of_call hShown hKeptBlock hIsCall,
      List.isEmpty_eq_false_iff.mpr (List.ne_nil_of_mem hBlock)]
    rfl
  · rw [shownCalls_blocks hShown, filterMap_shownCall_blank, hCalls.shown]

end Clean

end LosslessHermes.Assembler
