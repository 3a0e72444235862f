import LosslessHermes.Assembler.Paired
import Mathlib.Data.List.Forall2
import Mathlib.Data.List.Perm.Basic

/-!
# The repair changes nothing else

`conservative` says what the pairing repair leaves: all messages but the tool results, with
at most the blocks of an assistant message permuted, and results that were there or are the
synthetic ones. A repaired list is not changed by a second repair.
-/

namespace LosslessHermes.Assembler

open Json (get?)

/-- The same message, up to the order of its blocks if it is one of the assistant. -/
def Kept (entry entry' : Json) : Prop :=
  entry' = entry ∨ ∃ message blocks blocks', isAssistant entry = true ∧ entry = .obj message ∧
    get? message "content" = some (.arr blocks) ∧ blocks'.Perm blocks ∧
    entry' = .obj (Json.setField message "content" (.arr blocks'))

structure Conservative (messages : List Json) : Prop where
  kept : List.Forall₂ Kept (messages.filter fun entry => !isToolResult entry)
    ((sanitizeToolUseResultPairing messages).filter fun entry => !isToolResult entry)
  results : ∀ entry ∈ sanitizeToolUseResultPairing messages, isToolResult entry = true →
    entry ∈ messages ∨ ∃ turn ∈ turns messages, ∃ call ∈ turnCalls turn.message,
      entry = .obj (makeMissingToolResult call)
  idempotent : sanitizeToolUseResultPairing (sanitizeToolUseResultPairing messages) =
    sanitizeToolUseResultPairing messages

/-! ## The hoist -/

variable {scan : ReasoningScan} {blocks : List Json}

theorem isReasoning_or_of_scan {scan' : ReasoningScan}
    (h : reasoningScan scan blocks = some scan') : ∀ block ∈ blocks,
      blockSatisfies isReasoningBlock block = true ∨
        blockSatisfies isToolCallBlock block = true := by
  induction blocks generalizing scan with
  | nil => exact fun _ hBlock => absurd hBlock List.not_mem_nil
  | cons block blocks ih =>
    rw [List.forall_mem_cons]
    cases block with
    | obj fields =>
      rw [reasoningScan] at h
      split at h
      · exact ⟨Or.inl ‹_›, ih h⟩
      · split at h
        · exact ⟨Or.inr ‹_›, ih h⟩
        · cases h
    | _ => cases h

theorem filter_toolCalls_eq (h : ∀ block ∈ blocks,
    blockSatisfies isReasoningBlock block = true ∨ blockSatisfies isToolCallBlock block = true) :
    blocks.filter (blockSatisfies isToolCallBlock) =
      blocks.filter fun block => !blockSatisfies isReasoningBlock block := by
  apply List.filter_congr
  intro block hBlock
  cases hReasoning : blockSatisfies isReasoningBlock block with
  | true =>
    cases block with
    | obj fields => exact isToolCallBlock_of_isReasoningBlock hReasoning
    | _ => cases hReasoning
  | false => exact (h block hBlock).resolve_left (by rw [hReasoning]; exact Bool.false_ne_true)

variable {message : Message}

/-- The blocks of a message that is normalized are those of the message. -/
theorem normalize_perm {message' : Message}
    (h : normalizeAssistantReasoningBlocks message = some message') :
    ∃ blocks blocks', get? message "content" = some (.arr blocks) ∧ blocks'.Perm blocks ∧
      message' = Json.setField message "content" (.arr blocks') := by
  unfold normalizeAssistantReasoningBlocks at h
  split at h
  · rename_i blocks hBlocks
    split at h
    · rename_i scan hScan
      split at h
      · refine ⟨blocks, _, hBlocks, ?_, (Option.some.inj h).symm⟩
        rw [filter_toolCalls_eq (isReasoning_or_of_scan hScan)]
        exact List.filter_append_perm _ blocks
      · cases h
    · cases h
  · cases h

theorem kept_normalized (h : isAssistant (.obj message) = true) :
    Kept (.obj message) (.obj (normalized message)) := by
  unfold normalized
  cases hNormalized : normalizeAssistantReasoningBlocks message with
  | none => exact Or.inl rfl
  | some message' =>
    obtain ⟨blocks, blocks', hBlocks, hPerm, hEq⟩ := normalize_perm hNormalized
    exact Or.inr ⟨message, blocks, blocks', h, rfl, hBlocks, hPerm, congrArg _ hEq⟩

theorem reasoningScan_reasoning (hSaw : scan.sawToolCall = false)
    (h : ∀ block ∈ blocks, blockSatisfies isReasoningBlock block = true)
    (rest : List Json) : reasoningScan scan (blocks ++ rest) = reasoningScan scan rest := by
  induction blocks with
  | nil => rfl
  | cons block blocks ih =>
    obtain ⟨hBlock, hBlocks⟩ := List.forall_mem_cons.mp h
    cases block with
    | obj fields =>
      have hReasoning : isReasoningBlock fields = true := hBlock
      obtain ⟨saw, after, count⟩ := scan
      obtain rfl : saw = false := hSaw
      rw [List.cons_append, reasoningScan, if_pos hReasoning, Bool.or_false]
      exact ih hBlocks
    | _ => cases hBlock

theorem reasoningScan_toolCalls {scan' : ReasoningScan}
    (h : ∀ block ∈ blocks, blockSatisfies isToolCallBlock block = true)
    (hScan : reasoningScan scan blocks = some scan') :
    scan'.reasoningAfterToolCall = scan.reasoningAfterToolCall := by
  induction blocks generalizing scan with
  | nil =>
    obtain rfl := Option.some.inj hScan
    rfl
  | cons block blocks ih =>
    obtain ⟨hBlock, hBlocks⟩ := List.forall_mem_cons.mp h
    cases block with
    | obj fields =>
      have hCall : isToolCallBlock fields = true := hBlock
      have hNot : ¬ isReasoningBlock fields = true := by
        intro hReasoning
        rw [isToolCallBlock_of_isReasoningBlock hReasoning] at hCall
        cases hCall
      rw [reasoningScan, if_neg hNot, if_pos hCall] at hScan
      exact (ih hBlocks hScan).trans rfl
    | _ => cases hBlock

/-- Reasoning that stands in front of the calls stays where it is. -/
theorem normalized_normalized (message : Message) :
    normalized (normalized message) = normalized message := by
  rcases normalized_cases message with hEq | ⟨content, -, hEq⟩
  · rw [hEq, hEq]
  · have hNone : normalizeAssistantReasoningBlocks (normalized message) = none := by
      rw [hEq, normalizeAssistantReasoningBlocks, Json.get?_setField_self]
      dsimp only
      rw [reasoningScan_reasoning rfl fun block hBlock => (List.mem_filter.mp hBlock).2]
      cases hScan : reasoningScan ⟨false, false, 0⟩
          (content.filter (blockSatisfies isToolCallBlock)) with
      | none => rfl
      | some scan =>
        have hAfter := reasoningScan_toolCalls
          (fun block hBlock => (List.mem_filter.mp hBlock).2) hScan
        dsimp only
        rw [hAfter]
        rfl
    rw [normalized, hNone, Option.getD_none]

/-! ## The rebuilt turns -/

def rebuiltSpan (seen : List String) (turn : Turn) : List Json :=
  (firstCalls seen (turnCalls turn.message)).map (answer turn.span) ++
    turn.span.filter fun entry => !isToolResult entry

/-- The turns of the rebuilt list. -/
def rebuiltAs : List String → List Turn → List Turn
  | _, [] => []
  | seen, turn :: rest =>
      ⟨normalized turn.message, rebuiltSpan seen turn⟩ ::
        rebuiltAs ((turnIds turn.message).foldl noteId seen) rest

theorem rebuiltTurns_eq_flatMap (seen : List String) (found : List Turn) :
    rebuiltTurns seen found =
      (rebuiltAs seen found).flatMap fun turn => .obj turn.message :: turn.span := by
  induction found generalizing seen with
  | nil => rfl
  | cons turn rest ih =>
    rw [rebuiltTurns, rebuiltAs, List.flatMap_cons, ih]
    rfl

variable {seen : List String} {turn : Turn} {entry : Json}

theorem isToolResult_of_mem_answers
    (h : entry ∈ (firstCalls seen (turnCalls turn.message)).map (answer turn.span)) :
    isToolResult entry = true := by
  obtain ⟨call, hCall, rfl⟩ := List.mem_map.mp h
  exact isToolResult_of_resultId (resultId_answer (mem_firstCalls hCall).1)

theorem filter_rebuiltSpan (seen : List String) (turn : Turn) :
    (rebuiltSpan seen turn).filter (fun entry => !isToolResult entry) =
      turn.span.filter fun entry => !isToolResult entry := by
  rw [rebuiltSpan, List.filter_append, List.filter_filter, List.filter_eq_nil_iff.mpr,
    List.nil_append]
  · simp only [Bool.and_self]
  · intro entry hEntry
    rw [isToolResult_of_mem_answers hEntry]
    exact Bool.false_ne_true

/-- The first result for one of the calls that are answered is its answer. -/
theorem resultFor_answers {span rest : List Json} {calls : List ToolCall}
    (hId : ∀ call ∈ calls, resultId (answer span call) = some call.id)
    (hNodup : (calls.map (·.id)).Nodup) {call : ToolCall} (h : call ∈ calls) :
    resultFor (calls.map (answer span) ++ rest) call.id = some (answer span call) := by
  induction calls with
  | nil => cases h
  | cons first calls ih =>
    obtain ⟨hFirst, hCalls⟩ := List.forall_mem_cons.mp hId
    obtain ⟨hFresh, hNodup⟩ := List.nodup_cons.mp hNodup
    rw [List.map_cons, List.cons_append, resultFor_cons, hFirst]
    rcases List.mem_cons.mp h with rfl | h
    · rw [if_pos rfl]
    · rw [if_neg, ih hCalls hNodup h]
      intro hEq
      have hMem : call.id ∈ calls.map (·.id) := List.mem_map_of_mem h
      rw [← Option.some.inj hEq] at hMem
      exact hFresh hMem

theorem rebuiltSpan_rebuilt (seen : List String) (turn : Turn) :
    rebuiltSpan seen ⟨normalized turn.message, rebuiltSpan seen turn⟩ = rebuiltSpan seen turn := by
  have hAnswers : (firstCalls seen (turnCalls turn.message)).map (answer (rebuiltSpan seen turn)) =
      (firstCalls seen (turnCalls turn.message)).map (answer turn.span) := by
    apply List.map_congr_left
    intro call hCall
    rw [answer, rebuiltSpan, resultFor_answers
      (fun other hOther => resultId_answer (mem_firstCalls hOther).1) (firstCalls_nodup _ _) hCall,
      Option.getD_some]
  rw [rebuiltSpan, turnCalls_normalized, hAnswers, filter_rebuiltSpan, ← rebuiltSpan]

theorem rebuiltTurns_rebuilt (seen : List String) (found : List Turn) :
    rebuiltTurns seen (rebuiltAs seen found) = rebuiltTurns seen found := by
  induction found generalizing seen with
  | nil => rfl
  | cons turn rest ih =>
    have hIds : turnIds (normalized turn.message) = turnIds turn.message := by
      rw [turnIds, turnCalls_normalized, turnIds]
    have hTurn : rebuiltTurn seen ⟨normalized turn.message, rebuiltSpan seen turn⟩ =
        rebuiltTurn seen turn := by
      rw [rebuiltTurn, rebuiltTurn, ← rebuiltSpan, ← rebuiltSpan, rebuiltSpan_rebuilt,
        normalized_normalized]
    rw [rebuiltAs, rebuiltTurns, hIds, ih, hTurn, rebuiltTurns]

theorem mem_rebuiltAs {found : List Turn}
    (h : turn ∈ rebuiltAs seen found) : ∃ turn' ∈ found, ∃ seen',
      turn = ⟨normalized turn'.message, rebuiltSpan seen' turn'⟩ := by
  induction found generalizing seen with
  | nil => cases h
  | cons first rest ih =>
    rcases List.mem_cons.mp h with rfl | h
    · exact ⟨first, List.mem_cons_self, seen, rfl⟩
    · obtain ⟨turn', hTurn', hEq⟩ := ih h
      exact ⟨turn', List.mem_cons_of_mem _ hTurn', hEq⟩

/-! ## The rebuilt list -/

theorem rebuild_out_eq (messages : List Json) : (rebuild messages).out =
    (leading messages).filter (fun entry => !isToolResult entry) ++
      rebuiltTurns [] (turns messages) :=
  sanitizeLoop_rebuilt _ _ _ (Nat.le_refl _)

theorem turns_rebuilt (messages : List Json) :
    leading (rebuild messages).out = (leading messages).filter (fun entry => !isToolResult entry) ∧
      turns (rebuild messages).out = rebuiltAs [] (turns messages) := by
  have hLeading : ∀ entry ∈ (leading messages).filter fun entry => !isToolResult entry,
      isAssistant entry = false :=
    fun entry hEntry => leading_not (List.mem_filter.mp hEntry).1
  have hMessage : ∀ turn ∈ rebuiltAs [] (turns messages),
      isAssistant (.obj turn.message) = true := by
    intro turn hTurn
    obtain ⟨turn', hTurn', seen, rfl⟩ := mem_rebuiltAs hTurn
    rw [isAssistant_normalized]
    exact (isAssistant_of_mem_turns hTurn').1
  have hSpan : ∀ turn ∈ rebuiltAs [] (turns messages), ∀ entry ∈ turn.span,
      isAssistant entry = false := by
    intro turn hTurn entry hEntry
    obtain ⟨turn', hTurn', seen, rfl⟩ := mem_rebuiltAs hTurn
    rcases List.mem_append.mp hEntry with hEntry | hEntry
    · exact isAssistant_of_isToolResult (isToolResult_of_mem_answers hEntry)
    · exact (isAssistant_of_mem_turns hTurn').2 entry (List.mem_filter.mp hEntry).1
  obtain ⟨hNil, hTurns⟩ := turns_flatMap (·.message) (·.span) (rebuiltAs [] (turns messages))
    hMessage hSpan
  rw [rebuild_out_eq, rebuiltTurns_eq_flatMap]
  constructor
  · rw [leading_append_of_not hLeading, hNil, List.append_nil]
  · rw [turns_append_of_not hLeading, hTurns, List.map_id']

theorem rebuild_rebuild (messages : List Json) :
    (rebuild (rebuild messages).out).out = (rebuild messages).out := by
  obtain ⟨hLeading, hTurns⟩ := turns_rebuilt messages
  rw [rebuild_out_eq (rebuild messages).out, hLeading, hTurns, rebuiltTurns_rebuilt,
    List.filter_filter, rebuild_out_eq]
  simp only [Bool.and_self]

theorem sanitize_sanitize (messages : List Json) :
    sanitizeToolUseResultPairing (sanitizeToolUseResultPairing messages) =
      sanitizeToolUseResultPairing messages := by
  rw [sanitize_eq messages]
  split
  · rw [sanitize_eq, rebuild_rebuild, ite_self]
  · rename_i hUnchanged
    rw [sanitize_eq, if_neg hUnchanged]

theorem forall₂_kept_refl (entries : List Json) : List.Forall₂ Kept entries entries :=
  List.forall₂_same.mpr fun _ _ => Or.inl rfl

theorem filter_cons_assistant (h : isAssistant (.obj message) = true) (entries : List Json) :
    (.obj message :: entries).filter (fun entry => !isToolResult entry) =
      .obj message :: entries.filter fun entry => !isToolResult entry := by
  apply List.filter_cons_of_pos
  cases hResult : isToolResult (.obj message) with
  | false => rfl
  | true =>
    rw [isAssistant_of_isToolResult hResult] at h
    cases h

theorem filter_rebuiltTurns {seen : List String} {found : List Turn}
    (h : ∀ turn ∈ found, isAssistant (.obj turn.message) = true) :
    List.Forall₂ Kept
      ((found.flatMap fun turn => .obj turn.message :: turn.span).filter
        fun entry => !isToolResult entry)
      ((rebuiltTurns seen found).filter fun entry => !isToolResult entry) := by
  induction found generalizing seen with
  | nil => exact List.Forall₂.nil
  | cons turn rest ih =>
    obtain ⟨hTurn, hRest⟩ := List.forall_mem_cons.mp h
    have hNormalized : isAssistant (.obj (normalized turn.message)) = true := by
      rw [isAssistant_normalized, hTurn]
    rw [List.flatMap_cons, rebuiltTurns, rebuiltTurn, ← rebuiltSpan, List.cons_append,
      List.cons_append, filter_cons_assistant hTurn, filter_cons_assistant hNormalized,
      List.filter_append, List.filter_append, filter_rebuiltSpan]
    exact List.Forall₂.cons (kept_normalized hTurn)
      (List.rel_append (forall₂_kept_refl _) (ih hRest))

theorem kept_rebuilt (messages : List Json) :
    List.Forall₂ Kept (messages.filter fun entry => !isToolResult entry)
      ((rebuild messages).out.filter fun entry => !isToolResult entry) := by
  have hTurns := @filter_rebuiltTurns [] _
    fun turn (hTurn : turn ∈ turns messages) => (isAssistant_of_mem_turns hTurn).1
  have hSame : ((leading messages).filter fun entry => !isToolResult entry).filter
      (fun entry => !isToolResult entry) =
        (leading messages).filter fun entry => !isToolResult entry := by
    rw [List.filter_filter]
    simp only [Bool.and_self]
  rw [rebuild_out_eq, List.filter_append, hSame]
  conv_lhs => rw [← turns_flatten messages, List.filter_append]
  exact List.rel_append (forall₂_kept_refl _) hTurns

/-- The results of a rebuilt turn stood in its span or are synthetic. -/
theorem mem_rebuiltTurns {found : List Turn}
    (hFound : ∀ turn ∈ found, isAssistant (.obj turn.message) = true)
    (h : entry ∈ rebuiltTurns seen found) (hResult : isToolResult entry = true) :
    ∃ turn ∈ found, entry ∈ turn.span ∨ ∃ call ∈ turnCalls turn.message,
      entry = .obj (makeMissingToolResult call) := by
  induction found generalizing seen with
  | nil => cases h
  | cons turn rest ih =>
    obtain ⟨hTurn, hRest⟩ := List.forall_mem_cons.mp hFound
    rcases List.mem_append.mp h with h | h
    · refine ⟨turn, List.mem_cons_self, ?_⟩
      rcases List.mem_cons.mp h with rfl | h
      · have hAssistant := isAssistant_of_isToolResult hResult
        rw [isAssistant_normalized, hTurn] at hAssistant
        cases hAssistant
      · rcases List.mem_append.mp h with h | h
        · obtain ⟨call, hCall, rfl⟩ := List.mem_map.mp h
          unfold answer
          cases hStood : resultFor turn.span call.id with
          | none => exact Or.inr ⟨call, (mem_firstCalls hCall).1, rfl⟩
          | some entry => exact Or.inl (List.mem_of_find?_eq_some hStood)
        · exact Or.inl (List.mem_filter.mp h).1
    · obtain ⟨turn', hTurn', hEntry⟩ := ih hRest h
      exact ⟨turn', List.mem_cons_of_mem _ hTurn', hEntry⟩

theorem mem_of_mem_turns {messages : List Json} (h : turn ∈ turns messages)
    (hEntry : entry ∈ turn.span) : entry ∈ messages := by
  rw [← turns_flatten messages]
  exact List.mem_append_right _ (List.mem_flatMap.mpr ⟨turn, h, List.mem_cons_of_mem _ hEntry⟩)

theorem mem_rebuilt {messages : List Json} (h : entry ∈ (rebuild messages).out)
    (hResult : isToolResult entry = true) :
    entry ∈ messages ∨ ∃ turn ∈ turns messages, ∃ call ∈ turnCalls turn.message,
      entry = .obj (makeMissingToolResult call) := by
  rw [rebuild_out_eq] at h
  rcases List.mem_append.mp h with h | h
  · rw [List.mem_filter, hResult] at h
    exact absurd h.2 Bool.false_ne_true
  · obtain ⟨turn, hTurn, hEntry | hEntry⟩ := mem_rebuiltTurns
      (fun turn hTurn => (isAssistant_of_mem_turns hTurn).1) h hResult
    · exact Or.inl (mem_of_mem_turns hTurn hEntry)
    · exact Or.inr ⟨turn, hTurn, hEntry⟩

/-- **The repair keeps all messages but the tool results and their order, makes no result
that is not the synthetic one of a call, and does nothing more when it is repeated.** -/
theorem conservative (messages : List Json) : Conservative messages := by
  refine ⟨?_, fun entry hEntry hResult => ?_, sanitize_sanitize messages⟩
  · rw [sanitize_eq]
    split
    · exact kept_rebuilt messages
    · exact forall₂_kept_refl _
  · rw [sanitize_eq] at hEntry
    split at hEntry
    · exact mem_rebuilt hEntry hResult
    · exact Or.inl hEntry

end LosslessHermes.Assembler
