import LosslessHermes.Assembler.Assemble
import LosslessHermes.Assembler.Paired

/-!
# What assembly protects

The passes after the selection drop and rewrite assistant messages and tool
results only. `sanitize_others` says so of the pairing repair; from it and the
boundary lemmas `assemble_protects` has that the fresh tail starts at a message, and
that the user messages of the selection are those of the assembled list.
-/

namespace LosslessHermes.Assembler

open Json (get?)

/-! ## The selection -/

/-- The resolved items behind the boundary, those in front of it, and what the budget
walk keeps of the latter. -/
structure Selection where
  evictable : List ResolvedItem
  freshTail : List ResolvedItem
  kept : List ResolvedItem

def Selection.selected (selection : Selection) : List ResolvedItem :=
  selection.kept ++ selection.freshTail

def select (resolved : List ResolvedItem) (input : AssembleInput) : Selection :=
  let freshTailOrdinal :=
    resolveFreshTailOrdinal resolved input.freshTailCount input.freshTailMaxTokens
  let evictable := resolved.filter (·.ordinal < freshTailOrdinal)
  let freshTail := resolved.filter fun item => !(item.ordinal < freshTailOrdinal)
  { evictable := evictable
    freshTail := freshTail
    kept := (budgetWalk evictable freshTail input.tokenBudget input.prompt
      input.promptAwareEviction).1 }

variable (environment : Environment) (db : Db)

def resolvedItems (input : AssembleInput) : List ResolvedItem :=
  resolveItems environment db (db.getContextItems input.conversationId)

/-- What is left of the selection in front of the pairing repair. -/
def cleanedMessages (input : AssembleInput) : List Message :=
  let resolved := resolvedItems environment db input
  let freshTailOrdinal :=
    resolveFreshTailOrdinal resolved input.freshTailCount input.freshTailMaxTokens
  cleanAssistantContent (filterNonFreshAssistantToolCalls (select resolved input).selected resolved
    ((input.orphanStrippingOrdinal.filter (0 ≤ ·)).getD freshTailOrdinal))

theorem assemble_messages (input : AssembleInput) :
    (assemble environment db input).messages =
      sanitizeToolUseResultPairing ((cleanedMessages environment db input).map .obj) := by
  unfold assemble cleanedMessages select Selection.selected resolvedItems
  dsimp only

theorem resolveItem_ordinal {item : ContextItemRecord} {resolved : ResolvedItem}
    (h : resolveItem environment db item = some resolved) : resolved.ordinal = item.ordinal := by
  unfold resolveItem at h
  split at h
  · dsimp only [resolveMessageItem] at h
    split at h
    · cases h
    · split at h
      · cases h
      · cases h
        rfl
  · dsimp only [resolveSummaryItem] at h
    split at h
    · cases h
    · cases h
      rfl

variable {input : AssembleInput}

/-- The ordinals of resolved items ascend, the context has each of them once. -/
theorem resolvedItems_ascending
    (hOrdinals : ((db.getContextItems input.conversationId).map (·.ordinal)).Nodup) :
    (resolvedItems environment db input).Pairwise fun a b => a.ordinal < b.ordinal := by
  have hSorted : (db.getContextItems input.conversationId).Pairwise fun a b =>
      a.ordinal ≤ b.ordinal := Table.select_pairwise_le _
  have hStrict := (hSorted.and (List.pairwise_map.mp hOrdinals)).imp fun h =>
    lt_of_le_of_ne h.1 h.2
  refine List.pairwise_filterMap.mpr (hStrict.imp fun {a b} h found hFound found' hFound' => ?_)
  rw [resolveItem_ordinal environment db hFound, resolveItem_ordinal environment db hFound']
  exact h

/-! ## Messages that no pass touches -/

def isUser : Json → Bool :=
  blockSatisfies fun message => roleOf message = some "user"

def isOther (entry : Json) : Bool :=
  !isAssistant entry && !isToolResult entry

theorem isOther_of_isUser {entry : Json} (h : isUser entry = true) : isOther entry = true := by
  cases entry with
  | obj message =>
    have hRole : roleOf message = some "user" := by simpa [isUser, blockSatisfies] using h
    simp [isOther, isAssistant, isToolResult, blockSatisfies, hRole]
  | _ => cases h

theorem filter_isOther_of_results {entries : List Json}
    (h : ∀ entry ∈ entries, isToolResult entry = true) : entries.filter isOther = [] :=
  List.filter_eq_nil_iff.mpr fun entry hEntry => by simp [isOther, h entry hEntry]

theorem filter_isOther_of_not_assistant (entries : List Json) :
    (entries.filter fun entry => !isToolResult entry).filter isOther = entries.filter isOther := by
  rw [List.filter_filter]
  refine List.filter_congr fun entry _ => ?_
  cases hResult : isToolResult entry <;> simp [isOther, hResult]

theorem filter_isOther_rebuiltTurns (seen : List String) (found : List Turn)
    (hFound : ∀ turn ∈ found, isAssistant (.obj turn.message) = true) :
    (rebuiltTurns seen found).filter isOther =
      (found.flatMap fun turn => .obj turn.message :: turn.span).filter isOther := by
  induction found generalizing seen with
  | nil => rfl
  | cons turn rest ih =>
    obtain ⟨hTurn, hRest⟩ := List.forall_mem_cons.mp hFound
    have hMessage :
        ∀ message, isAssistant (.obj message) = true → isOther (.obj message) = false :=
      fun message h => by simp [isOther, h]
    have hAnswers : ((firstCalls seen (turnCalls turn.message)).map (answer turn.span)).filter
        isOther = [] := by
      refine filter_isOther_of_results fun entry hEntry => ?_
      obtain ⟨call, hCall, rfl⟩ := List.mem_map.mp hEntry
      exact isToolResult_of_resultId (resultId_answer (mem_firstCalls hCall).1)
    rw [rebuiltTurns, rebuiltTurn, List.flatMap_cons, List.filter_append, List.filter_append,
      ih _ hRest, List.filter_cons_of_neg, List.filter_cons_of_neg, List.filter_append, hAnswers,
      filter_isOther_of_not_assistant, List.nil_append]
    · rw [hMessage _ hTurn]
      simp
    · rw [hMessage _ (isAssistant_normalized turn.message ▸ hTurn)]
      simp

/-- The repair keeps what is neither an assistant message nor a tool result, in
order. -/
theorem sanitize_others (messages : List Json) :
    (sanitizeToolUseResultPairing messages).filter isOther = messages.filter isOther := by
  rw [sanitize_eq]
  split
  · conv_rhs => rw [← turns_flatten messages]
    rw [rebuild, sanitizeLoop_rebuilt _ _ _ (Nat.le_refl _), List.nil_append, List.filter_append,
      List.filter_append, filter_isOther_of_not_assistant, filter_isOther_rebuiltTurns]
    exact fun turn hTurn => (isAssistant_of_mem_turns hTurn).1
  · rfl

theorem sanitize_users (messages : List Json) :
    (sanitizeToolUseResultPairing messages).filter isUser = messages.filter isUser := by
  have hOthers : ∀ entries : List Json,
      entries.filter isUser = (entries.filter isOther).filter isUser := by
    intro entries
    rw [List.filter_filter]
    refine List.filter_congr fun entry _ => ?_
    cases hUser : isUser entry with
    | false => rfl
    | true => rw [isOther_of_isUser hUser]; rfl
  rw [hOthers, sanitize_others, ← hOthers]

/-- A pass over single messages that leaves those of the user and makes no other. -/
def LeavesUsers {α : Type} (f : α → Option Message) (message : α → Message) : Prop :=
  ∀ a, ((f a).map Json.obj).filter isUser =
    if isUser (.obj (message a)) then some (.obj (message a)) else none

theorem filterMap_users {α : Type} {f : α → Option Message} {message : α → Message}
    (h : LeavesUsers f message) (xs : List α) :
    ((xs.filterMap f).map Json.obj).filter isUser =
      (xs.filter fun a => isUser (.obj (message a))).map fun a => .obj (message a) := by
  rw [List.map_filterMap, List.filter_filterMap, ← List.filterMap_eq_map, List.filterMap_filter]
  exact List.filterMap_congr fun a _ => h a

variable {message : Message}

theorem roleOf_of_isUser :
    isUser (.obj message) = true ↔ roleOf message = some "user" := by
  simp [isUser, blockSatisfies]

theorem not_isUser_setContent (h : roleOf message = some "assistant")
    (content : Json) : isUser (.obj (Json.setField message "content" content)) = false := by
  have hSame : roleOf (Json.setField message "content" content) = roleOf message := by
    unfold roleOf
    rw [Json.get?_setField_of_ne _ (by decide)]
  simp [isUser, blockSatisfies, hSame, h]

theorem not_isUser_of_assistant (h : roleOf message = some "assistant") :
    isUser (.obj message) = false := by
  simp [isUser, blockSatisfies, h]

theorem filterAssistantBlocks_leavesUsers (selected resolved : List ResolvedItem)
    (orphanStrippingOrdinal : Int) :
    LeavesUsers (filterAssistantBlocks selected resolved orphanStrippingOrdinal) (·.message) := by
  intro item
  unfold filterAssistantBlocks
  split
  · simp only [Option.map_some, Option.filter_some]
  · rename_i hAssistant
    have hRole : roleOf item.message = some "assistant" := not_not.mp hAssistant
    rw [not_isUser_of_assistant hRole]
    split
    · dsimp only
      split
      · rfl
      · split
        · simp [not_isUser_of_assistant hRole]
        · simp [not_isUser_setContent hRole]
    · simp [not_isUser_of_assistant hRole]

theorem normalizeAssistantContent_cases (message : Message) :
    normalizeAssistantContent message = message ∨ roleOf message = some "assistant" ∧
      ∃ content, normalizeAssistantContent message = Json.setField message "content" content := by
  unfold normalizeAssistantContent
  split
  · exact Or.inl rfl
  · rename_i hAssistant
    have hRole : roleOf message = some "assistant" := not_not.mp hAssistant
    split
    · exact Or.inr ⟨hRole, _, rfl⟩
    · dsimp only
      split
      · exact Or.inr ⟨hRole, _, rfl⟩
      · exact Or.inl rfl
    · exact Or.inl rfl

theorem cleanAssistantContent_users (messages : List Message) :
    ((cleanAssistantContent messages).map Json.obj).filter isUser =
      (messages.map Json.obj).filter isUser := by
  let clean := fun message : Message =>
    (some (normalizeAssistantContent message)).filter fun cleaned => !isEmptyAssistant cleaned
  have hClean : cleanAssistantContent messages = messages.filterMap clean := by
    rw [cleanAssistantContent, ← List.filterMap_eq_map, List.filter_filterMap]
    rfl
  have hLeaves : LeavesUsers clean id := by
    intro message
    show (((some (normalizeAssistantContent message)).filter _).map Json.obj).filter isUser = _
    rw [Option.filter_some]
    rcases normalizeAssistantContent_cases message with hSame | ⟨hRole, content, hSet⟩
    · rw [hSame]
      cases hUser : isUser (.obj message) with
      | true =>
        have hNotEmpty : isEmptyAssistant message = false := by
          rw [isEmptyAssistant, roleOf_of_isUser.mp hUser]
          rfl
        rw [hNotEmpty]
        simp [hUser]
      | false => split <;> simp [hUser]
    · rw [hSet, id, not_isUser_of_assistant hRole]
      split <;> simp [not_isUser_setContent hRole]
  rw [hClean, filterMap_users hLeaves, List.filter_map]
  rfl

/-! ## The assembled list -/

variable {resolved : List ResolvedItem}

theorem selected_ascending
    (hAscending : resolved.Pairwise fun a b => a.ordinal < b.ordinal) (input : AssembleInput) :
    (select resolved input).selected.Pairwise fun a b => a.ordinal < b.ordinal := by
  have hEvictable := hAscending.filter fun item => decide (item.ordinal <
    resolveFreshTailOrdinal resolved input.freshTailCount input.freshTailMaxTokens)
  have hKept := (budgetWalk_spec _ (select resolved input).freshTail input.tokenBudget input.prompt
    input.promptAwareEviction).2.2 hEvictable
  refine List.pairwise_append.mpr ⟨hEvictable.sublist hKept, hAscending.filter _,
    fun item hItem later hLater => ?_⟩
  have hItem := (List.mem_filter.mp (hKept.subset hItem)).2
  have hLater := (List.mem_filter.mp hLater).2
  simp only [Bool.not_eq_true', decide_eq_true_eq, decide_eq_false_iff_not] at hItem hLater
  omega

/-- The fresh tail is what stands from one of the messages on, up to the newest. -/
theorem freshTail_from_message (hAscending : resolved.Pairwise fun a b => a.ordinal < b.ordinal)
    (hCount : 0 < input.freshTailCount) {newest : ResolvedItem}
    (hNewest : (resolved.filter (·.isMessage)).getLast? = some newest) :
    newest ∈ (select resolved input).freshTail ∧ ∃ first rest, first.isMessage = true ∧
      (select resolved input).freshTail = first :: rest ∧
      resolved = (select resolved input).evictable ++ first :: rest := by
  have hMem := List.mem_filter.mp (List.mem_of_getLast? hNewest)
  obtain ⟨first, hFirst, hMessage, hBoundary⟩ :=
    resolveFreshTailOrdinal_mem hCount input.freshTailMaxTokens ⟨newest, hMem⟩
  obtain ⟨rest, hTail, hSplit⟩ := split_at_ordinal hAscending hFirst
  rw [← hBoundary] at hTail hSplit
  refine ⟨?_, first, rest, hMessage, hTail, hSplit⟩
  -- no message is newer than the last one
  obtain ⟨before, hBefore⟩ := List.getLast?_eq_some_iff.mp hNewest
  have hOlder : first.ordinal ≤ newest.ordinal := by
    have hIn : first ∈ before ++ [newest] := hBefore ▸ List.mem_filter.mpr ⟨hFirst, hMessage⟩
    have hSorted := hAscending.filter (·.isMessage)
    rw [hBefore, List.pairwise_append] at hSorted
    rcases List.mem_append.mp hIn with hIn | hIn
    · exact le_of_lt (hSorted.2.2 first hIn newest (List.mem_singleton_self _))
    · rw [List.mem_singleton.mp hIn]
  refine List.mem_filter.mpr ⟨hMem.1, ?_⟩
  rw [hBoundary]
  simp only [Bool.not_eq_true', decide_eq_false_iff_not]
  omega

theorem selected_subset
    {item : ResolvedItem} (h : item ∈ (select resolved input).selected) : item ∈ resolved := by
  rcases List.mem_append.mp h with h | h
  · exact List.mem_of_mem_filter (mem_budgetWalk h)
  · exact List.mem_of_mem_filter h

/-- A summary is shown as a message of the user. -/
theorem isUser_of_summary {input : AssembleInput} {item : ResolvedItem}
    (hItem : item ∈ resolvedItems environment db input) (hSummary : item.isMessage = false) :
    isUser (.obj item.message) = true := by
  obtain ⟨contextItem, -, hResolve⟩ := List.mem_filterMap.mp hItem
  unfold resolveItem at hResolve
  split at hResolve
  · dsimp only [resolveMessageItem] at hResolve
    split at hResolve
    · cases hResolve
    · split at hResolve
      · cases hResolve
      · cases hResolve
        cases hSummary
  · dsimp only [resolveSummaryItem] at hResolve
    split at hResolve
    · cases hResolve
    · cases hResolve
      rfl

/-- With a positive count and whatever cap, budget and prompt, the tail is what stands
from one of the messages on, the selection is in order, its user messages and so its
summaries are those of the assembled list, and what is kept of the older items fits
into the budget that the tail leaves. -/
theorem assemble_protects (input : AssembleInput) (hCount : 0 < input.freshTailCount)
    (hOrdinals : ((db.getContextItems input.conversationId).map (·.ordinal)).Nodup) :
    let resolved := resolvedItems environment db input
    let selection := select resolved input
    (∀ newest, (resolved.filter (·.isMessage)).getLast? = some newest →
      newest ∈ selection.freshTail ∧ ∃ first rest, first.isMessage = true ∧
        selection.freshTail = first :: rest ∧ resolved = selection.evictable ++ first :: rest) ∧
    selection.selected.Pairwise (fun a b => a.ordinal < b.ordinal) ∧
    (∀ item ∈ selection.selected, item.isMessage = false → isUser (.obj item.message) = true) ∧
    (assemble environment db input).messages.filter isUser =
      (selection.selected.filter fun item => isUser (.obj item.message)).map
        (fun item => .obj item.message) ∧
    totalTokens selection.kept ≤ input.tokenBudget - totalTokens selection.freshTail := by
  intro resolved selection
  have hAscending := resolvedItems_ascending environment db hOrdinals
  have hSpec := budgetWalk_spec selection.evictable selection.freshTail input.tokenBudget
    input.prompt input.promptAwareEviction
  rw [remainingBudget_natCast] at hSpec
  refine ⟨fun newest => freshTail_from_message hAscending hCount, selected_ascending hAscending
    input, fun item hItem => @isUser_of_summary environment db input item (selected_subset hItem),
    ?_, hSpec.2.1⟩
  · rw [assemble_messages, sanitize_users, cleanedMessages, cleanAssistantContent_users]
    exact filterMap_users (filterAssistantBlocks_leavesUsers _ _ _) _

def bareEnvironment : Environment :=
  { canonical := id, partId := fun _ => "", formatDate := fun _ => "" }

/-- A leaf summary and behind it one message. -/
def summaryAndMessage : Db :=
  { Db.empty with
    messages := [⟨2, 1, 2, .user, "new", 1, 2, none⟩]
    summaries := [{ summaryId := "sum_1", conversationId := 1, kind := .leaf, depth := 0
                    content := "old", tokenCount := 1, fileIds := [], earliestAt := none
                    latestAt := none, descendantCount := 0, descendantTokenCount := 0
                    sourceMessageTokenCount := 1, model := "m", createdAt := 1
                    suppressedAt := none }]
    contextItems := [⟨1, 0, .summary "sum_1"⟩, ⟨1, 1, .message 2⟩] }

def withoutBudget : AssembleInput :=
  { conversationId := 1, tokenBudget := 0, freshTailCount := 1, freshTailMaxTokens := some 0
    prompt := none, promptAwareEviction := false, orphanStrippingOrdinal := none }

theorem assemble_protects_withoutBudget :
    (assemble bareEnvironment summaryAndMessage withoutBudget).messages.length = 1 ∧
      totalTokens (select (resolvedItems bareEnvironment summaryAndMessage withoutBudget)
        withoutBudget).kept ≤ 0 := by
  refine ⟨by decide +kernel, ?_⟩
  exact (assemble_protects bareEnvironment summaryAndMessage withoutBudget (by decide)
    (by decide +kernel)).2.2.2.2.trans (Nat.sub_le _ _)

end LosslessHermes.Assembler
