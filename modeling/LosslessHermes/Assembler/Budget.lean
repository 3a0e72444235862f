import LosslessHermes.Assembler.Resolve
import Mathlib.Algebra.Order.Floor.Ring
import Mathlib.Data.Int.Log
import Mathlib.Data.List.Sort
import Mathlib.Data.Rat.Floor

/-!
# Fresh tail and budget

Which resolved items are protected, and which of the others fit into the budget:
all of them, or the newest, or those that match the prompt best. The relevance of
an item is a sum of floating point quotients as in the source, every step of which
is rounded to the nearest double.
-/

namespace LosslessHermes.Assembler

/-- The boundary behind every ordinal, `sys.maxsize`. -/
def emptyFreshTailOrdinal : Int := 9223372036854775807

/-- The walk from the newest message to the oldest. -/
def freshTailWalk (freshTailCount : Nat) (tokenCap : Option Int) :
    Nat → Nat → Int → List ResolvedItem → Int
  | _, _, boundary, [] => boundary
  | count, tokens, boundary, item :: older =>
      if freshTailCount ≤ count then boundary
      else
        let exceeds :=
          match tokenCap with
          | some cap => decide (0 < count) && decide (cap < (tokens + item.tokens : Nat))
          | none => false
        if exceeds then boundary
        else freshTailWalk freshTailCount tokenCap (count + 1) (tokens + item.tokens)
          item.ordinal older

def resolveFreshTailOrdinal (resolved : List ResolvedItem) (freshTailCount : Nat)
    (freshTailMaxTokens : Option Int) : Int :=
  if freshTailCount = 0 then emptyFreshTailOrdinal
  else
    freshTailWalk freshTailCount (freshTailMaxTokens.filter (0 ≤ ·)) 0 0 emptyFreshTailOrdinal
      (resolved.filter (·.isMessage)).reverse

/-! ## Relevance to a prompt -/

/-- The maximal runs of token characters. A dotted capital I becomes an `i` and a
separator. -/
def tokenRuns : List Char → List (List Char)
  | [] => [[]]
  | c :: s =>
      match Text.lowerAscii c, tokenRuns s with
      | some d, run :: runs => (d :: run) :: runs
      | some d, [] => [[d]]
      | none, runs => if c.toNat = 0x130 then ['i'] :: runs else [] :: runs

def tokenizeText (text : String) : List (List Char) :=
  (tokenRuns text.toList).filter fun run => 1 < run.length

/-- The nearest integer, the even one of two that are as near. -/
def roundHalfEven (x : ℚ) : ℤ :=
  if x - ⌊x⌋ < 1 / 2 then ⌊x⌋
  else if 1 / 2 < x - ⌊x⌋ then ⌊x⌋ + 1
  else if ⌊x⌋ % 2 = 0 then ⌊x⌋
  else ⌊x⌋ + 1

/-- The double nearest to a non-negative number: a significand of 53 bits, and no
unit below the least subnormal. Scores stay far below the greatest double. -/
def nearestDouble (x : ℚ) : ℚ :=
  let unit : ℚ := 2 ^ max (Int.log 2 x - 52) (-1074)
  roundHalfEven (x / unit) * unit

def scoreRelevance (itemText prompt : String) : ℚ :=
  let promptTokens := tokenizeText prompt
  let itemTokens := tokenizeText itemText
  if promptTokens.isEmpty || itemTokens.isEmpty then 0
  else
    promptTokens.eraseDups.foldl (fun score term =>
      let tf := itemTokens.count term
      if 0 < tf then nearestDouble (score + nearestDouble (tf / itemTokens.length))
      else score) 0

def hasSearchablePrompt (prompt : Option String) : Bool :=
  match prompt with
  | none => false
  | some prompt => !(tokenizeText prompt).isEmpty

/-! ## The budget walk -/

inductive SelectionMode
  | fullFit | promptAware | chronological
  deriving DecidableEq

def totalTokens (items : List ResolvedItem) : Nat :=
  (items.map (·.tokens)).sum

/-- Every item that still fits, in the given order. -/
def keepFitting (remainingBudget : Nat) : Nat → List ResolvedItem → List ResolvedItem
  | _, [] => []
  | accum, item :: items =>
      if accum + item.tokens ≤ remainingBudget then
        item :: keepFitting remainingBudget (accum + item.tokens) items
      else keepFitting remainingBudget accum items

/-- The items up to the first one that does not fit. -/
def keepUntilFull (remainingBudget : Nat) : Nat → List ResolvedItem → List ResolvedItem
  | _, [] => []
  | accum, item :: items =>
      if accum + item.tokens ≤ remainingBudget then
        item :: keepUntilFull remainingBudget (accum + item.tokens) items
      else []

/-- Best score first, the newer item first among equals. -/
def scoredBefore (a b : (ℚ × Nat) × ResolvedItem) : Bool :=
  if a.1.1 == b.1.1 then decide (b.1.2 ≤ a.1.2) else decide (b.1.1 < a.1.1)

def budgetWalkPromptAware (evictable : List ResolvedItem) (remainingBudget : Nat)
    (prompt : String) : List ResolvedItem :=
  let scored := evictable.mapIdx fun i item => ((scoreRelevance item.text prompt, i), item)
  let kept := keepFitting remainingBudget 0 ((scored.mergeSort scoredBefore).map (·.2))
  kept.mergeSort fun a b => a.ordinal ≤ b.ordinal

def budgetWalkChronological (evictable : List ResolvedItem) (remainingBudget : Nat) :
    List ResolvedItem :=
  (keepUntilFull remainingBudget 0 evictable.reverse).reverse

/-- What the fresh tail, which is always included, leaves of the budget. -/
def remainingBudget (freshTail : List ResolvedItem) (tokenBudget : Int) : Nat :=
  (tokenBudget - totalTokens freshTail).toNat

/-- `budget_walk`: the evictable items that are kept, and how they were chosen. -/
def budgetWalk (evictable freshTail : List ResolvedItem) (tokenBudget : Int)
    (prompt : Option String) (promptAwareEviction : Bool) :
    List ResolvedItem × SelectionMode :=
  let remaining := remainingBudget freshTail tokenBudget
  if totalTokens evictable ≤ remaining then (evictable, .fullFit)
  else
    match prompt with
    | some text =>
        if promptAwareEviction && hasSearchablePrompt prompt then
          (budgetWalkPromptAware evictable remaining text, .promptAware)
        else (budgetWalkChronological evictable remaining, .chronological)
    | none => (budgetWalkChronological evictable remaining, .chronological)

/-! ## The boundary -/

theorem freshTailWalk_mem (freshTailCount : Nat) (tokenCap : Option Int) (count tokens : Nat)
    (boundary : Int) (items : List ResolvedItem) :
    freshTailWalk freshTailCount tokenCap count tokens boundary items = boundary ∨
      ∃ item ∈ items,
        freshTailWalk freshTailCount tokenCap count tokens boundary items = item.ordinal := by
  induction items generalizing count tokens boundary with
  | nil => exact Or.inl rfl
  | cons item older ih =>
    have hTaken : ∀ exceeds : Bool, (if exceeds then boundary
          else freshTailWalk freshTailCount tokenCap (count + 1) (tokens + item.tokens)
            item.ordinal older) = boundary ∨
        ∃ found ∈ item :: older, (if exceeds then boundary
          else freshTailWalk freshTailCount tokenCap (count + 1) (tokens + item.tokens)
            item.ordinal older) = found.ordinal := by
      intro exceeds
      cases exceeds with
      | true => exact Or.inl rfl
      | false =>
        refine Or.inr ?_
        rcases ih (count + 1) (tokens + item.tokens) item.ordinal with hSame |
          ⟨found, hFound, hEq⟩
        · exact ⟨item, List.mem_cons_self, hSame⟩
        · exact ⟨found, List.mem_cons_of_mem _ hFound, hEq⟩
    unfold freshTailWalk
    split
    · exact Or.inl rfl
    · exact hTaken _

/-- The newest message is protected whatever it costs, so that the boundary is the
ordinal of a message. -/
theorem resolveFreshTailOrdinal_mem {resolved : List ResolvedItem} {freshTailCount : Nat}
    (hCount : 0 < freshTailCount) (freshTailMaxTokens : Option Int)
    (hMessage : ∃ item ∈ resolved, item.isMessage = true) :
    ∃ first ∈ resolved, first.isMessage = true ∧
      resolveFreshTailOrdinal resolved freshTailCount freshTailMaxTokens = first.ordinal := by
  unfold resolveFreshTailOrdinal
  rw [if_neg (Nat.pos_iff_ne_zero.mp hCount)]
  have hMem : ∀ item ∈ (resolved.filter (·.isMessage)).reverse,
      item ∈ resolved ∧ item.isMessage = true :=
    fun item hItem => List.mem_filter.mp (List.mem_reverse.mp hItem)
  cases hMessages : (resolved.filter (·.isMessage)).reverse with
  | nil =>
    obtain ⟨item, hItem, hIs⟩ := hMessage
    have hIn := List.mem_reverse.mpr (List.mem_filter.mpr ⟨hItem, hIs⟩)
    rw [hMessages] at hIn
    cases hIn
  | cons newest older =>
    rw [hMessages] at hMem
    have hFits : ∀ cap : Option Int, (match cap with
        | some cap => decide (0 < 0) && decide (cap < ((0 + newest.tokens : Nat) : Int))
        | none => false) = false := fun cap => by cases cap <;> rfl
    unfold freshTailWalk
    rw [if_neg (Nat.not_le.mpr hCount)]
    dsimp only
    rw [hFits, if_neg (by simp)]
    rcases freshTailWalk_mem freshTailCount (freshTailMaxTokens.filter (0 ≤ ·)) (0 + 1)
      (0 + newest.tokens) newest.ordinal older with hSame | ⟨found, hFound, hEq⟩
    · exact ⟨newest, (hMem newest List.mem_cons_self).1, (hMem newest List.mem_cons_self).2,
        hSame⟩
    · have hIn := List.mem_cons_of_mem newest hFound
      exact ⟨found, (hMem found hIn).1, (hMem found hIn).2, hEq⟩

/-- A boundary at one of the items splits the list in front of it. -/
theorem split_at_ordinal {resolved : List ResolvedItem}
    (hAscending : resolved.Pairwise fun a b => a.ordinal < b.ordinal) {first : ResolvedItem}
    (hFirst : first ∈ resolved) :
    ∃ rest, resolved.filter (fun item => !(item.ordinal < first.ordinal)) = first :: rest ∧
      resolved = resolved.filter (·.ordinal < first.ordinal) ++ first :: rest := by
  obtain ⟨before, rest, rfl⟩ := List.append_of_mem hFirst
  obtain ⟨-, hRest, hBefore⟩ := List.pairwise_append.mp hAscending
  obtain ⟨hRest, -⟩ := List.pairwise_cons.mp hRest
  have hLess : ∀ item ∈ before, item.ordinal < first.ordinal :=
    fun item hItem => hBefore item hItem first List.mem_cons_self
  have hLeft : before.filter (·.ordinal < first.ordinal) = before :=
    List.filter_eq_self.mpr fun item hItem => by simpa using hLess item hItem
  have hRight : (first :: rest).filter (fun item => item.ordinal < first.ordinal) = [] := by
    rw [List.filter_eq_nil_iff]
    intro item hItem
    rcases List.mem_cons.mp hItem with rfl | hItem
    · simp
    · have hGreater := hRest item hItem
      simp only [decide_eq_true_eq]
      omega
  have hLeft' : before.filter (fun item => !(item.ordinal < first.ordinal)) = [] := by
    rw [List.filter_eq_nil_iff]
    intro item hItem
    simpa using hLess item hItem
  have hRight' : (first :: rest).filter (fun item => !(item.ordinal < first.ordinal)) =
      first :: rest := by
    refine List.filter_eq_self.mpr fun item hItem => ?_
    have hNot := List.filter_eq_nil_iff.mp hRight item hItem
    simpa using hNot
  refine ⟨rest, ?_, ?_⟩
  · rw [List.filter_append, hLeft', hRight', List.nil_append]
  · rw [List.filter_append, hLeft, hRight, List.append_nil]

/-! ## What the budget walk keeps -/

theorem keepFitting_sublist (remainingBudget accum : Nat) (items : List ResolvedItem) :
    (keepFitting remainingBudget accum items).Sublist items := by
  induction items generalizing accum with
  | nil => exact List.Sublist.refl _
  | cons item items ih =>
    rw [keepFitting]
    split
    · exact (ih _).cons_cons item
    · exact (ih _).cons item

theorem keepUntilFull_sublist (remainingBudget accum : Nat) (items : List ResolvedItem) :
    (keepUntilFull remainingBudget accum items).Sublist items := by
  induction items generalizing accum with
  | nil => exact List.Sublist.refl _
  | cons item items ih =>
    rw [keepUntilFull]
    split
    · exact (ih _).cons_cons item
    · exact List.nil_sublist _

theorem totalTokens_cons (item : ResolvedItem) (items : List ResolvedItem) :
    totalTokens (item :: items) = item.tokens + totalTokens items := rfl

theorem totalTokens_perm {items items' : List ResolvedItem} (h : items.Perm items') :
    totalTokens items = totalTokens items' :=
  (h.map _).sum_nat

theorem keepFitting_total {remainingBudget accum : Nat} (h : accum ≤ remainingBudget)
    (items : List ResolvedItem) :
    accum + totalTokens (keepFitting remainingBudget accum items) ≤ remainingBudget := by
  induction items generalizing accum with
  | nil => exact h
  | cons item items ih =>
    rw [keepFitting]
    split
    · rename_i hFits
      have hRest := ih hFits
      rw [totalTokens_cons]
      omega
    · exact ih h

theorem keepUntilFull_total {remainingBudget accum : Nat} (h : accum ≤ remainingBudget)
    (items : List ResolvedItem) :
    accum + totalTokens (keepUntilFull remainingBudget accum items) ≤ remainingBudget := by
  induction items generalizing accum with
  | nil => exact h
  | cons item items ih =>
    rw [keepUntilFull]
    split
    · rename_i hFits
      have hRest := ih hFits
      rw [totalTokens_cons]
      omega
    · exact h

/-- What the mode that follows a prompt keeps, before it is sorted again. -/
theorem budgetWalkPromptAware_spec (evictable : List ResolvedItem) (remainingBudget : Nat)
    (prompt : String) :
    (budgetWalkPromptAware evictable remainingBudget prompt).Subperm evictable ∧
      totalTokens (budgetWalkPromptAware evictable remainingBudget prompt) ≤ remainingBudget := by
  let scored := evictable.mapIdx fun i item => ((scoreRelevance item.text prompt, i), item)
  let order := (scored.mergeSort scoredBefore).map (·.2)
  have hOrder : order.Perm evictable := by
    have hItems : scored.map (·.2) = evictable :=
      List.ext_getElem (by simp [scored]) fun i _ _ => by simp [scored]
    exact ((List.mergeSort_perm scored scoredBefore).map (·.2)).trans (.of_eq hItems)
  have hSorted : (budgetWalkPromptAware evictable remainingBudget prompt).Perm
      (keepFitting remainingBudget 0 order) := List.mergeSort_perm _ _
  constructor
  · exact hSorted.subperm.trans
      ((keepFitting_sublist remainingBudget 0 order).subperm.trans hOrder.subperm)
  · have hTotal := keepFitting_total (Nat.zero_le remainingBudget) order
    rw [totalTokens_perm hSorted]
    omega

theorem budgetWalkChronological_spec (evictable : List ResolvedItem) (remainingBudget : Nat) :
    (budgetWalkChronological evictable remainingBudget).Sublist evictable ∧
      totalTokens (budgetWalkChronological evictable remainingBudget) ≤ remainingBudget := by
  constructor
  · have hSublist := (keepUntilFull_sublist remainingBudget 0 evictable.reverse).reverse
    rwa [List.reverse_reverse] at hSublist
  · have hTotal := keepUntilFull_total (Nat.zero_le remainingBudget) evictable.reverse
    rw [budgetWalkChronological, totalTokens_perm (List.reverse_perm _)]
    omega

theorem sorted_mergeSort_ordinal (items : List ResolvedItem) :
    (items.mergeSort fun a b => a.ordinal ≤ b.ordinal).Pairwise fun a b =>
      a.ordinal ≤ b.ordinal := by
  have hSorted : (items.mergeSort fun a b => a.ordinal ≤ b.ordinal).Pairwise fun a b =>
      decide (a.ordinal ≤ b.ordinal) = true :=
    List.pairwise_mergeSort (fun a b c => by simp only [decide_eq_true_eq]; omega)
      (fun a b => by simp only [Bool.or_eq_true, decide_eq_true_eq]; omega) items
  exact hSorted.imp of_decide_eq_true

/-- Ascending ordinals leave one order for a selection. -/
theorem sublist_of_sorted {items kept : List ResolvedItem}
    (hAscending : items.Pairwise fun a b => a.ordinal < b.ordinal) (hKept : kept.Subperm items)
    (hSorted : kept.Pairwise fun a b => a.ordinal ≤ b.ordinal) : kept.Sublist items := by
  obtain ⟨selection, hPerm, hSublist⟩ := hKept
  have hOrdinals : (kept.map (·.ordinal)).Nodup := by
    rw [← (hPerm.map _).nodup_iff]
    exact (List.pairwise_map.mpr (hAscending.sublist hSublist)).imp ne_of_lt
  have hStrict : kept.Pairwise fun a b => a.ordinal < b.ordinal :=
    (hSorted.and (List.pairwise_map.mp hOrdinals)).imp fun h => lt_of_le_of_ne h.1 h.2
  have : Std.Antisymm fun a b : ResolvedItem => a.ordinal < b.ordinal :=
    ⟨fun a b h h' => absurd (h.trans h') (lt_irrefl _)⟩
  exact List.sublist_of_subperm_of_pairwise ⟨selection, hPerm, hSublist⟩ hStrict hAscending

theorem remainingBudget_natCast (freshTail : List ResolvedItem) (tokenBudget : Nat) :
    remainingBudget freshTail tokenBudget = tokenBudget - totalTokens freshTail :=
  Int.toNat_sub tokenBudget (totalTokens freshTail)

/-- The kept items are evictable ones, they fit into what the tail leaves of the
budget, and where the ordinals ascend they stay in order. -/
theorem budgetWalk_spec (evictable freshTail : List ResolvedItem) (tokenBudget : Int)
    (prompt : Option String) (promptAwareEviction : Bool) :
    (budgetWalk evictable freshTail tokenBudget prompt promptAwareEviction).1.Subperm evictable ∧
      totalTokens (budgetWalk evictable freshTail tokenBudget prompt promptAwareEviction).1 ≤
        remainingBudget freshTail tokenBudget ∧
      (evictable.Pairwise (fun a b => a.ordinal < b.ordinal) →
        (budgetWalk evictable freshTail tokenBudget prompt promptAwareEviction).1.Sublist
          evictable) := by
  have hChronological := budgetWalkChronological_spec evictable
    (remainingBudget freshTail tokenBudget)
  unfold budgetWalk
  dsimp only
  split
  · rename_i hAll
    exact ⟨List.Subperm.refl _, hAll, fun _ => List.Sublist.refl _⟩
  · split
    · rename_i text
      split
      · obtain ⟨hSubperm, hTotal⟩ := budgetWalkPromptAware_spec evictable
          (remainingBudget freshTail tokenBudget) text
        refine ⟨hSubperm, hTotal, fun hAscending => ?_⟩
        exact sublist_of_sorted hAscending hSubperm (sorted_mergeSort_ordinal _)
      · exact ⟨hChronological.1.subperm, hChronological.2, fun _ => hChronological.1⟩
    · exact ⟨hChronological.1.subperm, hChronological.2, fun _ => hChronological.1⟩

theorem mem_budgetWalk {evictable freshTail : List ResolvedItem} {tokenBudget : Int}
    {prompt : Option String} {promptAwareEviction : Bool} {item : ResolvedItem}
    (h : item ∈ (budgetWalk evictable freshTail tokenBudget prompt promptAwareEviction).1) :
    item ∈ evictable :=
  (budgetWalk_spec evictable freshTail tokenBudget prompt promptAwareEviction).1.subset h

end LosslessHermes.Assembler
