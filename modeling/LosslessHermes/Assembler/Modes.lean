import LosslessHermes.Assembler.Budget
import LosslessHermes.Library.Greedy

/-!
# The three modes of the budget walk

What `budget_walk` keeps in each of its modes (`budgetWalk_modes`): everything when
everything fits; the longest run of the newest items that fits when it walks back in
time; and the greedy choice, best score first and the newer item first among equals,
when it follows a prompt.
-/

namespace LosslessHermes.Assembler

theorem keepFitting_eq (remainingBudget accum : Nat) (items : List ResolvedItem) :
    keepFitting remainingBudget accum items =
      Greedy.fill (·.tokens) remainingBudget accum items := by
  induction items generalizing accum with
  | nil => rfl
  | cons item items ih => rw [keepFitting, Greedy.fill, ih, ih]

theorem keepUntilFull_eq (remainingBudget accum : Nat) (items : List ResolvedItem) :
    keepUntilFull remainingBudget accum items =
      Greedy.fillUntilFull (·.tokens) remainingBudget accum items := by
  induction items generalizing accum with
  | nil => rfl
  | cons item items ih => rw [keepUntilFull, Greedy.fillUntilFull, ih]

/-! ## Walking back in time -/

variable {evictable : List ResolvedItem}

/-- Every end of the list that fits is part of the one that is kept. -/
theorem budgetWalkChronological_longest {items : List ResolvedItem}
    {remainingBudget : Nat} (hItems : items <:+ evictable)
    (hFits : totalTokens items ≤ remainingBudget) :
    items <:+ budgetWalkChronological evictable remainingBudget := by
  have hReverse : totalTokens items.reverse ≤ remainingBudget := by
    rwa [totalTokens_perm (List.reverse_perm items)]
  have hLongest := Greedy.fillUntilFull_longest (List.reverse_prefix.mpr hItems)
    (show 0 + Greedy.total (·.tokens) items.reverse ≤ remainingBudget by
      rw [Nat.zero_add]
      exact hReverse)
  rw [← keepUntilFull_eq] at hLongest
  rw [budgetWalkChronological, ← List.reverse_prefix, List.reverse_reverse]
  exact hLongest

theorem budgetWalkChronological_suffix (evictable : List ResolvedItem) (remainingBudget : Nat) :
    budgetWalkChronological evictable remainingBudget <:+ evictable := by
  rw [budgetWalkChronological, ← List.reverse_prefix, List.reverse_reverse, keepUntilFull_eq]
  exact Greedy.fillUntilFull_isInitial 0 evictable.reverse

/-! ## Following a prompt -/

/-- Better score first, the newer item first among equals. -/
def Better (prompt : String) (a b : ResolvedItem) : Prop :=
  scoreRelevance b.text prompt < scoreRelevance a.text prompt ∨
    scoreRelevance a.text prompt = scoreRelevance b.text prompt ∧ b.ordinal < a.ordinal

instance (prompt : String) : DecidableRel (Better prompt) :=
  fun _ _ => inferInstanceAs (Decidable (_ ∨ _))

theorem Better.irrefl (prompt : String) (item : ResolvedItem) : ¬ Better prompt item item := by
  rintro (h | h)
  · exact lt_irrefl _ h
  · exact lt_irrefl _ h.2

theorem Better.asymm {prompt : String} {a b : ResolvedItem} (h : Better prompt a b) :
    ¬ Better prompt b a := by
  rintro (h' | h') <;> rcases h with h | h
  · exact lt_asymm h h'
  · exact h'.ne h.1
  · exact h.ne h'.1
  · exact lt_asymm h.2 h'.2

theorem scoredBefore_iff (a b : (ℚ × Nat) × ResolvedItem) :
    scoredBefore a b = true ↔ b.1.1 < a.1.1 ∨ a.1.1 = b.1.1 ∧ b.1.2 ≤ a.1.2 := by
  unfold scoredBefore
  split
  · rename_i hSame
    have hEq := eq_of_beq hSame
    simp [hEq]
  · rename_i hOther
    have hNe : a.1.1 ≠ b.1.1 := fun h => hOther (beq_iff_eq.mpr h)
    simp [hNe]

theorem scoredBefore_trans (a b c : (ℚ × Nat) × ResolvedItem) (hab : scoredBefore a b = true)
    (hbc : scoredBefore b c = true) : scoredBefore a c = true := by
  rw [scoredBefore_iff] at *
  rcases hab with hab | hab <;> rcases hbc with hbc | hbc
  · exact Or.inl (hbc.trans hab)
  · exact Or.inl (hbc.1 ▸ hab)
  · exact Or.inl (hab.1 ▸ hbc)
  · exact Or.inr ⟨hab.1.trans hbc.1, hbc.2.trans hab.2⟩

theorem scoredBefore_total (a b : (ℚ × Nat) × ResolvedItem) :
    (scoredBefore a b || scoredBefore b a) = true := by
  rw [Bool.or_eq_true, scoredBefore_iff, scoredBefore_iff]
  rcases lt_trichotomy a.1.1 b.1.1 with h | h | h
  · exact Or.inr (Or.inl h)
  · rcases Nat.le_total b.1.2 a.1.2 with hLe | hLe
    · exact Or.inl (Or.inr ⟨h, hLe⟩)
    · exact Or.inr (Or.inr ⟨h.symm, hLe⟩)
  · exact Or.inl (Or.inl h)

/-- The evictable items with their scores and positions. -/
def scored (evictable : List ResolvedItem) (prompt : String) :
    List ((ℚ × Nat) × ResolvedItem) :=
  evictable.mapIdx fun i item => ((scoreRelevance item.text prompt, i), item)

theorem scored_items (evictable : List ResolvedItem) (prompt : String) :
    (scored evictable prompt).map (·.2) = evictable :=
  List.ext_getElem (by simp [scored]) fun i _ _ => by simp [scored]

theorem score_of_mem {prompt : String}
    {entry : (ℚ × Nat) × ResolvedItem} (h : entry ∈ scored evictable prompt) :
    entry.1.1 = scoreRelevance entry.2.text prompt := by
  obtain ⟨i, hi, rfl⟩ := List.mem_mapIdx.mp h
  rfl

/-- Positions and ordinals ascend together, whichever way two entries stand. -/
def SameDirection (a b : (ℚ × Nat) × ResolvedItem) : Prop :=
  a.1.2 < b.1.2 ∧ a.2.ordinal < b.2.ordinal ∨ b.1.2 < a.1.2 ∧ b.2.ordinal < a.2.ordinal

theorem scored_sameDirection
    (hAscending : evictable.Pairwise fun a b => a.ordinal < b.ordinal) (prompt : String) :
    (scored evictable prompt).Pairwise SameDirection := by
  rw [List.pairwise_iff_getElem] at *
  intro i j hi hj hij
  simp only [scored, List.length_mapIdx] at hi hj
  refine Or.inl ⟨?_, ?_⟩
  · simpa [scored] using hij
  · simpa [scored] using hAscending i j hi hj hij

/-- The items in the order in which the walk that follows a prompt meets them. -/
def promptOrder (evictable : List ResolvedItem) (prompt : String) : List ResolvedItem :=
  ((scored evictable prompt).mergeSort scoredBefore).map (·.2)

theorem promptOrder_perm (evictable : List ResolvedItem) (prompt : String) :
    (promptOrder evictable prompt).Perm evictable := by
  have hPerm := (List.mergeSort_perm (scored evictable prompt) scoredBefore).map Prod.snd
  rwa [show (scored evictable prompt).map Prod.snd = evictable from
    scored_items evictable prompt] at hPerm

theorem promptOrder_sorted
    (hAscending : evictable.Pairwise fun a b => a.ordinal < b.ordinal) (prompt : String) :
    (promptOrder evictable prompt).Pairwise (Better prompt) := by
  have hSorted := List.pairwise_mergeSort scoredBefore_trans scoredBefore_total
    (scored evictable prompt)
  have hPerm := List.mergeSort_perm (scored evictable prompt) scoredBefore
  have hDirection : ((scored evictable prompt).mergeSort scoredBefore).Pairwise SameDirection :=
    (hPerm.pairwise_iff fun h => Or.symm h).mpr (scored_sameDirection hAscending prompt)
  apply List.pairwise_map.mpr
  apply (hSorted.and hDirection).imp_of_mem
  rintro a b ha hb ⟨hBefore, hSame⟩
  have hScoreA := score_of_mem (hPerm.mem_iff.mp ha)
  have hScoreB := score_of_mem (hPerm.mem_iff.mp hb)
  rw [scoredBefore_iff, hScoreA, hScoreB] at hBefore
  rcases hBefore with hMore | ⟨hEq, hIndex⟩
  · exact Or.inl hMore
  · refine Or.inr ⟨hEq, ?_⟩
    rcases hSame with h | h
    · omega
    · exact h.2

theorem budgetWalkPromptAware_greedy
    (hAscending : evictable.Pairwise fun a b => a.ordinal < b.ordinal) (remainingBudget : Nat)
    (prompt : String) :
    Greedy.Choice (·.tokens) remainingBudget (Better prompt) evictable
      (budgetWalkPromptAware evictable remainingBudget prompt) := by
  have hSorted : (promptOrder evictable prompt).Pairwise fun a b =>
      Better prompt a b ∧ ¬ Better prompt b a :=
    (promptOrder_sorted hAscending prompt).imp fun h => ⟨h, h.asymm⟩
  have hChoice := Greedy.choice_fill (·.tokens) remainingBudget hSorted
    (Better.irrefl prompt)
  rw [← keepFitting_eq] at hChoice
  exact hChoice.of_perm (promptOrder_perm evictable prompt) (List.mergeSort_perm _ _).symm

/-! ## The whole walk -/

/-- When not all fits, a searchable prompt is followed unless that is turned off. -/
theorem budgetWalk_of_over {freshTail : List ResolvedItem} {tokenBudget : Int}
    (prompt : Option String) (promptAwareEviction : Bool)
    (hOver : remainingBudget freshTail tokenBudget < totalTokens evictable) :
    (∃ text, prompt = some text ∧
      (promptAwareEviction = true ∧ hasSearchablePrompt prompt = true) ∧
      budgetWalk evictable freshTail tokenBudget prompt promptAwareEviction =
        (budgetWalkPromptAware evictable (remainingBudget freshTail tokenBudget) text,
          .promptAware)) ∨
    ¬ (promptAwareEviction = true ∧ hasSearchablePrompt prompt = true) ∧
      budgetWalk evictable freshTail tokenBudget prompt promptAwareEviction =
        (budgetWalkChronological evictable (remainingBudget freshTail tokenBudget),
          .chronological) := by
  unfold budgetWalk
  dsimp only
  rw [if_neg (Nat.not_le.mpr hOver)]
  cases prompt with
  | none => exact Or.inr ⟨fun h => absurd h.2 Bool.false_ne_true, rfl⟩
  | some text =>
    dsimp only
    by_cases hFollow :
        (promptAwareEviction && hasSearchablePrompt (some text)) = true
    · rw [if_pos hFollow]
      exact Or.inl ⟨text, rfl, Bool.and_eq_true_iff.mp hFollow, rfl⟩
    · rw [if_neg hFollow]
      exact Or.inr ⟨fun h => hFollow (Bool.and_eq_true_iff.mpr h), rfl⟩

/-- The kept items are a part of the evictable ones in their order, within what the
tail leaves of the budget, and all of them exactly when all of them fit. Walking back
in time the longest end of the list that fits is kept; following a prompt the greedy
choice, after which no dropped item would fit any more. The ordinals of the items of a
conversation are distinct, being part of the primary key. -/
theorem budgetWalk_modes (evictable freshTail : List ResolvedItem) (tokenBudget : Int)
    (prompt : Option String) (promptAwareEviction : Bool)
    (hAscending : evictable.Pairwise fun a b => a.ordinal < b.ordinal) :
    let remaining := (max 0 (tokenBudget - totalTokens freshTail)).toNat
    let (kept, mode) := budgetWalk evictable freshTail tokenBudget prompt promptAwareEviction
    kept.Sublist evictable ∧ (kept.Pairwise fun a b => a.ordinal < b.ordinal) ∧
    totalTokens kept ≤ remaining ∧
    (kept = evictable ↔ totalTokens evictable ≤ remaining) ∧
    (mode = .fullFit ↔ totalTokens evictable ≤ remaining) ∧
    (mode = .promptAware ↔ remaining < totalTokens evictable ∧
      promptAwareEviction = true ∧ hasSearchablePrompt prompt = true) ∧
    (mode = .chronological → kept <:+ evictable ∧
      ∀ items, items <:+ evictable → totalTokens items ≤ remaining → items <:+ kept) ∧
    (mode = .promptAware → ∃ text, prompt = some text ∧
      Greedy.Choice (·.tokens) remaining (Better text) evictable kept ∧
      ∀ item ∈ evictable, item ∉ kept → remaining < totalTokens kept + item.tokens) := by
  have hRemaining : (max 0 (tokenBudget - totalTokens freshTail)).toNat =
      remainingBudget freshTail tokenBudget := by
    unfold remainingBudget
    omega
  obtain ⟨-, hTotal, hSublist⟩ := budgetWalk_spec evictable freshTail tokenBudget prompt
    promptAwareEviction
  have hSublist := hSublist hAscending
  rw [hRemaining]
  intro remaining
  by_cases hAll : totalTokens evictable ≤ remaining
  · have hWalk : budgetWalk evictable freshTail tokenBudget prompt promptAwareEviction =
        (evictable, .fullFit) := if_pos hAll
    rw [hWalk]
    dsimp only
    refine ⟨List.Sublist.refl _, hAscending, hAll, by simp [hAll], by simp [hAll], ?_, ?_, ?_⟩
    · simp only [reduceCtorEq, false_iff]
      omega
    · exact fun h => by cases h
    · exact fun h => by cases h
  · have hOver : remaining < totalTokens evictable := Nat.not_le.mp hAll
    have hKept : ∀ kept, totalTokens kept ≤ remaining → kept ≠ evictable := by
      rintro kept hFits rfl
      exact hAll hFits
    rcases budgetWalk_of_over prompt promptAwareEviction hOver with
      ⟨text, hText, hFollow, hWalk⟩ | ⟨hNot, hWalk⟩
    · rw [hWalk] at hSublist hTotal ⊢
      have hGreedy := budgetWalkPromptAware_greedy hAscending remaining text
      refine ⟨hSublist, hAscending.sublist hSublist, hTotal, ?_, by simp [hAll], ?_, ?_, ?_⟩
      · exact ⟨fun h => absurd h (hKept _ hTotal), fun h => absurd h hAll⟩
      · exact ⟨fun _ => ⟨hOver, hFollow⟩, fun _ => rfl⟩
      · exact fun h => by cases h
      · exact fun _ => ⟨text, hText, hGreedy, fun item => hGreedy.maximal⟩
    · rw [hWalk] at hSublist hTotal ⊢
      refine ⟨hSublist, hAscending.sublist hSublist, hTotal, ?_, by simp [hAll], ?_, ?_, ?_⟩
      · exact ⟨fun h => absurd h (hKept _ hTotal), fun h => absurd h hAll⟩
      · exact ⟨fun h => (by cases h), fun h => absurd h.2 hNot⟩
      · exact fun _ => ⟨budgetWalkChronological_suffix evictable remaining,
          fun _ hEnd hFits => budgetWalkChronological_longest hEnd hFits⟩
      · exact fun h => by cases h

def sampleItem (ordinal : Int) (tokens : Nat) (text : String) : ResolvedItem :=
  { ordinal := ordinal, message := [], tokens := tokens, isMessage := true, text := text }

def sampleEvictable : List ResolvedItem :=
  [sampleItem 0 3 "login form", sampleItem 1 4 "weather today", sampleItem 2 2 "login again"]

theorem budgetWalk_modes_sample :
    let kept := (budgetWalk sampleEvictable [] 5 (some "the login") true).1
    kept.Sublist sampleEvictable ∧
      ∃ text, some "the login" = some text ∧
        Greedy.Choice (·.tokens) 5 (Better text) sampleEvictable kept ∧
        ∀ item ∈ sampleEvictable, item ∉ kept → 5 < totalTokens kept + item.tokens := by
  have hAscending : sampleEvictable.Pairwise fun a b => a.ordinal < b.ordinal := by decide
  obtain ⟨hSublist, -, -, -, -, -, -, hPrompt⟩ :=
    budgetWalk_modes sampleEvictable [] 5 (some "the login") true hAscending
  exact ⟨hSublist, hPrompt (by decide +kernel)⟩

end LosslessHermes.Assembler
