import Mathlib.Algebra.BigOperators.Group.List.Lemmas
import Mathlib.Algebra.Order.BigOperators.Group.List
import Mathlib.Algebra.Order.Group.Nat
import Mathlib.Data.List.Infix
import Mathlib.Algebra.GroupWithZero.Nat

/-!
# Greedy selection under a capacity

Two ways to fill a capacity from a list of weighted items: skip what does not fit
and go on, or stop at the first item that does not fit. The first one makes the
greedy choice of its order (`choice_fill`), which is maximal; the second one takes
the longest initial segment that fits (`fillUntilFull_longest`).
-/

namespace LosslessHermes.Greedy

variable {α : Type*} (weight : α → Nat) (capacity : Nat)

def total (items : List α) : Nat :=
  (items.map weight).sum

/-- Every item that still fits, in the given order. -/
def fill : Nat → List α → List α
  | _, [] => []
  | accum, item :: items =>
      if accum + weight item ≤ capacity then item :: fill (accum + weight item) items
      else fill accum items

/-- The items up to the first one that does not fit. -/
def fillUntilFull : Nat → List α → List α
  | _, [] => []
  | accum, item :: items =>
      if accum + weight item ≤ capacity then item :: fillUntilFull (accum + weight item) items
      else []

variable {weight capacity}

theorem total_cons (item : α) (items : List α) :
    total weight (item :: items) = weight item + total weight items := by
  rw [total, total, List.map_cons, List.sum_cons]

theorem total_perm {items items' : List α} (h : items.Perm items') :
    total weight items = total weight items' :=
  (h.map weight).sum_nat

theorem total_sublist {items items' : List α} (h : items.Sublist items') :
    total weight items ≤ total weight items' :=
  (h.map weight).sum_le_sum fun _ _ => Nat.zero_le _

theorem total_filter_le (weight : α → Nat) (items : List α) (p : α → Bool) :
    total weight (items.filter p) ≤ total weight items :=
  total_sublist List.filter_sublist

/-! ## Skip and continue -/

theorem fill_sublist (accum : Nat) (items : List α) :
    (fill weight capacity accum items).Sublist items := by
  induction items generalizing accum with
  | nil => exact List.Sublist.refl _
  | cons item items ih =>
    rw [fill]
    split
    · exact (ih _).cons_cons item
    · exact (ih _).cons item

/-- The items of a first part are chosen without a look at the rest. -/
theorem fill_append (accum : Nat) (before items : List α) :
    fill weight capacity accum (before ++ items) =
      fill weight capacity accum before ++
        fill weight capacity (accum + total weight (fill weight capacity accum before)) items := by
  induction before generalizing accum with
  | nil => rfl
  | cons item before ih =>
    rw [List.cons_append, fill, fill]
    split
    · rw [ih, total_cons, List.cons_append, Nat.add_assoc]
    · exact ih accum

/-- A choice among `items` is greedy for an order when it takes exactly those that
fit on top of the better ones that it takes. -/
def Choice (weight : α → Nat) (capacity : Nat) (better : α → α → Prop) [DecidableRel better]
    (items kept : List α) : Prop :=
  ∀ item ∈ items, item ∈ kept ↔
    total weight (kept.filter fun other => decide (better other item)) + weight item ≤ capacity

variable {better : α → α → Prop} [DecidableRel better] {items kept : List α}

/-- Nothing that a greedy choice drops fits into what it leaves. -/
theorem Choice.maximal (h : Choice weight capacity better items kept) {item : α}
    (hItem : item ∈ items) (hDropped : item ∉ kept) :
    capacity < total weight kept + weight item := by
  have hOver := mt (h item hItem).mpr hDropped
  have hLe := total_filter_le weight kept fun other => decide (better other item)
  omega

theorem Choice.of_perm {items' kept' : List α} (h : Choice weight capacity better items kept)
    (hItems : items.Perm items') (hKept : kept.Perm kept') :
    Choice weight capacity better items' kept' := by
  intro item hItem
  rw [← hKept.mem_iff, ← total_perm (hKept.filter _)]
  exact h item (hItems.mem_iff.mpr hItem)

/-- What stands in front of an item in a list of better items first. -/
theorem filter_better_eq {before after : List α} {item : α}
    (hSorted : (before ++ item :: after).Pairwise fun a b => better a b ∧ ¬ better b a)
    (hIrrefl : ¬ better item item) {kept rest : List α} (hKept : kept.Sublist before)
    (hRest : rest.Sublist (item :: after)) :
    (kept ++ rest).filter (fun other => decide (better other item)) = kept := by
  obtain ⟨-, hAfter, hBefore⟩ := List.pairwise_append.mp hSorted
  have hAll : kept.filter (fun other => decide (better other item)) = kept := by
    apply List.filter_eq_self.mpr
    intro other hOther
    exact decide_eq_true (hBefore other (hKept.subset hOther) item List.mem_cons_self).1
  have hNone : rest.filter (fun other => decide (better other item)) = [] := by
    apply List.filter_eq_nil_iff.mpr
    intro other hOther
    rcases List.mem_cons.mp (hRest.subset hOther) with rfl | hLater
    · simpa using hIrrefl
    · simpa using (List.rel_of_pairwise_cons hAfter hLater).2
  rw [List.filter_append, hAll, hNone, List.append_nil]

/-- Along a list of better items first, skip and continue is the greedy choice. -/
theorem choice_fill (weight : α → Nat) (capacity : Nat)
    (hSorted : items.Pairwise fun a b => better a b ∧ ¬ better b a)
    (hIrrefl : ∀ item, ¬ better item item) :
    Choice weight capacity better items (fill weight capacity 0 items) := by
  intro item hItem
  obtain ⟨before, after, rfl⟩ := List.append_of_mem hItem
  obtain ⟨-, hAfter, hBefore⟩ := List.pairwise_append.mp hSorted
  rw [fill_append, filter_better_eq hSorted (hIrrefl item) (fill_sublist _ _)
    (fill_sublist _ _), Nat.zero_add]
  have hNotBefore : item ∉ fill weight capacity 0 before := fun hIn =>
    hIrrefl item (hBefore item ((fill_sublist 0 before).subset hIn) item List.mem_cons_self).1
  have hNotAfter : ∀ accum, item ∉ fill weight capacity accum after := fun accum hIn =>
    hIrrefl item (List.rel_of_pairwise_cons hAfter ((fill_sublist accum after).subset hIn)).1
  rw [List.mem_append, fill]
  constructor
  · rintro (hIn | hIn)
    · exact absurd hIn hNotBefore
    · split at hIn
      · assumption
      · exact absurd hIn (hNotAfter _)
  · intro hFits
    rw [if_pos hFits]
    exact Or.inr List.mem_cons_self

/-! ## Stop at the first that does not fit -/

theorem fillUntilFull_isInitial (accum : Nat) (items : List α) :
    fillUntilFull weight capacity accum items <+: items := by
  induction items generalizing accum with
  | nil => exact List.prefix_refl _
  | cons item items ih =>
    rw [fillUntilFull]
    split
    · exact List.prefix_cons_inj item |>.mpr (ih _)
    · exact List.nil_prefix

/-- Every initial segment that fits is part of the one that is taken. -/
theorem fillUntilFull_longest {accum : Nat} {segment : List α} (hSegment : segment <+: items)
    (hFits : accum + total weight segment ≤ capacity) :
    segment <+: fillUntilFull weight capacity accum items := by
  induction items generalizing accum segment with
  | nil => exact hSegment
  | cons item items ih =>
    cases segment with
    | nil => exact List.nil_prefix
    | cons first segment =>
      obtain ⟨rfl, hRest⟩ := List.cons_prefix_cons.mp hSegment
      rw [total_cons] at hFits
      rw [fillUntilFull, if_pos (by omega)]
      apply (List.prefix_cons_inj first).mpr
      apply ih hRest
      omega

end LosslessHermes.Greedy
