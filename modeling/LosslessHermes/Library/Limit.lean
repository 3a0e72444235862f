import Mathlib.Data.List.Basic
import Mathlib.Data.List.Infix
import Mathlib.Data.List.Nodup
import Mathlib.Data.List.Perm.Subperm
import Mathlib.Order.Defs.LinearOrder
import Mathlib.Algebra.GroupWithZero.Nat
import Mathlib.Order.Lattice

/-!
# A limit between two filters

A list is filtered by `p`, cut at a limit, and filtered by `q`. `filter_take_filter_eq_iff` says
when this gives the first elements that meet `q`.
-/

namespace LosslessHermes.Limit

variable {α β : Type} {p q : α → Bool} {l : List α}

/-- The element meets the filter, and fewer than `n` before it do. -/
def Among (p : α → Bool) (n : Nat) (l : List α) (x : α) : Prop :=
  ∃ before after, l = before ++ x :: after ∧ p x = true ∧ before.countP p < n

theorem mem_take_filter_iff {n : Nat} {x : α} : x ∈ (l.filter p).take n ↔ Among p n l x := by
  induction l generalizing n with
  | nil =>
    refine iff_of_false (by simp) ?_
    rintro ⟨before, after, hEq, -⟩
    cases before <;> cases hEq
  | cons a l ih =>
    constructor
    · intro hMem
      rw [List.filter_cons] at hMem
      by_cases hp : p a = true
      · rw [if_pos hp] at hMem
        cases n with
        | zero => cases hMem
        | succ n =>
          rcases List.mem_cons.mp hMem with rfl | hRest
          · exact ⟨[], l, rfl, hp, Nat.succ_pos n⟩
          · obtain ⟨before, after, rfl, hx, hCount⟩ := ih.mp hRest
            refine ⟨a :: before, after, rfl, hx, ?_⟩
            rw [List.countP_cons_of_pos hp]
            exact Nat.succ_lt_succ hCount
      · rw [if_neg hp] at hMem
        obtain ⟨before, after, rfl, hx, hCount⟩ := ih.mp hMem
        refine ⟨a :: before, after, rfl, hx, ?_⟩
        rwa [List.countP_cons_of_neg hp]
    · rintro ⟨before, after, hEq, hx, hCount⟩
      rw [List.filter_cons]
      cases before with
      | nil =>
        cases hEq
        obtain ⟨n, rfl⟩ : ∃ k, n = k + 1 := ⟨n - 1, (Nat.sub_add_cancel hCount).symm⟩
        rw [if_pos hx]
        exact List.mem_cons_self
      | cons b before =>
        rw [List.cons_append, List.cons.injEq] at hEq
        obtain ⟨rfl, rfl⟩ := hEq
        by_cases hp : p a = true
        · rw [List.countP_cons_of_pos hp] at hCount
          obtain ⟨n, rfl⟩ : ∃ k, n = k + 1 := ⟨n - 1, by omega⟩
          rw [if_pos hp]
          exact List.mem_cons_of_mem _
            (ih.mpr ⟨before, after, rfl, hx, Nat.lt_of_succ_lt_succ hCount⟩)
        · rw [List.countP_cons_of_neg hp] at hCount
          rw [if_neg hp]
          exact ih.mpr ⟨before, after, rfl, hx, hCount⟩

/-- The first limit may be the smaller one. -/
theorem filter_take_filter_eq_iff_of_le (hNodup : l.Nodup) {m n : Nat} (hLe : m ≤ n) :
    ((l.filter p).take m).filter q = (l.filter q).take n ↔
      ∀ x ∈ (l.filter q).take n, x ∈ (l.filter p).take m := by
  induction l generalizing m n with
  | nil => simp
  | cons a l ih =>
    obtain ⟨hNew, hRest⟩ := List.nodup_cons.mp hNodup
    have hOther : ∀ k, ∀ x ∈ (l.filter q).take k, x ≠ a := fun k x hx hSame =>
      hNew (hSame ▸ (List.mem_filter.mp (List.mem_of_mem_take hx)).1)
    cases m with
    | zero =>
      rw [List.take_zero, List.filter_nil, eq_comm, List.eq_nil_iff_forall_not_mem]
      exact forall_congr' fun x => forall_congr' fun _ => by simp
    | succ m =>
      obtain ⟨n, rfl⟩ : ∃ k, n = k + 1 := ⟨n - 1, by omega⟩
      have hLess : m ≤ n := Nat.le_of_succ_le_succ hLe
      by_cases hp : p a = true
      · rw [List.filter_cons_of_pos hp, List.take_succ_cons]
        by_cases hq : q a = true
        · rw [List.filter_cons_of_pos hq, List.filter_cons_of_pos hq, List.take_succ_cons,
            List.cons.injEq, and_iff_right rfl, ih hRest hLess, List.forall_mem_cons,
            and_iff_right List.mem_cons_self]
          refine forall_congr' fun x => forall_congr' fun hx => ?_
          rw [List.mem_cons, or_iff_right (hOther n x hx)]
        · rw [List.filter_cons_of_neg hq, List.filter_cons_of_neg hq,
            ih hRest (Nat.le_succ_of_le hLess)]
          refine forall_congr' fun x => forall_congr' fun hx => ?_
          rw [List.mem_cons, or_iff_right (hOther (n + 1) x hx)]
      · rw [List.filter_cons_of_neg hp]
        by_cases hq : q a = true
        · -- the element is wanted, and the first filter does not have it
          rw [List.filter_cons_of_pos hq, List.take_succ_cons]
          have hAbsent : a ∉ (l.filter p).take (m + 1) := fun hMem =>
            hp (List.mem_filter.mp (List.mem_of_mem_take hMem)).2
          refine iff_of_false (fun hEq => ?_) fun h => hAbsent (h a List.mem_cons_self)
          have hMem : a ∈ ((l.filter p).take (m + 1)).filter q := hEq ▸ List.mem_cons_self
          exact hAbsent (List.mem_filter.mp hMem).1
        · rw [List.filter_cons_of_neg hq]
          exact ih hRest hLe

theorem filter_take_filter_eq_iff (hNodup : l.Nodup) (n : Nat) :
    ((l.filter p).take n).filter q = (l.filter q).take n ↔
      ∀ x, Among q n l x → Among p n l x := by
  rw [filter_take_filter_eq_iff_of_le hNodup (Nat.le_refl n)]
  simp only [mem_take_filter_iff]

/-- A filter that finds too much, where the results show what they are of. -/
theorem map_take_filter_eq_iff {f : α → β} (hMore : ∀ x, q x = true → p x = true)
    (hShown : ∀ x y, f x = f y → q x = q y) (n : Nat) :
    ((l.filter p).take n).map f = ((l.filter q).take n).map f ↔
      ∀ x, Among p n l x → q x = true := by
  constructor
  · intro hEq x hx
    have hMem : f x ∈ ((l.filter q).take n).map f :=
      hEq ▸ List.mem_map_of_mem (mem_take_filter_iff.mpr hx)
    obtain ⟨y, hy, hSame⟩ := List.mem_map.mp hMem
    rw [← hShown y x hSame]
    exact (List.mem_filter.mp (List.mem_of_mem_take hy)).2
  · intro hAll
    refine congrArg (List.map f) ?_
    induction l generalizing n with
    | nil => rfl
    | cons a l ih =>
      have hLater : ∀ k, (p a = true → k < n) → (p a = false → k ≤ n) → ∀ x, Among p k l x →
          q x = true := by
        rintro k hSome hNone x ⟨before, after, rfl, hx, hCount⟩
        refine hAll x ⟨a :: before, after, rfl, hx, ?_⟩
        cases hp : p a with
        | true =>
          rw [List.countP_cons_of_pos hp]
          have hLess := hSome hp
          omega
        | false =>
          rw [List.countP_cons_of_neg (by simp [hp])]
          have hLe := hNone hp
          omega
      cases n with
      | zero => rfl
      | succ n =>
        by_cases hp : p a = true
        · have hq : q a = true := hAll a ⟨[], l, rfl, hp, Nat.succ_pos n⟩
          rw [List.filter_cons_of_pos hp, List.filter_cons_of_pos hq, List.take_succ_cons,
            List.take_succ_cons,
            ih n (hLater n (fun _ => Nat.lt_succ_self n) fun h => absurd hp (by simp [h]))]
        · have hq : ¬ q a = true := fun hq => hp (hMore a hq)
          rw [List.filter_cons_of_neg hp, List.filter_cons_of_neg hq]
          exact ih (n + 1) (hLater (n + 1) (fun h => absurd h hp) fun _ => Nat.le_refl _)

/-! ## The nearest of the wanted -/

section Nearest

variable {F : Type} [LinearOrder F] {distance : α → F} {wanted pool : List α} {k : Nat}

/-- As many of the wanted elements as the limit allows, in order of distance, and none nearer is
left out. -/
structure Nearest (distance : α → F) (k : Nat) (wanted found : List α) : Prop where
  nodup : found.Nodup
  subset : found ⊆ wanted
  sorted : found.Pairwise fun x y => distance x ≤ distance y
  length : found.length = min k wanted.length
  least : ∀ x ∈ wanted, x ∉ found → ∀ y ∈ found, distance y ≤ distance x

theorem length_lt_of_not_mem {found : List α} (hNodup : found.Nodup) (hSubset : found ⊆ wanted)
    {x : α} (hx : x ∈ wanted) (hNot : x ∉ found) : found.length < wanted.length := by
  have hMore : (x :: found).Nodup := List.nodup_cons.mpr ⟨hNot, hNodup⟩
  have hInside : x :: found ⊆ wanted := List.cons_subset.mpr ⟨hx, hSubset⟩
  exact (hMore.subperm hInside).length_le

/-- What is behind the limit is not nearer than what is before it. -/
theorem le_of_mem_take_of_mem_drop (hSorted : pool.Pairwise fun x y => distance x ≤ distance y)
    {x y : α} (hy : y ∈ pool.take k) (hx : x ∈ pool.drop k) : distance y ≤ distance x := by
  rw [← List.take_append_drop k pool] at hSorted
  exact (List.pairwise_append.mp hSorted).2.2 y hy x hx

theorem le_of_le_countP (hSorted : pool.Pairwise fun x y => distance x ≤ distance y) {x y : α}
    (hCount : k ≤ pool.countP fun z => distance z ≤ distance x) (hy : y ∈ pool.take k) :
    distance y ≤ distance x := by
  refine le_of_not_gt fun hFar => ?_
  -- the elements behind `y` are no nearer than it, so that fewer than `k` are counted
  have hNone : (pool.drop k).countP (fun z => distance z ≤ distance x) = 0 := by
    rw [List.countP_eq_zero]
    intro z hz hNear
    have hBehind := le_of_mem_take_of_mem_drop hSorted hy hz
    exact absurd (lt_of_lt_of_le hFar hBehind) (not_lt_of_ge (of_decide_eq_true hNear))
  have hFew : (pool.take k).countP (fun z => distance z ≤ distance x) < (pool.take k).length := by
    refine lt_of_le_of_ne List.countP_le_length fun hAll => ?_
    have hNear := of_decide_eq_true (List.countP_eq_length.mp hAll y hy)
    exact absurd hFar (not_lt_of_ge hNear)
  rw [← List.take_append_drop k pool, List.countP_append, hNone] at hCount
  have hLength := List.length_take_le k pool
  omega

/-- The first elements of a sorted pool are the nearest of the wanted ones when each wanted one is
in the pool, or so many there are as near. -/
theorem nearest_take_iff (hNodup : pool.Nodup) (hSubset : pool ⊆ wanted) (hWanted : wanted.Nodup)
    (hSorted : pool.Pairwise fun x y => distance x ≤ distance y) :
    Nearest distance k wanted (pool.take k) ↔
      ∀ x ∈ wanted, x ∈ pool ∨ k ≤ pool.countP fun y => distance y ≤ distance x := by
  have hTaken : pool.take k ⊆ wanted := fun x hx => hSubset (List.mem_of_mem_take hx)
  have hFits : pool.length ≤ wanted.length := (hNodup.subperm hSubset).length_le
  constructor
  · intro hNearest x hx
    by_cases hPool : x ∈ pool
    · exact Or.inl hPool
    · have hOut : x ∉ pool.take k := fun hMem => hPool (List.mem_of_mem_take hMem)
      have hLess := length_lt_of_not_mem hNearest.nodup hTaken hx hOut
      have hLength := hNearest.length
      have hAll : (pool.take k).countP (fun y => distance y ≤ distance x) =
          (pool.take k).length :=
        List.countP_eq_length.mpr fun y hy => decide_eq_true (hNearest.least x hx hOut y hy)
      have hLe := (List.take_sublist k pool).countP_le (p := fun y => distance y ≤ distance x)
      exact Or.inr (by omega)
  · intro hNear
    refine ⟨hNodup.sublist (List.take_sublist k pool), hTaken,
      hSorted.sublist (List.take_sublist k pool), ?_, ?_⟩
    · rw [List.length_take]
      by_cases hShort : pool.length < k
      · have hAll : wanted ⊆ pool := fun x hx => by
          refine (hNear x hx).resolve_right fun hCount => ?_
          have hLe := List.countP_le_length (l := pool) (p := fun y => distance y ≤ distance x)
          omega
        have hSame := (hWanted.subperm hAll).length_le
        omega
      · omega
    · intro x hx hOut y hy
      rcases hNear x hx with hPool | hCount
      · rw [← List.take_append_drop k pool] at hPool
        have hBehind := (List.mem_append.mp hPool).resolve_left hOut
        exact le_of_mem_take_of_mem_drop hSorted hy hBehind
      · exact le_of_le_countP hSorted hCount hy

end Nearest

end LosslessHermes.Limit
