import Mathlib.Data.List.Basic
import Mathlib.Algebra.GroupWithZero.Nat

/-!
# Collecting partial results in order

`collect f` concatenates the lists that `f` assigns to the elements of a list
and fails as soon as `f` fails on one of them. The rules say how it splits over
an append and when one function may be exchanged for another.
-/

namespace LosslessHermes.Collect

variable {α β : Type}

def collect (f : α → Option (List β)) : List α → Option (List β)
  | [] => some []
  | a :: rest =>
      match f a, collect f rest with
      | some xs, some ys => some (xs ++ ys)
      | _, _ => none

variable {f g : α → Option (List β)}

variable {result : List β}

theorem collect_cons_eq_some {a : α} {rest : List α} :
    collect f (a :: rest) = some result ↔
      ∃ xs ys, f a = some xs ∧ collect f rest = some ys ∧ result = xs ++ ys := by
  constructor
  · intro h
    simp only [collect] at h
    split at h
    · rename_i xs ys hx hy
      exact ⟨xs, ys, hx, hy, (Option.some.inj h).symm⟩
    · cases h
  · rintro ⟨xs, ys, hx, hy, rfl⟩
    simp only [collect, hx, hy]

variable {xs : List α}

theorem collect_append_eq_some {ys : List α} :
    collect f (xs ++ ys) = some result ↔
      ∃ left right, collect f xs = some left ∧ collect f ys = some right ∧
        result = left ++ right := by
  induction xs generalizing result with
  | nil => simp [collect]
  | cons a rest ih =>
    rw [List.cons_append, collect_cons_eq_some]
    constructor
    · rintro ⟨head, tail, hHead, hTail, rfl⟩
      obtain ⟨left, right, hLeft, hRight, rfl⟩ := ih.mp hTail
      exact ⟨head ++ left, right, collect_cons_eq_some.mpr ⟨head, left, hHead, hLeft, rfl⟩,
        hRight, by simp⟩
    · rintro ⟨all, right, hAll, hRight, rfl⟩
      obtain ⟨head, left, hHead, hLeft, rfl⟩ := collect_cons_eq_some.mp hAll
      exact ⟨head, left ++ right, hHead, ih.mpr ⟨left, right, hLeft, hRight, rfl⟩, by simp⟩

theorem collect_singleton (a : α) : collect f [a] = f a := by
  cases h : f a <;> simp [collect, h]

/-- `g` may replace `f` where it returns the same results. -/
theorem collect_congr
    (h : ∀ a ∈ xs, ∀ ys, f a = some ys → g a = some ys) (hCollect : collect f xs = some result) :
    collect g xs = some result := by
  induction xs generalizing result with
  | nil => exact hCollect
  | cons a rest ih =>
    obtain ⟨head, tail, hHead, hTail, rfl⟩ := collect_cons_eq_some.mp hCollect
    exact collect_cons_eq_some.mpr ⟨head, tail, h a List.mem_cons_self head hHead,
      ih (fun b hb => h b (List.mem_cons_of_mem _ hb)) hTail, rfl⟩

theorem exists_of_mem_collect
    (hCollect : collect f xs = some result) {a : α} (ha : a ∈ xs) : ∃ ys, f a = some ys := by
  induction xs generalizing result with
  | nil => cases ha
  | cons b rest ih =>
    obtain ⟨head, tail, hHead, hTail, -⟩ := collect_cons_eq_some.mp hCollect
    rcases List.mem_cons.mp ha with rfl | ha
    · exact ⟨head, hHead⟩
    · exact ih hTail ha

theorem collect_map {γ : Type} (k : γ → α) (xs : List γ) :
    collect f (xs.map k) = collect (fun x => f (k x)) xs := by
  induction xs with
  | nil => rfl
  | cons x rest ih => simp only [List.map_cons, collect, ih]

theorem exists_collect (h : ∀ a ∈ xs, ∃ ys, f a = some ys) :
    ∃ result, collect f xs = some result := by
  induction xs with
  | nil => exact ⟨[], rfl⟩
  | cons a rest ih =>
    obtain ⟨head, hHead⟩ := h a List.mem_cons_self
    obtain ⟨tail, hTail⟩ := ih fun b hb => h b (List.mem_cons_of_mem _ hb)
    exact ⟨head ++ tail, collect_cons_eq_some.mpr ⟨head, tail, hHead, hTail, rfl⟩⟩

theorem collect_total (k : α → List β) (xs : List α) :
    collect (fun a => some (k a)) xs = some (xs.flatMap k) := by
  induction xs with
  | nil => rfl
  | cons a rest ih => simp only [collect, ih, List.flatMap_cons]

/-- Elements that stand for themselves. -/
theorem collect_self (xs : List α) : collect (fun a => some [a]) xs = some xs := by
  rw [collect_total, List.flatMap_singleton']

theorem mem_collect (hCollect : collect f xs = some result)
    {b : β} : b ∈ result ↔ ∃ a ∈ xs, ∃ ys, f a = some ys ∧ b ∈ ys := by
  induction xs generalizing result with
  | nil =>
    obtain rfl : [] = result := Option.some.inj hCollect
    simp
  | cons a rest ih =>
    obtain ⟨head, tail, hHead, hTail, rfl⟩ := collect_cons_eq_some.mp hCollect
    simp [ih hTail, hHead]

/-- A total over the results, from the totals of the single ones. -/
theorem collect_sum (hCollect : collect f xs = some result) (weight : β → Nat) (total : α → Nat)
    (h : ∀ a ∈ xs, ∀ ys, f a = some ys → (ys.map weight).sum = total a) :
    (result.map weight).sum = (xs.map total).sum := by
  induction xs generalizing result with
  | nil =>
    obtain rfl : [] = result := Option.some.inj hCollect
    rfl
  | cons a rest ih =>
    obtain ⟨head, tail, hHead, hTail, rfl⟩ := collect_cons_eq_some.mp hCollect
    rw [List.map_append, List.sum_append, List.map_cons, List.sum_cons,
      h a List.mem_cons_self head hHead, ih hTail fun b hb => h b (List.mem_cons_of_mem _ hb)]

/-- The extreme of the results, from the extremes of the single ones. -/
theorem collect_extreme {γ : Type} (rel : γ → γ → Prop)
    (hTrans : ∀ a b c, rel a b → rel b c → rel a c)
    (hCollect : collect f xs = some result) (key : β → γ) (extreme : α → γ)
    (h : ∀ a ∈ xs, ∀ ys, f a = some ys →
      extreme a ∈ ys.map key ∧ ∀ b ∈ ys.map key, rel (extreme a) b)
    {e : γ} (he : e ∈ xs.map extreme ∧ ∀ b ∈ xs.map extreme, rel e b) :
    e ∈ result.map key ∧ ∀ b ∈ result.map key, rel e b := by
  constructor
  · obtain ⟨a, ha, rfl⟩ := List.mem_map.mp he.1
    obtain ⟨ys, hys⟩ := exists_of_mem_collect hCollect ha
    obtain ⟨b, hb, hEq⟩ := List.mem_map.mp (h a ha ys hys).1
    exact List.mem_map.mpr ⟨b, (mem_collect hCollect).mpr ⟨a, ha, ys, hys, hb⟩, hEq⟩
  · intro k hk
    obtain ⟨b, hb, rfl⟩ := List.mem_map.mp hk
    obtain ⟨a, ha, ys, hys, hb⟩ := (mem_collect hCollect).mp hb
    exact hTrans _ _ _ (he.2 _ (List.mem_map_of_mem ha))
      ((h a ha ys hys).2 _ (List.mem_map_of_mem hb))

section Order

variable {γ : Type} [LE γ] [Std.IsLinearOrder γ] {xs : List α} {result : List β}

theorem collect_least [Min γ] [Std.LawfulOrderMin γ]
    (hCollect : collect f xs = some result) (hNe : xs ≠ []) (key : β → γ) (least : α → γ)
    (h : ∀ a ∈ xs, ∀ ys, f a = some ys → (ys.map key).min? = some (least a)) :
    (result.map key).min? = (xs.map least).min? := by
  obtain ⟨e, he⟩ := Option.isSome_iff_exists.mp (List.isSome_min?_of_ne_nil
    ((List.map_eq_nil_iff (f := least)).not.mpr hNe))
  rw [he]
  exact List.min?_eq_some_iff.mpr (collect_extreme (· ≤ ·) (fun _ _ _ => Std.le_trans)
    hCollect key least (fun a ha ys hys => List.min?_eq_some_iff.mp (h a ha ys hys))
      (List.min?_eq_some_iff.mp he))

theorem collect_greatest [Max γ] [Std.LawfulOrderMax γ]
    (hCollect : collect f xs = some result) (hNe : xs ≠ []) (key : β → γ) (greatest : α → γ)
    (h : ∀ a ∈ xs, ∀ ys, f a = some ys → (ys.map key).max? = some (greatest a)) :
    (result.map key).max? = (xs.map greatest).max? := by
  obtain ⟨e, he⟩ := Option.isSome_iff_exists.mp (List.isSome_max?_of_ne_nil
    ((List.map_eq_nil_iff (f := greatest)).not.mpr hNe))
  rw [he]
  exact List.max?_eq_some_iff.mpr (collect_extreme (fun a b => b ≤ a)
    (fun _ _ _ hab hbc => Std.le_trans hbc hab) hCollect key greatest
    (fun a ha ys hys => List.max?_eq_some_iff.mp (h a ha ys hys)) (List.max?_eq_some_iff.mp he))

end Order

end LosslessHermes.Collect
