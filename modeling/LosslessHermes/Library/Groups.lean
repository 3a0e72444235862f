import Mathlib.Algebra.BigOperators.Group.List.Basic
import Mathlib.Data.List.Dedup
import Mathlib.Algebra.GroupWithZero.Nat

/-!
# Rows grouped by a key

`groupBy` is `SELECT … GROUP BY key` over lists of rows, and `joined` what a `LEFT JOIN` finds
in a table under a key of which each value occurs once. `joined_groupBy` is a join with a
grouping: the aggregate of the rows of that key, or nothing where there is no such row.
-/

namespace LosslessHermes.Groups

variable {ρ κ β : Type} [DecidableEq κ]

/-- The rows of one key. -/
def group (key : ρ → κ) (rows : List ρ) (k : κ) : List ρ :=
  rows.filter fun r => key r = k

/-- One row for each key that occurs. -/
def groupBy (key : ρ → κ) (aggregate : κ → List ρ → β) (rows : List ρ) : List β :=
  (rows.map key).dedup.map fun k => aggregate k (group key rows k)

def joined (key : β → κ) (rows : List β) (k : κ) : Option β :=
  rows.find? fun r => key r = k

/-! ## Joins with a grouping -/

theorem joined_map {key : β → κ} {f : κ → β} (hKey : ∀ k, key (f k) = k) (ks : List κ) (k : κ) :
    joined key (ks.map f) k = if k ∈ ks then some (f k) else none := by
  unfold joined
  induction ks with
  | nil => rfl
  | cons first rest ih =>
    rw [List.map_cons, List.find?_cons, hKey]
    by_cases hFirst : first = k
    · rw [decide_eq_true hFirst, hFirst, if_pos List.mem_cons_self]
    · have hMem : k ∈ first :: rest ↔ k ∈ rest :=
        List.mem_cons.trans (or_iff_right (Ne.symm hFirst))
      rw [decide_eq_false hFirst, ih, if_congr hMem rfl rfl]

variable {key : ρ → κ}

theorem group_eq_nil_iff {rows : List ρ} {k : κ} :
    group key rows k = [] ↔ k ∉ rows.map key := by
  unfold group
  rw [List.filter_eq_nil_iff, List.mem_map]
  constructor
  · rintro hNone ⟨r, hMem, hKey⟩
    exact hNone r hMem (decide_eq_true hKey)
  · intro hNone r hMem hKey
    exact hNone ⟨r, hMem, of_decide_eq_true hKey⟩

variable {aggregate : κ → List ρ → β}

theorem joined_groupBy {key' : β → κ}
    (hKey : ∀ k rows, key' (aggregate k rows) = k) (rows : List ρ) (k : κ) :
    joined key' (groupBy key aggregate rows) k =
      if k ∈ rows.map key then some (aggregate k (group key rows k)) else none := by
  unfold groupBy
  rw [joined_map fun k => hKey k _]
  exact if_congr List.mem_dedup rfl rfl

/-- A column of the joined row, where a missing row counts as an empty group. -/
theorem getD_joined_groupBy {γ : Type} {key' : β → κ}
    (hKey : ∀ k rows, key' (aggregate k rows) = k) {column : β → γ} {default : γ}
    (hEmpty : ∀ k, column (aggregate k []) = default) (rows : List ρ) (k : κ) :
    ((joined key' (groupBy key aggregate rows) k).map column).getD default =
      column (aggregate k (group key rows k)) := by
  rw [joined_groupBy hKey]
  split
  · rfl
  · rename_i hNone
    rw [group_eq_nil_iff.mpr hNone, hEmpty]
    rfl

/-- A column that all aggregates have in common, read from the first of them. -/
theorem getD_head?_groupBy {γ : Type} {column : β → γ} {common default : γ} {rows : List ρ}
    (hColumn : ∀ k rows, column (aggregate k rows) = common)
    (hEmpty : rows = [] → common = default) :
    ((groupBy key aggregate rows).head?.map column).getD default = common := by
  unfold groupBy
  rw [List.head?_map, Option.map_map]
  cases hKeys : (rows.map key).dedup with
  | nil =>
    rw [List.dedup_eq_nil, List.map_eq_nil_iff] at hKeys
    exact (hEmpty hKeys).symm
  | cons k rest => exact hColumn k _

/-! ## Groups of some of the rows -/

/-- Parts that are put together under names of their own can be read by name. -/
theorem group_flatMap {δ : Type} {name : δ → κ} {parts : List δ} {part : δ}
    (hNodup : (parts.map name).Nodup) (hMem : part ∈ parts) (rows : δ → List β) :
    group Prod.fst (parts.flatMap fun d => (rows d).map fun b => (name d, b)) (name part) =
      (rows part).map fun b => (name part, b) := by
  have hOwn : ∀ d k, group Prod.fst ((rows d).map fun b => (name d, b)) k =
      if name d = k then (rows d).map fun b => (name d, b) else [] := by
    intro d k
    unfold group
    split
    · rename_i hName
      refine List.filter_eq_self.mpr (List.forall_mem_map.mpr fun b _ => decide_eq_true hName)
    · rename_i hName
      exact List.filter_eq_nil_iff.mpr (List.forall_mem_map.mpr fun b _ hKey =>
        hName (of_decide_eq_true hKey))
  induction parts with
  | nil => cases hMem
  | cons first rest ih =>
    obtain ⟨hNew, hRest⟩ := List.nodup_cons.mp hNodup
    have hAppend : ∀ xs ys : List (κ × β), group Prod.fst (xs ++ ys) (name part) =
        group Prod.fst xs (name part) ++ group Prod.fst ys (name part) :=
      fun xs ys => List.filter_append ..
    rw [List.flatMap_cons, hAppend, hOwn]
    rcases List.mem_cons.mp hMem with rfl | hLater
    · rw [if_pos rfl, List.append_right_eq_self, group_eq_nil_iff, List.mem_map]
      rintro ⟨row, hRow, hName⟩
      obtain ⟨d, hPart, hRow⟩ := List.mem_flatMap.mp hRow
      obtain ⟨b, -, rfl⟩ := List.mem_map.mp hRow
      exact hNew (List.mem_map.mpr ⟨d, hPart, hName⟩)
    · have hOther : name first ≠ name part := fun hSame =>
        hNew (List.mem_map.mpr ⟨part, hLater, hSame.symm⟩)
      rw [if_neg hOther, List.nil_append]
      exact ih hRest hLater


/-- A restriction to some keys keeps the groups of these keys. -/
theorem group_filter_mem {ks : List κ} {k : κ} (hMem : k ∈ ks) (rows : List ρ) :
    group key (rows.filter fun r => key r ∈ ks) k = group key rows k := by
  unfold group
  rw [List.filter_filter]
  refine List.filter_congr fun r _ => ?_
  by_cases hKey : key r = k
  · rw [decide_eq_true hKey, hKey, decide_eq_true hMem, Bool.and_self]
  · rw [decide_eq_false hKey, Bool.false_and]

theorem sum_length_group {ks : List κ} (hNodup : ks.Nodup) (rows : List ρ) :
    (ks.map fun k => (group key rows k).length).sum =
      (rows.filter fun r => key r ∈ ks).length := by
  induction ks with
  | nil => simp
  | cons k rest ih =>
    obtain ⟨hNew, hRest⟩ := List.nodup_cons.mp hNodup
    have hOthers : ((rows.filter fun r => key r ∈ k :: rest).filter fun r => !(key r = k)) =
        rows.filter fun r => key r ∈ rest := by
      rw [List.filter_filter]
      refine List.filter_congr fun r _ => ?_
      by_cases hKey : key r = k
      · rw [decide_eq_true hKey, hKey, decide_eq_false hNew]
        rfl
      · rw [decide_eq_false hKey, Bool.not_false, Bool.true_and]
        exact decide_eq_decide.mpr (List.mem_cons.trans (or_iff_right hKey))
    have hOwn : ((rows.filter fun r => key r ∈ k :: rest).filter fun r => key r = k) =
        group key rows k := group_filter_mem List.mem_cons_self rows
    rw [List.map_cons, List.sum_cons, ih hRest,
      List.length_eq_length_filter_add (l := rows.filter fun r => key r ∈ k :: rest)
        fun r => key r = k, hOthers, hOwn]

end LosslessHermes.Groups
