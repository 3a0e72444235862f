import Mathlib.Data.List.Perm.Subperm
import Mathlib.Data.List.Range
import Mathlib.Data.List.TakeWhile

/-!
# Items that are checked and put into slots

`checkAll f` runs a check over a list and stops where it fails. `checkAll_bad_iff` tells the
failures of two kinds apart: those of a test `p` that comes first, and the others, which only an
item before the first failure of `p` can cause.

`scatter` writes values into slots by their indices.
-/

namespace LosslessHermes.Scatter

/-! ## Checks -/

section Checks

variable {α β ε : Type} {f : α → Except ε β}

def checkAll (f : α → Except ε β) : List α → Except ε (List β)
  | [] => .ok []
  | a :: rest =>
      match f a with
      | .error e => .error e
      | .ok b => (checkAll f rest).map (b :: ·)

theorem checkAll_cons_of_ok {a : α} {b : β} (h : f a = .ok b) (rest : List α) :
    checkAll f (a :: rest) = (checkAll f rest).map (b :: ·) := by
  rw [checkAll, h]

theorem checkAll_cons_of_error {a : α} {e : ε} (h : f a = .error e) (rest : List α) :
    checkAll f (a :: rest) = .error e := by
  rw [checkAll, h]

theorem checkAll_eq_ok_iff {as : List α} {bs : List β} :
    checkAll f as = .ok bs ↔ List.Forall₂ (fun a b => f a = .ok b) as bs := by
  induction as generalizing bs with
  | nil =>
    rw [checkAll, List.forall₂_nil_left_iff, Except.ok.injEq]
    exact eq_comm
  | cons a rest ih =>
    rw [List.forall₂_cons_left_iff]
    cases hHead : f a with
    | error e =>
      rw [checkAll_cons_of_error hHead]
      simp
    | ok b =>
      rw [checkAll_cons_of_ok hHead]
      cases hRest : checkAll f rest with
      | error e =>
        have hNone : ∀ ys, ¬ List.Forall₂ (fun a b => f a = .ok b) rest ys := by
          intro ys h
          rw [ih.mpr h] at hRest
          cases hRest
        simp [Except.map, hNone]
      | ok ys =>
        have hSome : ∀ zs, List.Forall₂ (fun a b => f a = .ok b) rest zs ↔ ys = zs := by
          intro zs
          rw [← ih, hRest, Except.ok.injEq]
        simp [Except.map, hSome, eq_comm]

theorem exists_of_mem_checkAll {as : List α} {bs : List β} (h : checkAll f as = .ok bs) {a : α}
    (ha : a ∈ as) : ∃ b ∈ bs, f a = .ok b := by
  have hAll := checkAll_eq_ok_iff.mp h
  clear h
  induction hAll with
  | nil => cases ha
  | @cons x b as bs hHead _ ih =>
    rcases List.mem_cons.mp ha with rfl | ha
    · exact ⟨b, List.mem_cons_self, hHead⟩
    · obtain ⟨b', hb', hEq⟩ := ih ha
      exact ⟨b', List.mem_cons_of_mem b hb', hEq⟩

theorem exists_of_mem_checked {as : List α} {bs : List β} (h : checkAll f as = .ok bs) {b : β}
    (hb : b ∈ bs) : ∃ a ∈ as, f a = .ok b := by
  have hAll := checkAll_eq_ok_iff.mp h
  clear h
  induction hAll with
  | nil => cases hb
  | @cons a y as bs hHead _ ih =>
    rcases List.mem_cons.mp hb with rfl | hb
    · exact ⟨a, List.mem_cons_self, hHead⟩
    · obtain ⟨a', ha', hEq⟩ := ih hb
      exact ⟨a', List.mem_cons_of_mem a ha', hEq⟩

/-- A failure is that of an element. -/
theorem exists_of_checkAll_error {as : List α} {e : ε} (h : checkAll f as = .error e) :
    ∃ a ∈ as, f a = .error e := by
  induction as with
  | nil => cases h
  | cons a rest ih =>
    cases hHead : f a with
    | error e' =>
      rw [checkAll_cons_of_error hHead] at h
      cases h
      exact ⟨a, List.mem_cons_self, hHead⟩
    | ok b =>
      rw [checkAll_cons_of_ok hHead] at h
      cases hRest : checkAll f rest with
      | ok bs => rw [hRest] at h; cases h
      | error e' =>
        rw [hRest] at h
        cases h
        obtain ⟨x, hx, hError⟩ := ih hRest
        exact ⟨x, List.mem_cons_of_mem a hx, hError⟩

/-- Where what `p` refuses fails in one way and what it lets through can fail in the other way
only, a failure of the second kind comes from an item before the first that `p` refuses. -/
theorem checkAll_bad_iff {p : α → Bool} {Bad : ε → Prop}
    (hRefused : ∀ a, p a = false → ∃ e, f a = .error e ∧ ¬ Bad e)
    (hPassed : ∀ a e, p a = true → f a = .error e → Bad e) {as : List α} :
    (∃ e, checkAll f as = .error e ∧ Bad e) ↔ ∃ a ∈ as.takeWhile p, ∃ e, f a = .error e := by
  induction as with
  | nil =>
    constructor
    · rintro ⟨e, h, -⟩
      cases h
    · rintro ⟨a, h, -⟩
      cases h
  | cons a rest ih =>
    cases hp : p a with
    | false =>
      obtain ⟨e, hError, hGood⟩ := hRefused a hp
      rw [checkAll_cons_of_error hError, List.takeWhile_cons_of_neg (by simp [hp])]
      constructor
      · rintro ⟨e', h, hBad⟩
        cases h
        exact absurd hBad hGood
      · rintro ⟨x, h, -⟩
        cases h
    | true =>
      rw [List.takeWhile_cons_of_pos hp]
      cases hHead : f a with
      | error e =>
        rw [checkAll_cons_of_error hHead]
        exact ⟨fun _ => ⟨a, List.mem_cons_self, e, hHead⟩,
          fun _ => ⟨e, rfl, hPassed a e hp hHead⟩⟩
      | ok b =>
        rw [checkAll_cons_of_ok hHead]
        constructor
        · rintro ⟨e, h, hBad⟩
          cases hRest : checkAll f rest with
          | ok bs => rw [hRest] at h; cases h
          | error e' =>
            rw [hRest] at h
            cases h
            obtain ⟨x, hx, hError⟩ := ih.mp ⟨_, hRest, hBad⟩
            exact ⟨x, List.mem_cons_of_mem a hx, hError⟩
        · rintro ⟨x, hx, e, hError⟩
          rcases List.mem_cons.mp hx with rfl | hx
          · rw [hHead] at hError
            cases hError
          · obtain ⟨e', hRest, hBad⟩ := ih.mpr ⟨x, hx, e, hError⟩
            exact ⟨e', by rw [hRest]; rfl, hBad⟩

end Checks

/-! ## Slots -/

section Slots

variable {β : Type} {writes : List (Nat × β)} {slots : List (Option β)}

def scatter (writes : List (Nat × β)) (slots : List (Option β)) : List (Option β) :=
  writes.foldl (fun slots w => slots.set w.1 (some w.2)) slots

theorem scatter_cons (w : Nat × β) (writes : List (Nat × β)) (slots : List (Option β)) :
    scatter (w :: writes) slots = scatter writes (slots.set w.1 (some w.2)) := rfl

theorem length_scatter (writes : List (Nat × β)) (slots : List (Option β)) :
    (scatter writes slots).length = slots.length := by
  induction writes generalizing slots with
  | nil => rfl
  | cons w writes ih => rw [scatter_cons, ih, List.length_set]

theorem scatter_of_not_mem {i : Nat} (h : i ∉ writes.map (·.1)) :
    (scatter writes slots)[i]? = slots[i]? := by
  induction writes generalizing slots with
  | nil => rfl
  | cons w writes ih =>
    rw [List.map_cons, List.mem_cons, not_or] at h
    rw [scatter_cons, ih h.2, List.getElem?_set_ne (Ne.symm h.1)]

/-- With distinct indices each value is in its slot. -/
theorem scatter_of_mem (hNodup : (writes.map (·.1)).Nodup) {w : Nat × β} (h : w ∈ writes)
    (hLt : w.1 < slots.length) : (scatter writes slots)[w.1]? = some (some w.2) := by
  induction writes generalizing slots with
  | nil => cases h
  | cons first writes ih =>
    rw [List.map_cons, List.nodup_cons] at hNodup
    rw [scatter_cons]
    rcases List.mem_cons.mp h with rfl | h
    · rw [scatter_of_not_mem hNodup.1, List.getElem?_set_self hLt]
    · exact ih hNodup.2 h (by rwa [List.length_set])

/-- Indices below their number are distinct if and only if none is left out. -/
theorem nodup_iff_perm_range {indices : List Nat} {n : Nat} (hLength : indices.length = n)
    (hLt : ∀ i ∈ indices, i < n) : indices.Nodup ↔ indices.Perm (List.range n) := by
  constructor
  · intro hNodup
    have hSub : indices.Subperm (List.range n) :=
      hNodup.subperm fun i hi => List.mem_range.mpr (hLt i hi)
    exact hSub.perm_of_length_le (by rw [List.length_range, hLength])
  · intro hPerm
    exact hPerm.nodup_iff.mpr List.nodup_range

theorem scatter_full_iff {n : Nat} (hLength : writes.length = n) (hLt : ∀ w ∈ writes, w.1 < n) :
    none ∉ scatter writes (List.replicate n none) ↔ (writes.map (·.1)).Nodup := by
  have hIndices : ∀ i ∈ writes.map (·.1), i < n := List.forall_mem_map.mpr hLt
  have hMapLength : (writes.map (·.1)).length = n := by rw [List.length_map, hLength]
  constructor
  · intro hFull
    rw [nodup_iff_perm_range hMapLength hIndices]
    -- an index that is left out leaves its slot empty
    have hAll : List.range n ⊆ writes.map (·.1) := by
      intro i hi
      by_contra hMissing
      have hLt' := List.mem_range.mp hi
      have hSlot := @scatter_of_not_mem _ writes (List.replicate n none) i hMissing
      rw [List.getElem?_replicate_of_lt hLt'] at hSlot
      exact hFull (List.mem_of_getElem? hSlot)
    exact ((List.nodup_range.subperm hAll).perm_of_length_le
      (by rw [List.length_range, hMapLength])).symm
  · intro hNodup hNone
    obtain ⟨i, hSlot⟩ := List.getElem?_of_mem hNone
    have hLt' : i < n := by
      have hBound := (List.getElem?_eq_some_iff.mp hSlot).1
      rwa [length_scatter, List.length_replicate] at hBound
    have hMem := ((nodup_iff_perm_range hMapLength hIndices).mp hNodup).mem_iff.mpr
      (List.mem_range.mpr hLt')
    obtain ⟨w, hw, rfl⟩ := List.mem_map.mp hMem
    rw [scatter_of_mem hNodup hw (by rwa [List.length_replicate])] at hSlot
    cases hSlot

end Slots

end LosslessHermes.Scatter
