import Mathlib.Data.Finset.Card
import Mathlib.Data.List.Nodup

/-!
# Dictionaries in insertion order

A dictionary whose values know their own key is the list of its values, each at the place
where its key was first set: `set` replaces a value where it stands, or appends it.

`keys_set` says what an assignment does to the keys, `foldl_eraseIf` what deletions leave.
-/

namespace LosslessHermes.Dict

variable {ρ κ ι : Type} [DecidableEq κ]

/-- `d[key v] = v`. -/
def set (key : ρ → κ) (v : ρ) : List ρ → List ρ
  | [] => [v]
  | u :: d => if key u = key v then v :: d else u :: set key v d

/-- `d.get(k)`. -/
def get (key : ρ → κ) (k : κ) (d : List ρ) : Option ρ :=
  d.find? fun v => key v = k

/-- `del d[k]`. -/
def erase (key : ρ → κ) (k : κ) (d : List ρ) : List ρ :=
  d.filter fun v => key v ≠ k

/-- The same, if there is a value under the key and it is of a kind. -/
def eraseIf (key : ρ → κ) (kind : ρ → Bool) (d : List ρ) (k : κ) : List ρ :=
  match get key k d with
  | some v => if kind v then erase key k d else d
  | none => d

/-- One assignment for each item, which may look at the dictionary so far. -/
def setAll (key : ρ → κ) (value : List ρ → ι → ρ) : List ι → List ρ → List ρ
  | [], d => d
  | i :: items, d => setAll key value items (set key (value d i) d)

variable {key : ρ → κ} {d : List ρ} {k : κ} {v : ρ}

theorem key_of_get (h : get key k d = some v) : key v = k :=
  of_decide_eq_true (List.find?_some h :)

theorem mem_of_get (h : get key k d = some v) : v ∈ d :=
  List.mem_of_find?_eq_some h

/-- A key that is set is found. -/
theorem exists_get (h : k ∈ d.map key) : ∃ v, get key k d = some v := by
  obtain ⟨v, hMem, hKey⟩ := List.mem_map.mp h
  apply Option.isSome_iff_exists.mp
  exact List.find?_isSome.mpr ⟨v, hMem, decide_eq_true hKey⟩

theorem get_eq_none : get key k d = none ↔ k ∉ d.map key := by
  unfold get
  rw [List.find?_eq_none, List.mem_map]
  constructor
  · rintro h ⟨v, hMem, hKey⟩
    exact h v hMem (decide_eq_true hKey)
  · intro h v hMem hKey
    exact h ⟨v, hMem, of_decide_eq_true hKey⟩

/-- Where keys are distinct, a value is the one found under its key. -/
theorem get_of_mem (h : (d.map key).Nodup) (hMem : v ∈ d) : get key (key v) d = some v := by
  obtain ⟨u, hGet⟩ := exists_get (List.mem_map_of_mem (f := key) hMem)
  rw [hGet, List.inj_on_of_nodup_map h (mem_of_get hGet) hMem (key_of_get hGet)]

/-- A new key comes last. -/
theorem set_of_new (h : key v ∉ d.map key) : set key v d = d ++ [v] := by
  induction d with
  | nil => rfl
  | cons u d ih =>
    rw [List.map_cons, List.mem_cons, not_or] at h
    unfold set
    rw [if_neg (Ne.symm h.1), ih h.2, List.cons_append]

/-- An assignment keeps the place of a key, and a new key comes last. -/
theorem keys_set (v : ρ) (d : List ρ) :
    (set key v d).map key =
      if key v ∈ d.map key then d.map key else d.map key ++ [key v] := by
  induction d with
  | nil => rfl
  | cons u d ih =>
    unfold set
    by_cases hKey : key u = key v
    · rw [if_pos hKey, if_pos (by rw [List.map_cons, hKey]; exact List.mem_cons_self),
        List.map_cons, List.map_cons, hKey]
    · rw [if_neg hKey, List.map_cons, ih, List.map_cons]
      have hMem : key v ∈ key u :: d.map key ↔ key v ∈ d.map key := by
        rw [List.mem_cons]
        exact or_iff_right (Ne.symm hKey)
      simp only [hMem]
      split <;> rfl

theorem nodup_keys_set (h : (d.map key).Nodup) (v : ρ) : ((set key v d).map key).Nodup := by
  rw [keys_set]
  split
  · exact h
  · rename_i hNew
    exact List.nodup_append.mpr ⟨h, List.nodup_singleton _, fun a ha b hb hEq =>
      hNew (by rw [← List.mem_singleton.mp hb, ← hEq]; exact ha)⟩

theorem toFinset_keys_set (v : ρ) (d : List ρ) :
    ((set key v d).map key).toFinset = insert (key v) (d.map key).toFinset := by
  rw [keys_set]
  split
  · rename_i hOld
    exact (Finset.insert_eq_of_mem (List.mem_toFinset.mpr hOld)).symm
  · ext a
    simp only [List.mem_toFinset, List.mem_append, List.mem_singleton, Finset.mem_insert,
      or_comm]

section SetAll

variable {value : List ρ → ι → ρ}

theorem mem_set {u : ρ} (h : u ∈ set key v d) : u = v ∨ u ∈ d := by
  induction d with
  | nil => exact Or.inl (List.mem_singleton.mp h)
  | cons w d ih =>
    unfold set at h
    split at h
    · exact (List.mem_cons.mp h).imp_right (List.mem_cons_of_mem _)
    · rcases List.mem_cons.mp h with rfl | hLater
      · exact Or.inr List.mem_cons_self
      · exact (ih hLater).imp_right (List.mem_cons_of_mem _)

/-- What every assignment gives its value, the loop keeps. -/
theorem forall_setAll {P : ρ → Prop} {value : List ρ → ι → ρ} {items : List ι}
    (hValue : ∀ d : List ρ, (∀ v ∈ d, P v) → ∀ i ∈ items, P (value d i)) (h : ∀ v ∈ d, P v) :
    ∀ v ∈ setAll key value items d, P v := by
  induction items generalizing d with
  | nil => exact h
  | cons i items ih =>
    apply ih fun d hd j hj => hValue d hd j (List.mem_cons_of_mem i hj)
    intro v hMem
    rcases mem_set hMem with rfl | hOld
    · exact hValue d h i List.mem_cons_self
    · exact h v hOld

theorem nodup_keys_setAll (items : List ι) (h : (d.map key).Nodup) :
    ((setAll key value items d).map key).Nodup := by
  induction items generalizing d with
  | nil => exact h
  | cons i items ih => exact ih (nodup_keys_set h _)

/-- The keys after the loop are the old ones and those of the items. -/
theorem toFinset_keys_setAll {itemKey : ι → κ} (hKey : ∀ d i, key (value d i) = itemKey i)
    (items : List ι) (d : List ρ) :
    ((setAll key value items d).map key).toFinset =
      (d.map key).toFinset ∪ (items.map itemKey).toFinset := by
  induction items generalizing d with
  | nil => exact (Finset.union_empty _).symm
  | cons i items ih =>
    unfold setAll
    rw [ih, toFinset_keys_set, hKey, List.map_cons, List.toFinset_cons]
    ext a
    simp only [Finset.mem_union, Finset.mem_insert, or_left_comm, or_assoc]

end SetAll

theorem eraseIf_eq_filter (kind : ρ → Bool) (h : (d.map key).Nodup) (k : κ) :
    eraseIf key kind d k = d.filter fun v => ¬(key v = k ∧ kind v) := by
  unfold eraseIf
  split
  · rename_i v hGet
    have hOnly : ∀ u ∈ d, key u = k → u = v := fun u hMem hKey =>
      List.inj_on_of_nodup_map h hMem (mem_of_get hGet) (hKey.trans (key_of_get hGet).symm)
    split
    · rename_i hKind
      refine List.filter_congr fun u hMem => ?_
      by_cases hKey : key u = k
      · simp [hOnly u hMem hKey ▸ hKind, hKey]
      · simp [hKey]
    · rename_i hKind
      refine (List.filter_eq_self.mpr fun u hMem => ?_).symm
      by_cases hKey : key u = k
      · simp [hOnly u hMem hKey, hKind]
      · simp [hKey]
  · rename_i hGet
    refine (List.filter_eq_self.mpr fun v hMem => ?_).symm
    have hNe : key v ≠ k := fun hKey => get_eq_none.mp hGet (hKey ▸ List.mem_map_of_mem hMem)
    simp [hNe]

/-- Keys are deleted one after the other, each if its value is of a kind: what is left is not
of the kind, or its key is not among them. -/
theorem foldl_eraseIf (kind : ρ → Bool) (keys : List κ) (h : (d.map key).Nodup) :
    keys.foldl (eraseIf key kind) d = d.filter fun v => ¬(key v ∈ keys ∧ kind v) := by
  induction keys generalizing d with
  | nil => simp
  | cons k keys ih =>
    rw [List.foldl_cons, eraseIf_eq_filter kind h,
      ih (h.sublist (List.filter_sublist.map _)), List.filter_filter]
    refine List.filter_congr fun v _ => ?_
    by_cases hKey : key v = k <;> cases kind v <;> simp [hKey]

end LosslessHermes.Dict
