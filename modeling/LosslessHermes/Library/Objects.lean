import LosslessHermes.Library.Json
import Mathlib.Data.List.Forall2

/-!
# Objects behind references

Values of JSON shape as they lie in memory: an object is a scalar or a container of references,
and a value may be shared. `Denotes` reads the value behind a reference; new objects do not change
it (`Denotes.grow`).
-/

namespace LosslessHermes

abbrev Ref := Nat

inductive Object
  | scalar (v : Json)
  | list (items : List Ref)
  | dict (fields : List (String × Ref))

/-- The objects, each under the reference that it got when it was built. -/
abbrev Heap := List Object

namespace Heap

mutual

/-- The value behind a reference. -/
def Denotes (heap : Heap) : Ref → Json → Prop
  | ref, .arr items => ∃ refs, heap[ref]? = some (.list refs) ∧ DenotesItems heap refs items
  | ref, .obj fields => ∃ refs, heap[ref]? = some (.dict refs) ∧ DenotesFields heap refs fields
  | ref, .null => heap[ref]? = some (.scalar .null)
  | ref, .bool b => heap[ref]? = some (.scalar (.bool b))
  | ref, .int n => heap[ref]? = some (.scalar (.int n))
  | ref, .float x => heap[ref]? = some (.scalar (.float x))
  | ref, .str s => heap[ref]? = some (.scalar (.str s))

def DenotesItems (heap : Heap) : List Ref → List Json → Prop
  | [], [] => True
  | ref :: refs, v :: items => Denotes heap ref v ∧ DenotesItems heap refs items
  | _, _ => False

def DenotesFields (heap : Heap) : List (String × Ref) → List (String × Json) → Prop
  | [], [] => True
  | ref :: refs, field :: fields =>
      (ref.1 = field.1 ∧ Denotes heap ref.2 field.2) ∧ DenotesFields heap refs fields
  | _, _ => False

end

variable {heap heap' : Heap}

theorem denotesItems_iff {refs : List Ref} {items : List Json} :
    DenotesItems heap refs items ↔ List.Forall₂ (Denotes heap) refs items := by
  induction items generalizing refs with
  | nil =>
    cases refs with
    | nil => simp [DenotesItems]
    | cons ref refs => simp [DenotesItems]
  | cons v items ih =>
    cases refs with
    | nil => simp [DenotesItems]
    | cons ref refs => simp [DenotesItems, ih]

theorem denotesFields_iff {refs : List (String × Ref)} {fields : List (String × Json)} :
    DenotesFields heap refs fields ↔
      List.Forall₂ (fun ref field => ref.1 = field.1 ∧ Denotes heap ref.2 field.2) refs fields := by
  induction fields generalizing refs with
  | nil =>
    cases refs with
    | nil => simp [DenotesFields]
    | cons ref refs => simp [DenotesFields]
  | cons field fields ih =>
    cases refs with
    | nil => simp [DenotesFields]
    | cons ref refs => simp [DenotesFields, ih]

theorem getElem?_grow (h : heap <+: heap') {ref : Ref} {object : Object}
    (hGet : heap[ref]? = some object) : heap'[ref]? = some object := by
  obtain ⟨more, rfl⟩ := h
  rw [List.getElem?_append_left (List.getElem?_eq_some_iff.mp hGet).1]
  exact hGet

/-- New objects do not change the value behind a reference. -/
theorem Denotes.grow (h : heap <+: heap') {ref : Ref} {v : Json} (hDenotes : Denotes heap ref v) :
    Denotes heap' ref v := by
  induction v using Json.induct generalizing ref with
  | arr items ih =>
    obtain ⟨refs, hGet, hItems⟩ := hDenotes
    refine ⟨refs, getElem?_grow h hGet, denotesItems_iff.mpr ?_⟩
    have hAll := denotesItems_iff.mp hItems
    clear hItems hGet
    induction hAll with
    | nil => exact .nil
    | cons hHead _ ihItems =>
      exact .cons (ih _ List.mem_cons_self hHead)
        (ihItems fun w hMem => ih w (List.mem_cons_of_mem _ hMem))
  | obj fields ih =>
    obtain ⟨refs, hGet, hFields⟩ := hDenotes
    refine ⟨refs, getElem?_grow h hGet, denotesFields_iff.mpr ?_⟩
    have hAll := denotesFields_iff.mp hFields
    clear hFields hGet
    induction hAll with
    | nil => exact .nil
    | cons hHead _ ihFields =>
      exact .cons ⟨hHead.1, ih _ List.mem_cons_self hHead.2⟩
        (ihFields fun field hMem => ih field (List.mem_cons_of_mem _ hMem))
  | _ => exact getElem?_grow h hDenotes

theorem Denotes.alloc_list {refs : List Ref} {items : List Json}
    (h : List.Forall₂ (Denotes heap) refs items) :
    Denotes (heap ++ [.list refs]) heap.length (.arr items) := by
  refine ⟨refs, List.getElem?_concat_length, denotesItems_iff.mpr (h.imp fun ref v hRef => ?_)⟩
  exact hRef.grow (List.prefix_append heap _)

theorem Denotes.alloc_dict {refs : List (String × Ref)} {fields : List (String × Json)}
    (h : List.Forall₂ (fun ref field => ref.1 = field.1 ∧ Denotes heap ref.2 field.2) refs fields) :
    Denotes (heap ++ [.dict refs]) heap.length (.obj fields) := by
  refine ⟨refs, List.getElem?_concat_length, denotesFields_iff.mpr (h.imp fun ref field hRef => ?_)⟩
  exact ⟨hRef.1, hRef.2.grow (List.prefix_append heap _)⟩

/-! ## Dictionaries -/

/-- Assignment to a key, which keeps the place of a key that exists. -/
def setItem (refs : List (String × Ref)) (key : String) (ref : Ref) : List (String × Ref) :=
  if key ∈ refs.map (·.1) then refs.map fun r => if r.1 = key then (key, ref) else r
  else refs ++ [(key, ref)]

section Fields

variable {refs : List (String × Ref)} {fields : List (String × Json)}
  (h : List.Forall₂ (fun ref field => ref.1 = field.1 ∧ Denotes heap ref.2 field.2) refs fields)
include h

theorem keys_eq : refs.map (·.1) = fields.map (·.1) := by
  induction h with
  | nil => rfl
  | cons hHead _ ih => rw [List.map_cons, List.map_cons, hHead.1, ih]

theorem lookup_eq_none (key : String) (hGet : Json.get? fields key = none) :
    refs.lookup key = none := by
  rw [Json.get?, List.lookup_eq_none_iff] at hGet
  rw [List.lookup_eq_none_iff]
  intro ref hMem
  have hKey : ref.1 ∈ fields.map (·.1) := keys_eq h ▸ List.mem_map_of_mem hMem
  obtain ⟨field, hField, hSame⟩ := List.mem_map.mp hKey
  rw [← hSame]
  exact hGet field hField

theorem exists_lookup (key : String) {v : Json} (hGet : Json.get? fields key = some v) :
    ∃ ref, refs.lookup key = some ref ∧ Denotes heap ref v := by
  unfold Json.get? at hGet
  induction h with
  | nil => cases hGet
  | @cons ref field refs fields hHead _ ih =>
    rw [List.lookup_cons] at hGet ⊢
    rw [hHead.1]
    split at hGet
    · exact ⟨ref.2, rfl, Option.some.inj hGet ▸ hHead.2⟩
    · exact ih hGet

theorem forall₂_setItem (key : String) {ref : Ref} {v : Json} (hRef : Denotes heap ref v) :
    List.Forall₂ (fun ref field => ref.1 = field.1 ∧ Denotes heap ref.2 field.2)
      (setItem refs key ref) (Json.setField fields key v) := by
  unfold setItem Json.setField
  rw [keys_eq h]
  split
  · rw [List.forall₂_map_left_iff, List.forall₂_map_right_iff]
    refine h.imp fun r field hField => ?_
    rw [hField.1]
    split
    · exact ⟨rfl, hRef⟩
    · exact hField
  · exact List.rel_append h (.cons ⟨rfl, hRef⟩ .nil)

end Fields
end Heap
end LosslessHermes
