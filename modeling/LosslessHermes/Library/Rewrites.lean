import LosslessHermes.Library.Json

/-!
# Rewriting that is undone

`Rewrites` is a run of single changes, each with a record. If every change can be undone on a
value in which its record is fresh, the changes are undone from the last to the first
(`Rewrites.undo`). `ChangedAt` is a change of one text inside a JSON value; a map over all texts
undoes it if it leaves the other texts alone.
-/

namespace LosslessHermes

/-! ## Runs of changes -/

inductive Rewrites {ρ β : Type} (S : ρ → β → β → Prop) : List ρ → β → β → Prop
  | refl (a : β) : Rewrites S [] a a
  | cons {r : ρ} {rs : List ρ} {a b c : β} : S r a b → Rewrites S rs b c → Rewrites S (r :: rs) a c

namespace Rewrites

variable {ρ β γ : Type} {S : ρ → β → β → Prop} {T : ρ → γ → γ → Prop}

theorem eq_of_nil {a b : β} (h : Rewrites S [] a b) : a = b := by
  cases h
  rfl

theorem append {rs rs' : List ρ} {a b c : β} (h : Rewrites S rs a b) (h' : Rewrites S rs' b c) :
    Rewrites S (rs ++ rs') a c := by
  induction h with
  | refl a => exact h'
  | cons hStep _ ih => exact .cons hStep (ih h')

/-- A run inside a context. -/
theorem inside {f : β → γ} (hContext : ∀ r a b, S r a b → T r (f a) (f b)) {rs : List ρ} {a b : β}
    (h : Rewrites S rs a b) : Rewrites T rs (f a) (f b) := by
  induction h with
  | refl a => exact .refl (f a)
  | cons hStep _ ih => exact .cons (hContext _ _ _ hStep) ih

/-- What a change does not touch stays fresh until it is undone. -/
theorem undo {Fresh : ρ → β → Prop} {Distinct : ρ → ρ → Prop} {undo : ρ → β → β}
    (hUndo : ∀ r a b, S r a b → Fresh r a → undo r b = a)
    (hKeeps : ∀ r r' a b, S r a b → Distinct r r' → Fresh r' a → Fresh r' b) {rs : List ρ}
    {a b : β} (h : Rewrites S rs a b) (hFresh : ∀ r ∈ rs, Fresh r a)
    (hDistinct : rs.Pairwise Distinct) : rs.foldr undo b = a := by
  induction h with
  | refl a => rfl
  | @cons r rs a m b hStep _ ih =>
    obtain ⟨hHead, hTail⟩ := List.pairwise_cons.mp hDistinct
    have hRest : rs.foldr undo b = m := ih
      (fun r' hMem => hKeeps r r' a m hStep (hHead r' hMem)
        (hFresh r' (List.mem_cons_of_mem _ hMem))) hTail
    rw [List.foldr_cons, hRest]
    exact hUndo r a m hStep (hFresh r List.mem_cons_self)

end Rewrites

/-! ## The texts of a value -/

namespace Json

mutual

def texts : Json → List String
  | .str s => [s]
  | .arr items => textsItems items
  | .obj fields => textsFields fields
  | _ => []

def textsItems : List Json → List String
  | [] => []
  | v :: items => texts v ++ textsItems items

def textsFields : List (String × Json) → List String
  | [] => []
  | f :: fields => texts f.2 ++ textsFields fields

end

mutual

def mapTexts (f : String → String) : Json → Json
  | .str s => .str (f s)
  | .arr items => .arr (mapTextsItems f items)
  | .obj fields => .obj (mapTextsFields f fields)
  | .null => .null
  | .bool b => .bool b
  | .int n => .int n
  | .float x => .float x

def mapTextsItems (f : String → String) : List Json → List Json
  | [] => []
  | v :: items => mapTexts f v :: mapTextsItems f items

def mapTextsFields (f : String → String) : List (String × Json) → List (String × Json)
  | [] => []
  | (key, v) :: fields => (key, mapTexts f v) :: mapTextsFields f fields

end

theorem textsItems_eq (items : List Json) : textsItems items = items.flatMap texts := by
  induction items with
  | nil => rfl
  | cons v items ih => rw [textsItems, ih, List.flatMap_cons]

theorem textsFields_eq (fields : List (String × Json)) :
    textsFields fields = fields.flatMap fun f => texts f.2 := by
  induction fields with
  | nil => rfl
  | cons f fields ih => rw [textsFields, ih, List.flatMap_cons]

theorem mapTextsItems_eq (f : String → String) (items : List Json) :
    mapTextsItems f items = items.map (mapTexts f) := by
  induction items with
  | nil => rfl
  | cons v items ih => rw [mapTextsItems, ih, List.map_cons]

theorem mapTextsFields_eq (f : String → String) (fields : List (String × Json)) :
    mapTextsFields f fields = fields.map fun field => (field.1, mapTexts f field.2) := by
  induction fields with
  | nil => rfl
  | cons field fields ih => rw [mapTextsFields, ih, List.map_cons]

/-- A map that leaves all texts alone leaves the value alone. -/
theorem mapTexts_eq_self {f : String → String} {v : Json} (h : ∀ s ∈ texts v, f s = s) :
    mapTexts f v = v := by
  induction v using Json.induct with
  | str s => exact congrArg Json.str (h s (List.mem_singleton.mpr rfl))
  | arr items ih =>
    rw [texts, textsItems_eq] at h
    rw [mapTexts, mapTextsItems_eq]
    have hItems : ∀ v ∈ items, mapTexts f v = id v := fun v hMem =>
      ih v hMem fun s hText => h s (List.mem_flatMap.mpr ⟨v, hMem, hText⟩)
    rw [List.map_congr_left hItems, List.map_id]
  | obj fields ih =>
    rw [texts, textsFields_eq] at h
    rw [mapTexts, mapTextsFields_eq]
    have hFields : ∀ field ∈ fields, (field.1, mapTexts f field.2) = id field := by
      intro field hMem
      have hValue := ih field hMem fun s hText =>
        h s (List.mem_flatMap.mpr ⟨field, hMem, hText⟩)
      rw [hValue]
      rfl
    rw [List.map_congr_left hFields, List.map_id]
  | _ => rfl

/-! ## The place of a field -/

/-- Assignment to a key that exists keeps the keys. -/
theorem map_fst_setField {fields : List (String × Json)} {key : String} {v : Json}
    (h : get? fields key = some v) (w : Json) :
    (setField fields key w).map (·.1) = fields.map (·.1) := by
  have hKnown : key ∈ fields.map (·.1) := List.mem_map.mpr ⟨(key, v), mem_of_get? h, rfl⟩
  unfold setField
  rw [if_pos hKnown, List.map_map]
  refine List.map_congr_left fun f _ => ?_
  by_cases hKey : f.1 = key
  · rw [Function.comp_apply, if_pos hKey, hKey]
  · rw [Function.comp_apply, if_neg hKey]

/-- Where the keys are distinct, assignment to one of them changes that field only. -/
theorem exists_setField_eq {fields : List (String × Json)} (hNodup : (fields.map (·.1)).Nodup)
    {key : String} {v : Json} (h : get? fields key = some v) :
    ∃ before after, fields = before ++ (key, v) :: after ∧
      ∀ w, setField fields key w = before ++ (key, w) :: after := by
  obtain ⟨before, after, rfl, -⟩ := List.lookup_eq_some_iff.mp h
  refine ⟨before, after, rfl, fun w => ?_⟩
  rw [List.map_append, List.map_cons, List.nodup_middle, List.nodup_cons, ← List.map_append] at hNodup
  have hOther : ∀ f ∈ before ++ after, (if f.1 = key then (key, w) else f) = id f := fun f hMem =>
    if_neg fun hKey => hNodup.1 (List.mem_map.mpr ⟨f, hMem, hKey⟩)
  have hBefore := List.map_congr_left fun f hMem => hOther f (List.mem_append_left after hMem)
  have hAfter := List.map_congr_left fun f hMem => hOther f (List.mem_append_right before hMem)
  unfold setField
  have hKnown : key ∈ (before ++ (key, v) :: after).map (·.1) :=
    List.mem_map.mpr ⟨(key, v), List.mem_append_right before List.mem_cons_self, rfl⟩
  rw [if_pos hKnown, List.map_append, List.map_cons, if_pos rfl, hBefore, hAfter, List.map_id,
    List.map_id]

/-! ## A change of one text -/

inductive ChangedAt (R : String → String → Prop) : Json → Json → Prop
  | text {s t : String} : R s t → ChangedAt R (.str s) (.str t)
  | item (before : List Json) {v w : Json} (after : List Json) : ChangedAt R v w →
      ChangedAt R (.arr (before ++ v :: after)) (.arr (before ++ w :: after))
  | field (before : List (String × Json)) (key : String) {v w : Json}
      (after : List (String × Json)) : ChangedAt R v w →
      ChangedAt R (.obj (before ++ (key, v) :: after)) (.obj (before ++ (key, w) :: after))

namespace ChangedAt

variable {R : String → String → Prop} {v w : Json}

/-- What a change keeps of a text, it keeps of all of them. -/
theorem forall_texts {P : String → Prop} (h : ChangedAt R v w) (hKeeps : ∀ s t, R s t → P s → P t)
    (hAll : ∀ s ∈ texts v, P s) : ∀ s ∈ texts w, P s := by
  induction h with
  | text hChange =>
    intro s hText
    rw [List.mem_singleton.mp hText]
    exact hKeeps _ _ hChange (hAll _ (List.mem_singleton.mpr rfl))
  | item before after _ ih =>
    simp only [texts, textsItems_eq, List.flatMap_append, List.flatMap_cons,
      List.forall_mem_append] at hAll ⊢
    exact ⟨hAll.1, ih hAll.2.1, hAll.2.2⟩
  | field before key after _ ih =>
    simp only [texts, textsFields_eq, List.flatMap_append, List.flatMap_cons,
      List.forall_mem_append] at hAll ⊢
    exact ⟨hAll.1, ih hAll.2.1, hAll.2.2⟩

/-- A map undoes a change if it undoes it on the text and leaves the others alone. -/
theorem mapTexts_eq {f : String → String} (h : ChangedAt R v w) (hSelf : ∀ s ∈ texts v, f s = s)
    (hUndo : ∀ s t, R s t → s ∈ texts v → f t = s) : mapTexts f w = v := by
  induction h with
  | text hChange =>
    exact congrArg Json.str (hUndo _ _ hChange (List.mem_singleton.mpr rfl))
  | item before after _ ih =>
    simp only [texts, textsItems_eq, List.flatMap_append, List.flatMap_cons,
      List.mem_append] at hSelf hUndo
    have hBefore : ∀ u ∈ before, mapTexts f u = id u := fun u hMem =>
      mapTexts_eq_self fun s hText =>
        hSelf s (Or.inl (List.mem_flatMap.mpr ⟨u, hMem, hText⟩))
    have hAfter : ∀ u ∈ after, mapTexts f u = id u := fun u hMem =>
      mapTexts_eq_self fun s hText =>
        hSelf s (Or.inr (Or.inr (List.mem_flatMap.mpr ⟨u, hMem, hText⟩)))
    have hItem := ih (fun s hText => hSelf s (Or.inr (Or.inl hText)))
      fun s t hChange hText => hUndo s t hChange (Or.inr (Or.inl hText))
    rw [mapTexts, mapTextsItems_eq, List.map_append, List.map_cons, List.map_congr_left hBefore,
      List.map_congr_left hAfter, List.map_id, List.map_id, hItem]
  | field before key after _ ih =>
    simp only [texts, textsFields_eq, List.flatMap_append, List.flatMap_cons,
      List.mem_append] at hSelf hUndo
    have hSame : ∀ fields : List (String × Json), (∀ s ∈ fields.flatMap fun f => texts f.2,
        f s = s) → fields.map (fun field => (field.1, mapTexts f field.2)) = fields := by
      intro fields hTexts
      have hObj : mapTexts f (.obj fields) = .obj fields := mapTexts_eq_self fun s hText =>
        hTexts s (by rwa [texts, textsFields_eq] at hText)
      rw [mapTexts, mapTextsFields_eq] at hObj
      exact Json.obj.inj hObj
    have hField := ih (fun s hText => hSelf s (Or.inr (Or.inl hText)))
      fun s t hChange hText => hUndo s t hChange (Or.inr (Or.inl hText))
    rw [mapTexts, mapTextsFields_eq, List.map_append, List.map_cons,
      hSame before fun s hText => hSelf s (Or.inl hText),
      hSame after fun s hText => hSelf s (Or.inr (Or.inr hText)), hField]

end ChangedAt
end Json
end LosslessHermes
