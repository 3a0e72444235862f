import LosslessHermes.Ingest.GuardRestore
import LosslessHermes.Library.Objects

/-!
# The guard in memory

The guard as it works on objects. A container is built anew where something in it changed and
returned by its reference otherwise; the message is copied first. The guard only adds objects, so
no object of the caller changes, and what it returns denotes the guarded message
(`protectMessageRef_spec`).
-/

namespace LosslessHermes

open Json (get? setField)
open Heap (Denotes DenotesItems DenotesFields)

section Guard

variable (externalize : Nat → Option String) (role : String)

/-- The items one after another. -/
def protectRefs (protectRef : Heap → Ref → Nat → Option (Heap × Ref × Nat)) :
    Heap → List Ref → Nat → Option (Heap × List Ref × Nat)
  | heap, [], attempt => some (heap, [], attempt)
  | heap, ref :: refs, attempt => do
      let head ← protectRef heap ref attempt
      let rest ← protectRefs protectRef head.1 refs head.2.2
      return (rest.1, head.2.1 :: rest.2.1, rest.2.2)

/-- `_protect_value`, with fuel for the depth of the value. -/
def protectRef : Nat → Heap → Ref → Nat → Option (Heap × Ref × Nat)
  | 0, _, _, _ => none
  | fuel + 1, heap, ref, attempt =>
      match heap[ref]? with
      | none => none
      | some (.dict fields) => do
          let out ← protectRefs (protectRef fuel) heap (fields.map (·.2)) attempt
          if out.2.1 = fields.map (·.2) then return (out.1, ref, out.2.2)
          else return (out.1 ++ [.dict ((fields.map (·.1)).zip out.2.1)], out.1.length, out.2.2)
      | some (.list items) => do
          let out ← protectRefs (protectRef fuel) heap items attempt
          if out.2.1 = items then return (out.1, ref, out.2.2)
          else return (out.1 ++ [.list out.2.1], out.1.length, out.2.2)
      | some (.scalar (.str text)) =>
          let protectedText := protectText externalize role text attempt
          if protectedText.1 = text then some (heap, ref, protectedText.2)
          else some (heap ++ [.scalar (.str protectedText.1)], heap.length, protectedText.2)
      | some (.scalar _) => some (heap, ref, attempt)

/-- `bool(value)` -/
def isTruthyRef (heap : Heap) (ref : Ref) : Bool :=
  match heap[ref]? with
  | some (.scalar v) => v.isTruthy
  | some (.list items) => !items.isEmpty
  | some (.dict fields) => !fields.isEmpty
  | none => false

def protectContentRef (fuel : Nat) (heap : Heap) (msg : List (String × Ref)) :
    Option (Heap × List (String × Ref) × Nat) :=
  match msg.lookup "content" with
  | none => some (heap, msg, 0)
  | some content =>
      match heap[content]? with
      | some (.scalar .null) => some (heap, msg, 0)
      | _ => do
          let out ← protectRef externalize role fuel heap content 0
          return (out.1, Heap.setItem msg "content" out.2.1, out.2.2)

def protectToolCallsRef (fuel : Nat) (heap : Heap) (msg : List (String × Ref)) (attempt : Nat) :
    Option (Heap × List (String × Ref)) :=
  match msg.lookup "tool_calls" with
  | none => some (heap, msg)
  | some calls =>
      if isTruthyRef heap calls then do
        let out ← protectRef externalize role fuel heap calls attempt
        return (out.1, Heap.setItem msg "tool_calls" out.2.1)
      else some (heap, msg)

/-- `protect_message_for_ingest`; `dict(message)` is an object that nothing else refers to. -/
def protectMessageRef (fuel : Nat) (heap : Heap) (message : Ref) : Option (Heap × Ref) :=
  match heap[message]? with
  | some (.dict msg) => do
      let content ← protectContentRef externalize role fuel heap msg
      let calls ← protectToolCallsRef externalize role fuel content.1 content.2.1 content.2.2
      return (calls.1 ++ [.dict calls.2], calls.1.length)
  | _ => some (heap, message)

end Guard

section Spec

variable {externalize : Nat → Option String} {role : String}

/-- The guard of the reference adds objects only and denotes the guarded value. -/
def ProtectsRef (externalize : Nat → Option String) (role : String)
    (protectRef : Heap → Ref → Nat → Option (Heap × Ref × Nat)) (v : Json) : Prop :=
  ∀ heap ref attempt, Denotes heap ref v → ∃ heap' ref',
    protectRef heap ref attempt =
        some (heap', ref', (protectValue externalize role v attempt).2) ∧
      heap <+: heap' ∧ Denotes heap' ref' (protectValue externalize role v attempt).1

theorem protectRefs_items {protectRef : Heap → Ref → Nat → Option (Heap × Ref × Nat)}
    {items : List Json} (hItems : ∀ v ∈ items, ProtectsRef externalize role protectRef v)
    {heap : Heap} {refs : List Ref} (attempt : Nat)
    (h : List.Forall₂ (Denotes heap) refs items) : ∃ heap' refs',
      protectRefs protectRef heap refs attempt =
          some (heap', refs', (protectItems externalize role items attempt).2) ∧
        heap <+: heap' ∧
        List.Forall₂ (Denotes heap') refs' (protectItems externalize role items attempt).1 := by
  induction items generalizing heap refs attempt with
  | nil =>
    cases h
    exact ⟨heap, [], rfl, List.prefix_refl heap, .nil⟩
  | cons v items ih =>
    cases h with
    | @cons ref _ refs _ hHead hTail =>
      obtain ⟨heap₁, ref', hRun, hGrow, hRef⟩ := hItems v List.mem_cons_self heap ref attempt hHead
      obtain ⟨heap₂, refs', hRest, hGrow', hRefs⟩ := ih
        (fun w hMem => hItems w (List.mem_cons_of_mem v hMem))
        (protectValue externalize role v attempt).2 (hTail.imp fun r w hDenotes =>
          hDenotes.grow hGrow)
      refine ⟨heap₂, ref' :: refs', ?_, hGrow.trans hGrow', .cons (hRef.grow hGrow') hRefs⟩
      simp only [protectRefs, hRun, Option.bind_eq_bind, Option.bind_some, hRest]
      rfl

theorem protectFields_eq (fields : List (String × Json)) (attempt : Nat) :
    (protectFields externalize role fields attempt).1 =
        (fields.map (·.1)).zip (protectItems externalize role (fields.map (·.2)) attempt).1 ∧
      (protectFields externalize role fields attempt).2 =
        (protectItems externalize role (fields.map (·.2)) attempt).2 := by
  induction fields generalizing attempt with
  | nil => exact ⟨rfl, rfl⟩
  | cons field fields ih =>
    obtain ⟨hFields, hAttempt⟩ := ih (protectValue externalize role field.2 attempt).2
    simp only [protectFields, List.map_cons, protectItems, List.zip_cons_cons, hFields, hAttempt]
    exact ⟨trivial, trivial⟩

theorem forall₂_zip_keys {heap : Heap} {refs : List Ref} {items : List Json} (keys : List String)
    (h : List.Forall₂ (Denotes heap) refs items) :
    List.Forall₂ (fun r field => r.1 = field.1 ∧ Denotes heap r.2 field.2) (keys.zip refs)
      (keys.zip items) := by
  induction h generalizing keys with
  | nil =>
    rw [List.zip_nil_right, List.zip_nil_right]
    exact .nil
  | cons hHead _ ih =>
    cases keys with
    | nil => exact .nil
    | cons key keys => exact .cons ⟨rfl, hHead⟩ (ih keys)

theorem exists_protectsRef_list (items : List Json)
    (h : ∀ v ∈ items, ∃ depth, ∀ fuel, depth ≤ fuel →
      ProtectsRef externalize role (protectRef externalize role fuel) v) :
    ∃ depth, ∀ fuel, depth ≤ fuel → ∀ v ∈ items,
      ProtectsRef externalize role (protectRef externalize role fuel) v := by
  induction items with
  | nil => exact ⟨0, fun _ _ v hMem => absurd hMem List.not_mem_nil⟩
  | cons v items ih =>
    obtain ⟨first, hFirst⟩ := h v List.mem_cons_self
    obtain ⟨rest, hRest⟩ := ih fun w hMem => h w (List.mem_cons_of_mem v hMem)
    refine ⟨max first rest, fun fuel hFuel w hMem => ?_⟩
    rcases List.mem_cons.mp hMem with rfl | hMem
    · exact hFirst fuel ((Nat.le_max_left first rest).trans hFuel)
    · exact hRest fuel ((Nat.le_max_right first rest).trans hFuel) w hMem

/-- With fuel for the depth of the value, the guard of a reference is the guard of its value. -/
theorem exists_protectsRef (v : Json) : ∃ depth, ∀ fuel, depth ≤ fuel →
    ProtectsRef externalize role (protectRef externalize role fuel) v := by
  induction v using Json.induct with
  | str text =>
    refine ⟨1, fun fuel hFuel heap ref attempt hDenotes => ?_⟩
    obtain ⟨fuel, rfl⟩ := Nat.exists_eq_add_of_le' hFuel
    have hGet : heap[ref]? = some (.scalar (.str text)) := hDenotes
    simp only [protectRef, hGet, protectValue]
    split
    · rename_i hSame
      rw [hSame]
      exact ⟨heap, ref, rfl, List.prefix_refl heap, hDenotes⟩
    · refine ⟨_, _, rfl, List.prefix_append heap _, ?_⟩
      exact show _ = _ from List.getElem?_concat_length
  | arr items ih =>
    obtain ⟨depth, hItems⟩ := exists_protectsRef_list items ih
    refine ⟨depth + 1, fun fuel hFuel heap ref attempt hDenotes => ?_⟩
    obtain ⟨fuel, rfl⟩ := Nat.exists_eq_add_of_le' (Nat.le_of_add_left_le hFuel)
    obtain ⟨refs, hGet, hRefs⟩ := hDenotes
    obtain ⟨heap', refs', hRun, hGrow, hRefs'⟩ := protectRefs_items
      (hItems fuel (by omega)) attempt (Heap.denotesItems_iff.mp hRefs)
    simp only [protectRef, hGet, hRun, Option.bind_eq_bind, Option.bind_some, protectValue]
    split
    · rename_i hSame
      refine ⟨heap', ref, rfl, hGrow, refs, Heap.getElem?_grow hGrow hGet, ?_⟩
      exact Heap.denotesItems_iff.mpr (hSame ▸ hRefs')
    · exact ⟨_, _, rfl, hGrow.trans (List.prefix_append heap' _), Denotes.alloc_list hRefs'⟩
  | obj fields ih =>
    obtain ⟨depth, hItems⟩ := @exists_protectsRef_list externalize role (fields.map (·.2))
      fun v hMem => by
        obtain ⟨field, hField, rfl⟩ := List.mem_map.mp hMem
        exact ih field hField
    refine ⟨depth + 1, fun fuel hFuel heap ref attempt hDenotes => ?_⟩
    obtain ⟨fuel, rfl⟩ := Nat.exists_eq_add_of_le' (Nat.le_of_add_left_le hFuel)
    obtain ⟨refs, hGet, hFields⟩ := hDenotes
    have hAll := Heap.denotesFields_iff.mp hFields
    have hValues : List.Forall₂ (Denotes heap) (refs.map (·.2)) (fields.map (·.2)) := by
      rw [List.forall₂_map_left_iff, List.forall₂_map_right_iff]
      exact hAll.imp fun r field hField => hField.2
    obtain ⟨heap', refs', hRun, hGrow, hRefs'⟩ := protectRefs_items
      (hItems fuel (by omega)) attempt hValues
    obtain ⟨hZip, hAttempt⟩ := @protectFields_eq externalize role fields attempt
    have hOut : List.Forall₂ (fun r field => r.1 = field.1 ∧ Denotes heap' r.2 field.2)
        ((refs.map (·.1)).zip refs') (protectFields externalize role fields attempt).1 := by
      rw [hZip, Heap.keys_eq hAll]
      exact forall₂_zip_keys _ hRefs'
    simp only [protectRef, hGet, hRun, Option.bind_eq_bind, Option.bind_some, protectValue, hAttempt]
    split
    · rename_i hSame
      rw [hSame, ← List.unzip_fst, ← List.unzip_snd, List.zip_unzip] at hOut
      exact ⟨heap', ref, rfl, hGrow, refs, Heap.getElem?_grow hGrow hGet,
        Heap.denotesFields_iff.mpr hOut⟩
    · exact ⟨_, _, rfl, hGrow.trans (List.prefix_append heap' _), Denotes.alloc_dict hOut⟩
  | _ =>
    refine ⟨1, fun fuel hFuel heap ref attempt hDenotes => ?_⟩
    obtain ⟨fuel, rfl⟩ := Nat.exists_eq_add_of_le' hFuel
    have hGet := id hDenotes
    unfold Denotes at hGet
    simp only [protectRef, hGet, protectValue]
    exact ⟨heap, ref, rfl, List.prefix_refl heap, hDenotes⟩

/-! ## The message -/

theorem isTruthyRef_eq {heap : Heap} {ref : Ref} {v : Json} (h : Denotes heap ref v) :
    isTruthyRef heap ref = v.isTruthy := by
  unfold isTruthyRef
  cases v with
  | arr items =>
    obtain ⟨refs, hGet, hItems⟩ := h
    simp only [hGet, Json.isTruthy]
    cases Heap.denotesItems_iff.mp hItems with
    | nil => rfl
    | cons _ _ => rfl
  | obj fields =>
    obtain ⟨refs, hGet, hFields⟩ := h
    simp only [hGet, Json.isTruthy]
    cases Heap.denotesFields_iff.mp hFields with
    | nil => rfl
    | cons _ _ => rfl
  | _ =>
    unfold Denotes at h
    simp only [h]

/-- The fields of the copy, as references and as values. -/
abbrev Copy (heap : Heap) (msg : List (String × Ref)) (message : Message) : Prop :=
  List.Forall₂ (fun r field => r.1 = field.1 ∧ Denotes heap r.2 field.2) msg message

theorem Copy.grow {heap heap' : Heap} {msg : List (String × Ref)} {message : Message}
    (h : Copy heap msg message) (hGrow : heap <+: heap') : Copy heap' msg message :=
  h.imp fun _ _ hField => ⟨hField.1, hField.2.grow hGrow⟩

theorem exists_protectContentRef (message : Message) : ∃ depth, ∀ fuel, depth ≤ fuel →
    ∀ heap msg, Copy heap msg message → ∃ heap' msg',
      protectContentRef externalize role fuel heap msg =
          some (heap', msg', (protectContent externalize role message).2) ∧
        heap <+: heap' ∧ Copy heap' msg' (protectContent externalize role message).1 := by
  cases hGet : get? message "content" with
  | none =>
    refine ⟨0, fun fuel _ heap msg hCopy => ⟨heap, msg, ?_⟩⟩
    have hLookup := Heap.lookup_eq_none hCopy "content" hGet
    simp only [protectContentRef, hLookup, protectContent, hGet]
    exact ⟨trivial, List.prefix_refl heap, hCopy⟩
  | some content =>
    obtain ⟨depth, hProtects⟩ := @exists_protectsRef externalize role content
    refine ⟨depth, fun fuel hFuel heap msg hCopy => ?_⟩
    obtain ⟨ref, hLookup, hDenotes⟩ := Heap.exists_lookup hCopy "content" hGet
    by_cases hNull : content = .null
    · subst hNull
      have hScalar : heap[ref]? = some (.scalar .null) := hDenotes
      refine ⟨heap, msg, ?_⟩
      simp only [protectContentRef, hLookup, hScalar, protectContent, hGet]
      exact ⟨trivial, List.prefix_refl heap, hCopy⟩
    · obtain ⟨heap', ref', hRun, hGrow, hRef⟩ := hProtects fuel hFuel heap ref 0 hDenotes
      have hScalar : heap[ref]? ≠ some (.scalar .null) := by
        intro hScalar
        cases content with
        | null => exact hNull rfl
        | arr items =>
          obtain ⟨refs, hList, -⟩ := hDenotes
          rw [hScalar] at hList
          cases hList
        | obj fields =>
          obtain ⟨refs, hDict, -⟩ := hDenotes
          rw [hScalar] at hDict
          cases hDict
        | _ =>
          unfold Denotes at hDenotes
          rw [hScalar] at hDenotes
          cases hDenotes
      have hField := Heap.forall₂_setItem (Copy.grow hCopy hGrow) "content" hRef
      refine ⟨heap', Heap.setItem msg "content" ref', ?_⟩
      rw [protectContent_of_ne_null externalize role hGet hNull]
      refine ⟨?_, hGrow, hField⟩
      unfold protectContentRef
      rw [hLookup]
      dsimp only
      split
      · rename_i hFound
        exact absurd hFound hScalar
      · simp only [hRun, Option.bind_eq_bind, Option.bind_some]
        rfl

theorem exists_protectToolCallsRef (message : Message) (attempt : Nat) : ∃ depth, ∀ fuel,
    depth ≤ fuel → ∀ heap msg, Copy heap msg message → ∃ heap' msg',
      protectToolCallsRef externalize role fuel heap msg attempt = some (heap', msg') ∧
        heap <+: heap' ∧ Copy heap' msg' (protectToolCalls externalize role message attempt) := by
  cases hGet : get? message "tool_calls" with
  | none =>
    refine ⟨0, fun fuel _ heap msg hCopy => ⟨heap, msg, ?_⟩⟩
    have hLookup := Heap.lookup_eq_none hCopy "tool_calls" hGet
    simp only [protectToolCallsRef, hLookup, protectToolCalls, hGet]
    exact ⟨trivial, List.prefix_refl heap, hCopy⟩
  | some calls =>
    obtain ⟨depth, hProtects⟩ := @exists_protectsRef externalize role calls
    refine ⟨depth, fun fuel hFuel heap msg hCopy => ?_⟩
    obtain ⟨ref, hLookup, hDenotes⟩ := Heap.exists_lookup hCopy "tool_calls" hGet
    simp only [protectToolCallsRef, hLookup, isTruthyRef_eq hDenotes, protectToolCalls, hGet]
    by_cases hTruthy : calls.isTruthy = true
    · obtain ⟨heap', ref', hRun, hGrow, hRef⟩ := hProtects fuel hFuel heap ref attempt hDenotes
      have hField := Heap.forall₂_setItem (Copy.grow hCopy hGrow) "tool_calls" hRef
      simp only [if_pos hTruthy, hRun, Option.bind_eq_bind, Option.bind_some]
      exact ⟨heap', _, rfl, hGrow, hField⟩
    · rw [if_neg hTruthy, if_neg hTruthy]
      exact ⟨heap, msg, rfl, List.prefix_refl heap, hCopy⟩

/-- The guard leaves the objects of the caller as they are and returns the guarded message. -/
theorem exists_protectMessageRef (message : Message) : ∃ depth, ∀ fuel, depth ≤ fuel →
    ∀ heap ref, Denotes heap ref (.obj message) → ∃ heap' ref',
      protectMessageRef externalize role fuel heap ref = some (heap', ref') ∧ heap <+: heap' ∧
        Denotes heap' ref' (.obj (protectWithRole externalize role message)) := by
  obtain ⟨first, hFirst⟩ := @exists_protectContentRef externalize role message
  obtain ⟨second, hSecond⟩ := @exists_protectToolCallsRef externalize role
    (protectContent externalize role message).1 (protectContent externalize role message).2
  refine ⟨max first second, fun fuel hFuel heap ref hDenotes => ?_⟩
  obtain ⟨msg, hGet, hFields⟩ := hDenotes
  obtain ⟨heap₁, msg₁, hContent, hGrow, hCopy⟩ :=
    hFirst fuel ((Nat.le_max_left first second).trans hFuel) heap msg
      (Heap.denotesFields_iff.mp hFields)
  obtain ⟨heap₂, msg₂, hCalls, hGrow', hCopy'⟩ :=
    hSecond fuel ((Nat.le_max_right first second).trans hFuel) heap₁ msg₁ hCopy
  refine ⟨heap₂ ++ [.dict msg₂], heap₂.length, ?_, ?_, Denotes.alloc_dict hCopy'⟩
  · simp only [protectMessageRef, hGet, hContent, Option.bind_eq_bind, Option.bind_some, hCalls]
    rfl
  · exact (hGrow.trans hGrow').trans (List.prefix_append heap₂ _)

end Spec
end LosslessHermes
