import Mathlib.Data.List.Basic

/-!
# Terminated words

Words that are written one after the other, each followed by a mark that none of them has,
can be read back. The segments into which a mark cuts a text do not have it.
-/

namespace LosslessHermes

variable {α : Type}

def terminated (mark : α) (words : List (List α)) : List α :=
  words.flatMap fun word => word ++ [mark]

theorem terminated_cons (mark : α) (word : List α) (words : List (List α)) :
    terminated mark (word :: words) = word ++ mark :: terminated mark words := by
  simp [terminated]

/-- The first mark ends the first word. -/
theorem append_mark_inj {mark : α} {word word' rest rest' : List α} (h : mark ∉ word)
    (h' : mark ∉ word') (hEq : word ++ mark :: rest = word' ++ mark :: rest') :
    word = word' ∧ rest = rest' := by
  induction word generalizing word' with
  | nil =>
    cases word' with
    | nil => exact ⟨rfl, (List.cons.inj hEq).2⟩
    | cons c word' =>
      rw [(List.cons.inj hEq).1] at h'
      exact absurd List.mem_cons_self h'
  | cons c word ih =>
    cases word' with
    | nil =>
      rw [← (List.cons.inj hEq).1] at h
      exact absurd List.mem_cons_self h
    | cons d word' =>
      obtain ⟨rfl, hTail⟩ := List.cons.inj hEq
      obtain ⟨rfl, hRest⟩ :=
        ih (List.not_mem_of_not_mem_cons h) (List.not_mem_of_not_mem_cons h') hTail
      exact ⟨rfl, hRest⟩

theorem terminated_inj {mark : α} {words words' : List (List α)}
    (h : ∀ word ∈ words, mark ∉ word) (h' : ∀ word ∈ words', mark ∉ word)
    (hEq : terminated mark words = terminated mark words') : words = words' := by
  induction words generalizing words' with
  | nil =>
    cases words' with
    | nil => rfl
    | cons word words' =>
      rw [terminated_cons] at hEq
      exact absurd hEq.symm (by simp [terminated])
  | cons word words ih =>
    cases words' with
    | nil =>
      rw [terminated_cons] at hEq
      exact absurd hEq (by simp [terminated])
    | cons word' words' =>
      rw [terminated_cons, terminated_cons] at hEq
      obtain ⟨rfl, hRest⟩ := append_mark_inj (h word List.mem_cons_self)
        (h' word' List.mem_cons_self) hEq
      rw [ih (fun w hw => h w (List.mem_cons_of_mem _ hw))
        (fun w hw => h' w (List.mem_cons_of_mem _ hw)) hRest]

/-! ## Segments between marks -/

theorem splitOn_solid [BEq α] [LawfulBEq α] {mark : α} {text segment : List α}
    (h : segment ∈ text.splitOn mark) : mark ∉ segment := by
  induction text generalizing segment with
  | nil =>
    rw [List.mem_singleton.mp h]
    exact List.not_mem_nil
  | cons c text ih =>
    obtain ⟨first, rest, hText⟩ := List.exists_cons_of_ne_nil (List.splitOn_ne_nil mark text)
    rw [List.splitOn_cons_eq_if_modifyHead] at h
    rw [hText] at h ih
    split at h
    · rcases List.mem_cons.mp h with rfl | h
      · exact List.not_mem_nil
      · exact ih h
    · rename_i hc
      rcases List.mem_cons.mp h with rfl | h
      · rw [List.mem_cons, not_or]
        exact ⟨fun hEq => hc (beq_iff_eq.mpr hEq.symm), ih List.mem_cons_self⟩
      · exact ih (List.mem_cons_of_mem _ h)

theorem intercalate_mark (mark : α) (first : List α) (rest : List (List α)) :
    [mark].intercalate (first :: rest) = first ++ rest.flatMap (mark :: ·) := by
  induction rest generalizing first with
  | nil => rw [List.intercalate_singleton, List.flatMap_nil, List.append_nil]
  | cons next rest ih =>
    rw [List.intercalate_cons_cons, ih, List.flatMap_cons]
    simp

/-- A cut loses nothing but the marks. -/
theorem flatten_splitOnP (p : α → Bool) (text : List α) :
    (text.splitOnP p).flatten = text.filter fun c => !p c := by
  induction text with
  | nil => rfl
  | cons c text ih =>
    obtain ⟨first, rest, hText⟩ := List.exists_cons_of_ne_nil (List.splitOnP_ne_nil p text)
    rw [List.splitOnP_cons_eq_if_modifyHead, List.filter_cons, ← ih, hText]
    cases hc : p c with
    | true => simp
    | false => simp

end LosslessHermes
