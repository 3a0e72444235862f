import LosslessHermes.Library.Regex

/-!
# Cutting a text at marks that never overlap

A family of marks is a set of words for each index such that at most one mark begins at
a place and none begins inside another one or runs into it. The leftmost marks of one
index in a text (`Cuts`) are then all of them: what two texts have is found in their
concatenation, and when nothing is found besides, the cut of the concatenation is the
two cuts one after the other (`Cuts.append`).
-/

namespace LosslessHermes

open Regex (Piece)

structure Marks (ι : Type) where
  IsMark : ι → List Char → Prop
  ne_nil : ∀ {i w}, IsMark i w → w ≠ []
  unique : ∀ {i j w v s t}, IsMark i w → IsMark j v → w ++ s = v ++ t → i = j ∧ w = v
  apart : ∀ {i j x y v s t}, IsMark i (x ++ y) → x ≠ [] → y ≠ [] → IsMark j v → y ++ s ≠ v ++ t

variable {ι : Type} {marks : Marks ι} {i j : ι}

/-- The leftmost marks of one index and the characters between them. -/
inductive Cuts (marks : Marks ι) (i : ι) : List Char → List Piece → Prop
  | nil : Cuts marks i [] []
  | hit {w text : List Char} {pieces : List Piece} (hMark : marks.IsMark i w)
      (hRest : Cuts marks i text pieces) : Cuts marks i (w ++ text) (.hit w :: pieces)
  | text {c : Char} {text : List Char} {pieces : List Piece}
      (hNone : ∀ w s, marks.IsMark i w → c :: text ≠ w ++ s)
      (hRest : Cuts marks i text pieces) : Cuts marks i (c :: text) (.text c :: pieces)

def isHit : Piece → Bool
  | .hit _ => true
  | .text _ => false

def hitCount (pieces : List Piece) : Nat :=
  pieces.countP isHit

theorem hitCount_hit (w : List Char) (pieces : List Piece) :
    hitCount (.hit w :: pieces) = hitCount pieces + 1 :=
  List.countP_cons_of_pos rfl

theorem hitCount_text (c : Char) (pieces : List Piece) :
    hitCount (.text c :: pieces) = hitCount pieces :=
  List.countP_cons_of_neg Bool.false_ne_true

theorem hitCount_append (pieces pieces' : List Piece) :
    hitCount (pieces ++ pieces') = hitCount pieces + hitCount pieces' :=
  List.countP_append

theorem hitCount_map_text (s : List Char) : hitCount (s.map .text) = 0 := by
  induction s with
  | nil => rfl
  | cons c s ih => rw [List.map_cons, hitCount_text, ih]

namespace Cuts

variable {s : List Char} {pieces : List Piece}

/-- A text that begins with a mark is cut behind it. -/
theorem of_mark {w : List Char} (h : Cuts marks i (w ++ s) pieces)
    (hMark : marks.IsMark i w) : ∃ rest, pieces = .hit w :: rest ∧ Cuts marks i s rest := by
  generalize hText : w ++ s = text at h
  cases h with
  | nil => exact absurd (List.append_eq_nil_iff.mp hText).1 (marks.ne_nil hMark)
  | hit hOther hRest =>
    obtain ⟨-, rfl⟩ := marks.unique hMark hOther hText
    obtain rfl := List.append_cancel_left hText
    exact ⟨_, rfl, hRest⟩
  | text hNone hRest => exact absurd hText.symm (hNone w s hMark)

theorem of_none {c : Char}
    (h : Cuts marks i (c :: s) pieces) (hNone : ∀ w t, marks.IsMark i w → c :: s ≠ w ++ t) :
    ∃ rest, pieces = .text c :: rest ∧ Cuts marks i s rest := by
  generalize hText : c :: s = text at h
  cases h with
  | nil => cases hText
  | hit hMark hRest => exact absurd hText (hNone _ _ hMark)
  | text _ hRest =>
    obtain ⟨rfl, rfl⟩ := List.cons.inj hText
    exact ⟨_, rfl, hRest⟩

theorem unique {pieces' : List Piece} (h : Cuts marks i s pieces)
    (h' : Cuts marks i s pieces') : pieces = pieces' := by
  induction h generalizing pieces' with
  | nil =>
    generalize hText : ([] : List Char) = text at h'
    cases h' with
    | nil => rfl
    | hit hMark _ =>
      exact absurd (List.append_eq_nil_iff.mp hText.symm).1 (marks.ne_nil hMark)
    | text _ _ => cases hText
  | hit hMark _ ih =>
    obtain ⟨rest, rfl, hRest⟩ := h'.of_mark hMark
    rw [ih hRest]
  | text hNone _ ih =>
    obtain ⟨rest, rfl, hRest⟩ := h'.of_none hNone
    rw [ih hRest]

theorem exists_cuts (marks : Marks ι) (i : ι) (s : List Char) :
    ∃ pieces, Cuts marks i s pieces := by
  generalize hLength : s.length = n
  induction n using Nat.strongRecOn generalizing s with
  | ind n ih =>
    cases s with
    | nil => exact ⟨[], .nil⟩
    | cons c s =>
      by_cases hMark : ∃ w t, marks.IsMark i w ∧ c :: s = w ++ t
      · obtain ⟨w, t, hMark, hText⟩ := hMark
        have hNe := List.length_pos_iff.mpr (marks.ne_nil hMark)
        have hSum := congrArg List.length hText
        rw [List.length_append] at hSum
        obtain ⟨rest, hRest⟩ := ih t.length (by omega) t rfl
        rw [hText]
        exact ⟨_, .hit hMark hRest⟩
      · obtain ⟨rest, hRest⟩ := ih s.length (by rw [← hLength]; exact Nat.lt_succ_self _) s rfl
        exact ⟨_, .text (fun w t hw hText => hMark ⟨w, t, hw, hText⟩) hRest⟩

/-- Where no mark begins in a part, its characters are kept one by one. -/
theorem skip {part : List Char} (hNone : ∀ before rest, part = before ++ rest → rest ≠ [] →
      ∀ w t, marks.IsMark i w → rest ++ s ≠ w ++ t) (h : Cuts marks i s pieces) :
    Cuts marks i (part ++ s) (part.map .text ++ pieces) := by
  induction part with
  | nil => exact h
  | cons c part ih =>
    refine .text (hNone [] (c :: part) rfl (List.cons_ne_nil _ _)) (ih ?_)
    exact fun before rest hPart => hNone (c :: before) rest (by rw [hPart]; rfl)

/-- No mark begins inside a mark. -/
theorem skip_inside (before part after : List Char)
    (hMark : marks.IsMark j (before ++ part ++ after)) (hBefore : before ≠ [])
    (h : Cuts marks i s pieces) (hAfter : after = [] ∨ s = []) :
    Cuts marks i (part ++ s) (part.map .text ++ pieces) := by
  apply skip ?_ h
  rintro skipped rest rfl hRest w t hw hText
  have hInside : marks.IsMark j ((before ++ skipped) ++ (rest ++ after)) := by
    simpa [List.append_assoc] using hMark
  have hLeft : before ++ skipped ≠ [] := fun hNil => hBefore (List.append_eq_nil_iff.mp hNil).1
  have hRight : rest ++ after ≠ [] := fun hNil => hRest (List.append_eq_nil_iff.mp hNil).1
  rcases hAfter with rfl | rfl
  · refine marks.apart (s := s) (t := t) hInside hLeft hRight hw ?_
    rwa [List.append_nil]
  · refine marks.apart (s := []) (t := t ++ after) hInside hLeft hRight hw ?_
    rw [List.append_nil] at hText ⊢
    rw [hText, List.append_assoc]

/-- A mark of another index is kept. -/
theorem skip_other {w : List Char} (hMark : marks.IsMark j w)
    (hNe : j ≠ i) (h : Cuts marks i s pieces) :
    Cuts marks i (w ++ s) (w.map .text ++ pieces) := by
  apply skip ?_ h
  rintro before rest rfl hRest v t hv hText
  by_cases hBefore : before = []
  · subst hBefore
    exact hNe (marks.unique hMark hv hText).1
  · exact marks.apart hMark hBefore hRest hv hText

theorem eq_text_of_no_hit (h : Cuts marks i s pieces)
    (hNone : hitCount pieces = 0) : pieces = s.map .text := by
  induction h with
  | nil => rfl
  | hit _ _ _ =>
    rw [hitCount_hit] at hNone
    omega
  | text _ _ ih =>
    rw [hitCount_text] at hNone
    rw [ih hNone]
    rfl

/-- A concatenation has the marks of both parts, and if it has no other its cut is that of
one part behind that of the other. -/
theorem append {x y : List Char} {ps qs zs : List Piece} (hx : Cuts marks i x ps)
    (hy : Cuts marks i y qs) (h : Cuts marks i (x ++ y) zs) :
    hitCount ps + hitCount qs ≤ hitCount zs ∧
      (hitCount zs ≤ hitCount ps + hitCount qs → zs = ps ++ qs) := by
  induction hx generalizing zs with
  | nil =>
    rw [← hy.unique h]
    exact ⟨Nat.le_of_eq (Nat.zero_add _), fun _ => rfl⟩
  | @hit w x ps hMark hRest ih =>
    rw [List.append_assoc] at h
    obtain ⟨rest, rfl, hRest'⟩ := h.of_mark hMark
    obtain ⟨hLe, hEq⟩ := ih hRest'
    rw [hitCount_hit, hitCount_hit]
    refine ⟨by omega, fun hFew => ?_⟩
    rw [hEq (by omega)]
    rfl
  | @text c x ps hNone hRest ih =>
    by_cases hMark : ∃ w t, marks.IsMark i w ∧ c :: x ++ y = w ++ t
    · -- a mark that runs out of the first part: then the first part has none
      obtain ⟨w, t, hMark, hText⟩ := hMark
      rw [hText] at h
      obtain ⟨rest, rfl, hRest'⟩ := h.of_mark hMark
      rcases List.append_eq_append_iff.mp hText with ⟨z, rfl, rfl⟩ | ⟨z, hx, -⟩
      · have hOut : Cuts marks i (x ++ []) (x.map .text ++ []) :=
          skip_inside [c] x z (by simpa using hMark) (List.cons_ne_nil _ _) .nil (Or.inr rfl)
        rw [List.append_nil, List.append_nil] at hOut
        have hOver : Cuts marks i (z ++ t) (z.map .text ++ rest) :=
          skip_inside (c :: x) z [] (by simpa using hMark) (List.cons_ne_nil _ _) hRest'
            (Or.inl rfl)
        rw [hRest.unique hOut, hy.unique hOver, hitCount_text, hitCount_append,
          hitCount_map_text, hitCount_map_text, hitCount_hit]
        exact ⟨by omega, fun hFew => by omega⟩
      · exact absurd hx (hNone w z hMark)
    · obtain ⟨rest, rfl, hRest'⟩ :=
        h.of_none fun w t hw hText => hMark ⟨w, t, hw, hText⟩
      obtain ⟨hLe, hEq⟩ := ih hRest'
      rw [hitCount_text, hitCount_text]
      refine ⟨hLe, fun hFew => ?_⟩
      rw [hEq hFew]
      rfl

end Cuts

end LosslessHermes
