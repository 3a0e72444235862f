import Mathlib.Data.List.Basic
import Mathlib.Data.List.Infix

/-!
# Replacement of a part of a list

`replaceAll` puts one list for each occurrence of another, from the left. `replaceAll_of_marked`
inverts an insertion: a part that carries a mark, which occurs nowhere else, is found where it
was inserted and nowhere else.
-/

namespace LosslessHermes.Substring

variable {α : Type} [DecidableEq α]

def replaceFrom (old new : List α) : Nat → List α → List α
  | 0, s => s
  | _ + 1, [] => []
  | fuel + 1, c :: rest =>
      if old.isPrefixOf (c :: rest) then
        new ++ replaceFrom old new fuel ((c :: rest).drop old.length)
      else c :: replaceFrom old new fuel rest

/-- `s.replace(old, new)`, where `old` is not empty. -/
def replaceAll (old new s : List α) : List α :=
  replaceFrom old new s.length s

variable {old new : List α}

theorem replaceFrom_of_absent {s : List α} (h : ¬ old <:+: s) (fuel : Nat) :
    replaceFrom old new fuel s = s := by
  induction fuel generalizing s with
  | zero => rfl
  | succ fuel ih =>
    cases s with
    | nil => rfl
    | cons c rest =>
      have hPrefix : ¬ old.isPrefixOf (c :: rest) = true := fun hPrefix =>
        h (List.isPrefixOf_iff_prefix.mp hPrefix).isInfix
      simp only [replaceFrom, if_neg hPrefix]
      rw [ih fun hRest => h (List.infix_cons hRest)]

theorem replaceAll_of_absent {s : List α} (h : ¬ old <:+: s) : replaceAll old new s = s :=
  replaceFrom_of_absent h s.length

omit [DecidableEq α] in
/-- An element that does not occur in a part separates where it may lie. -/
theorem infix_append_cons {part u v : List α} {c : α} (hc : c ∉ part) :
    part <:+: u ++ c :: v ↔ part <:+: u ∨ part <:+: v := by
  constructor
  · rintro ⟨before, after, hEq⟩
    rcases List.append_eq_append_iff.mp hEq with ⟨rest, hLeft, -⟩ | ⟨rest, hLeft, hRight⟩
    · exact Or.inl ⟨before, rest, hLeft.symm⟩
    · cases rest with
      | nil =>
        rw [List.append_nil] at hLeft
        exact Or.inl ⟨before, [], by rw [hLeft, List.append_nil]⟩
      | cons d rest =>
        rw [List.cons_append, List.cons.injEq] at hRight
        obtain ⟨rfl, hTail⟩ := hRight
        rcases List.append_eq_append_iff.mp hLeft with ⟨more, -, hPart⟩ | ⟨more, -, hMore⟩
        · exact absurd (hPart ▸ List.mem_append_right more List.mem_cons_self) hc
        · cases more with
          | nil =>
            rw [List.nil_append] at hMore
            exact absurd (hMore ▸ List.mem_cons_self) hc
          | cons e more =>
            rw [List.cons_append, List.cons.injEq] at hMore
            exact Or.inr ⟨more, after, by rw [hTail, hMore.2]⟩
  · rintro (h | h)
    · exact h.trans (List.prefix_append u (c :: v)).isInfix
    · exact h.trans ((List.suffix_cons c v).trans (List.suffix_append u (c :: v))).isInfix

/-- No occurrence begins before the one that was inserted, and none follows it. -/
theorem replaceFrom_append {u v : List α} (hNe : old ≠ [])
    (hBefore : ∀ tail, tail ≠ [] → tail <:+ u → ¬ old <+: tail ++ (old ++ v))
    (hAfter : ¬ old <:+: v) {fuel : Nat} (hFuel : u.length < fuel) :
    replaceFrom old new fuel (u ++ (old ++ v)) = u ++ (new ++ v) := by
  induction u generalizing fuel with
  | nil =>
    cases fuel with
    | zero => cases hFuel
    | succ fuel =>
      obtain ⟨c, rest, hOld⟩ := List.exists_cons_of_ne_nil hNe
      have hCons : old ++ v = c :: (rest ++ v) := by rw [hOld, List.cons_append]
      have hPrefix : old.isPrefixOf (c :: (rest ++ v)) = true := by
        rw [← hCons]
        exact List.isPrefixOf_iff_prefix.mpr (List.prefix_append old v)
      have hDrop : (c :: (rest ++ v)).drop old.length = v := by
        rw [← hCons, List.drop_left]
      rw [List.nil_append, hCons]
      simp only [replaceFrom, if_pos hPrefix, hDrop, List.nil_append]
      rw [replaceFrom_of_absent hAfter]
  | cons c u ih =>
    cases fuel with
    | zero => cases hFuel
    | succ fuel =>
      have hPrefix : ¬ old.isPrefixOf (c :: (u ++ (old ++ v))) = true := fun hPrefix =>
        hBefore (c :: u) (List.cons_ne_nil c u) (List.suffix_refl _)
          (List.isPrefixOf_iff_prefix.mp hPrefix)
      simp only [List.cons_append, replaceFrom, if_neg hPrefix]
      rw [ih (fun tail hTail hSuffix => hBefore tail hTail (hSuffix.trans (List.suffix_cons c u)))
        (Nat.lt_of_succ_lt_succ hFuel)]

omit [DecidableEq α] in
/-- The mark of a part does not begin in what stands before it, so no other occurrence of the
part does. -/
theorem not_prefix_of_marked {first f : α} {front mark rest tail v : List α}
    (hTail : tail ≠ []) (hFirst : first ∉ f :: mark) (hMark : f ∉ first :: front)
    (hFresh : ¬ (f :: mark) <:+: tail) :
    ¬ (first :: front ++ (f :: mark ++ rest)) <+:
      tail ++ ((first :: front ++ (f :: mark ++ rest)) ++ v) := by
  intro hPrefix
  -- what the occurrence has after its front, against the text from there on
  have hDrop : (f :: mark ++ rest) <+:
      (tail ++ ((first :: front ++ (f :: mark ++ rest)) ++ v)).drop (first :: front).length := by
    have hDropped := hPrefix.drop (first :: front).length
    rwa [List.drop_left] at hDropped
  by_cases hLong : (first :: front).length < tail.length
  · -- the mark begins in the tail: it lies there, or reaches the first element of the part
    rw [List.drop_append_of_le_length hLong.le] at hDrop
    have hMarkPrefix : (f :: mark) <+: tail.drop (first :: front).length ++
        ((first :: front ++ (f :: mark ++ rest)) ++ v) :=
      (List.prefix_append (f :: mark) rest).trans hDrop
    rcases List.prefix_or_prefix_of_prefix hMarkPrefix (List.prefix_append _ _) with
      hInside | hReaches
    · exact hFresh (hInside.isInfix.trans (List.drop_suffix _ _).isInfix)
    · obtain ⟨more, hMore⟩ := hReaches
      rw [← hMore, List.prefix_append_right_inj] at hMarkPrefix
      cases more with
      | nil =>
        rw [List.append_nil] at hMore
        exact hFresh (hMore ▸ (List.drop_suffix _ _).isInfix)
      | cons d more =>
        have hSame : d = first := (List.cons_prefix_cons.mp hMarkPrefix).1
        refine hFirst ?_
        rw [← hMore, hSame]
        exact List.mem_append_right _ List.mem_cons_self
  · -- the mark begins in the front of the inserted part
    have hShort : tail.length ≤ (first :: front).length := Nat.le_of_not_lt hLong
    have hEarly : (first :: front).length - tail.length < (first :: front).length :=
      Nat.sub_lt (Nat.succ_pos _) (List.length_pos_iff.mpr hTail)
    rw [List.drop_append, List.drop_eq_nil_of_le hShort, List.nil_append, List.append_assoc,
      List.drop_append_of_le_length hEarly.le] at hDrop
    obtain ⟨d, more, hMore⟩ := List.exists_cons_of_ne_nil
      (List.ne_nil_of_length_pos (by rw [List.length_drop]; omega :
        0 < ((first :: front).drop ((first :: front).length - tail.length)).length))
    rw [hMore] at hDrop
    have hSame : f = d := (List.cons_prefix_cons.mp hDrop).1
    have hMem : f ∈ (first :: front).drop ((first :: front).length - tail.length) := by
      rw [hMore, hSame]
      exact List.mem_cons_self
    exact hMark (List.mem_of_mem_drop hMem)

/-- A marked part is replaced where it was inserted. -/
theorem replaceAll_of_marked {first f : α} {front mark rest new u v : List α}
    (hFirst : first ∉ f :: mark) (hMark : f ∉ first :: front) (hBefore : ¬ (f :: mark) <:+: u)
    (hAfter : ¬ (f :: mark) <:+: v) :
    replaceAll (first :: front ++ (f :: mark ++ rest)) new
      (u ++ ((first :: front ++ (f :: mark ++ rest)) ++ v)) = u ++ (new ++ v) := by
  refine replaceFrom_append (List.cons_ne_nil _ _) (fun tail hTail hSuffix => ?_) ?_ ?_
  · exact not_prefix_of_marked hTail hFirst hMark fun hIn =>
      hBefore (hIn.trans hSuffix.isInfix)
  · intro hIn
    have hMarked : (f :: mark) <:+: first :: front ++ (f :: mark ++ rest) :=
      ((List.prefix_append (f :: mark) rest).isInfix).trans
        (List.suffix_append (first :: front) (f :: mark ++ rest)).isInfix
    exact hAfter (hMarked.trans hIn)
  · rw [List.length_append, List.length_append, List.length_append, List.length_cons]
    omega

end LosslessHermes.Substring
