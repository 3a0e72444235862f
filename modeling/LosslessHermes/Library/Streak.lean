import Mathlib.Data.List.TakeWhile

/-!
# Events in a row

A history lists events from the newest on. `InARow` says that the last `n` of them meet a
predicate, and `inARow_iff` reads it off the `streak`, which a counter with a reset computes.
-/

namespace LosslessHermes.Streak

universe u

variable {α : Type u} {p q : α → Bool} {past : List α} {n : Nat}

def InARow (n : Nat) (p : α → Bool) (past : List α) : Prop :=
  ∃ recent earlier, past = recent ++ earlier ∧ recent.length = n ∧ ∀ a ∈ recent, p a = true

/-- How many of the last events meet the predicate, up to the first that does not. -/
def streak (p : α → Bool) (past : List α) : Nat :=
  (past.takeWhile p).length

theorem streak_cons (a : α) : streak p (a :: past) = if p a then streak p past + 1 else 0 := by
  unfold streak
  rw [List.takeWhile_cons]
  split
  · rfl
  · rfl

theorem inARow_iff : InARow n p past ↔ n ≤ streak p past := by
  constructor
  · rintro ⟨recent, earlier, rfl, rfl, hAll⟩
    unfold streak
    rw [List.takeWhile_append_of_pos hAll, List.length_append]
    exact Nat.le_add_right _ _
  · intro hLe
    refine ⟨past.take n, past.drop n, (List.take_append_drop n past).symm, ?_, fun a ha => ?_⟩
    · exact List.length_take_of_le (Nat.le_trans hLe (List.takeWhile_prefix p).length_le)
    · have hSub : past.take n <+: past.takeWhile p :=
        List.prefix_of_prefix_length_le (List.take_prefix n past) (List.takeWhile_prefix p)
          (Nat.le_trans (List.length_take_le n past) hLe)
      exact List.mem_takeWhile_imp (hSub.subset ha)

instance decidableInARow : Decidable (InARow n p past) :=
  decidable_of_iff _ inARow_iff.symm

theorem streak_mono (h : ∀ a, p a = true → q a = true) : streak p past ≤ streak q past := by
  induction past with
  | nil => exact Nat.le_refl 0
  | cons a past ih =>
    rw [streak_cons, streak_cons]
    by_cases hp : p a = true
    · rw [if_pos hp, if_pos (h a hp)]
      exact Nat.succ_le_succ ih
    · rw [if_neg hp]
      exact Nat.zero_le _

/-- Leaving out events can only lengthen a streak that none of them belongs to. -/
theorem streak_le_filter (h : ∀ a, p a = true → q a = true) :
    streak p past ≤ streak p (past.filter q) := by
  induction past with
  | nil => exact Nat.le_refl 0
  | cons a past ih =>
    by_cases hp : p a = true
    · rw [List.filter_cons_of_pos (h a hp), streak_cons, streak_cons, if_pos hp, if_pos hp]
      exact Nat.succ_le_succ ih
    · rw [streak_cons, if_neg hp]
      exact Nat.zero_le _

end LosslessHermes.Streak
