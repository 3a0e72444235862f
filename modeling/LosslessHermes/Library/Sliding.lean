import Mathlib.Algebra.Order.Group.Int
import Mathlib.Data.List.Basic

/-!
# Caps on every window of time

`Capped` says that no interval of a given length has more events than a cap. For times listed from
the newest on, `capped_cons_iff` reduces it to what each event finds in the window that it closes.
-/

namespace LosslessHermes.Sliding

/-- How many events fall into an interval. -/
def between (times : List Int) (first last : Int) : Nat :=
  times.countP fun t => first ≤ t ∧ t ≤ last

def Capped (length cap : Int) (times : List Int) : Prop :=
  ∀ first last, last - first ≤ length → (between times first last : Int) ≤ cap

variable {length cap now : Int} {times : List Int}

theorem between_cons (first last : Int) : between (now :: times) first last =
    between times first last + if first ≤ now ∧ now ≤ last then 1 else 0 := by
  unfold between
  rw [List.countP_cons]
  simp only [decide_eq_true_eq]

/-- Where the new event is the newest, an interval that has it ends with it. -/
theorem between_le_of_newest (hNewest : ∀ t ∈ times, t ≤ now) {first last : Int}
    (hStart : now - length ≤ first) : between times first last ≤
      between times (now - length) now := by
  refine List.countP_mono_left fun t ht hIn => ?_
  rw [decide_eq_true_eq] at hIn ⊢
  exact ⟨le_trans hStart hIn.1, hNewest t ht⟩

/-- An event keeps the cap if and only if the window that it closes has room for it. -/
theorem capped_cons_iff (hLength : 0 ≤ length) (hNewest : ∀ t ∈ times, t ≤ now) :
    Capped length cap (now :: times) ↔
      Capped length cap times ∧ (between times (now - length) now : Int) < cap := by
  constructor
  · intro h
    refine ⟨fun first last hShort => ?_, ?_⟩
    · have hAll := h first last hShort
      rw [between_cons] at hAll
      omega
    · have hLast := h (now - length) now (by omega)
      rw [between_cons, if_pos ⟨by omega, le_refl now⟩] at hLast
      omega
  · rintro ⟨hOld, hRoom⟩ first last hShort
    rw [between_cons]
    split
    · rename_i hIn
      have hLe := @between_le_of_newest length now times hNewest first last (by omega)
      omega
    · exact hOld first last hShort

/-- Of decreasing times fewer than `n + 1` are late, if and only if the one `n` places back is
not. -/
theorem countP_lt_succ_iff (hSorted : times.Pairwise (· ≥ ·)) (start : Int) (n : Nat) :
    times.countP (start ≤ ·) < n + 1 ↔ ∀ t, times[n]? = some t → t < start := by
  induction times generalizing n with
  | nil => simp
  | cons t times ih =>
    obtain ⟨hNewest, hRest⟩ := List.pairwise_cons.mp hSorted
    by_cases hLate : start ≤ t
    · rw [List.countP_cons_of_pos (by simpa using hLate)]
      cases n with
      | zero =>
        refine iff_of_false (by omega) fun h => ?_
        exact absurd (h t rfl) (not_lt.mpr hLate)
      | succ n =>
        rw [List.getElem?_cons_succ, ← ih hRest n]
        omega
    · have hNone : times.countP (start ≤ ·) = 0 := by
        refine List.countP_eq_zero.mpr fun u hu => ?_
        have hOlder := hNewest u hu
        simp only [decide_eq_true_eq]
        omega
      rw [List.countP_cons_of_neg (by simpa using hLate), hNone]
      refine iff_of_true (Nat.succ_pos n) fun u hu => ?_
      cases n with
      | zero =>
        cases hu
        exact not_le.mp hLate
      | succ n =>
        have hOlder := hNewest u (List.mem_of_getElem? hu)
        omega

/-- The window that an event closes has room, if and only if the event `cap` places back is
out of it. -/
theorem between_lt_iff (hSorted : times.Pairwise (· ≥ ·)) (hNewest : ∀ t ∈ times, t ≤ now)
    (n : Nat) : between times (now - length) now < n + 1 ↔
      ∀ t, times[n]? = some t → length < now - t := by
  have hCount : between times (now - length) now = times.countP (now - length ≤ ·) := by
    refine List.countP_congr fun t ht => ?_
    simp only [decide_eq_true_eq]
    exact and_iff_left (hNewest t ht)
  rw [hCount, countP_lt_succ_iff hSorted]
  refine forall_congr' fun t => forall_congr' fun _ => ?_
  constructor <;> intro h <;> omega

end LosslessHermes.Sliding
