import Mathlib.Algebra.Order.Group.Abs
import Mathlib.Algebra.Order.Ring.Int
import Mathlib.Tactic.Basic

/-!
# Local time

Instants and clocks count microseconds. A zone is the offset of its clock from UTC: in whole
minutes, with changes of at most an hour, at most one in any two days. The clock of a zone jumps
where its offset changes. `Skips` and `Repeats` are what a jump does to a reading of the clock.
-/

namespace LosslessHermes

namespace Clock

def minute : Int := 60000000

def hour : Int := 3600000000

def day : Int := 86400000000

end Clock

open Clock

structure Zone where
  offset : Int → Int
  whole : ∀ t, offset t % minute = 0
  lower : ∀ t, -(12 * hour) ≤ offset t
  upper : ∀ t, offset t ≤ 14 * hour
  /-- In two days the offset changes at most once. -/
  changes : ∀ t, ∃ change, ∀ u, t ≤ u → u ≤ t + 2 * day →
    offset u = if u < change then offset t else offset (t + 2 * day)
  step : ∀ t, |offset (t + 2 * day) - offset t| ≤ hour

namespace Zone

/-- A zone whose offset never changes. -/
def fixed (offset : Int) (hWhole : offset % minute = 0) (hLower : -(12 * hour) ≤ offset)
    (hUpper : offset ≤ 14 * hour) : Zone where
  offset := fun _ => offset
  whole := fun _ => hWhole
  lower := fun _ => hLower
  upper := fun _ => hUpper
  changes := fun _ => ⟨0, fun u _ _ => by split <;> rfl⟩
  step := fun _ => by simp [hour]

/-- A zone whose offset changes once. -/
def changing (before after change : Int) (hWhole : before % minute = 0 ∧ after % minute = 0)
    (hLower : -(12 * hour) ≤ before ∧ -(12 * hour) ≤ after)
    (hUpper : before ≤ 14 * hour ∧ after ≤ 14 * hour) (hStep : |after - before| ≤ hour) : Zone where
  offset := fun t => if t < change then before else after
  whole := fun t => by split <;> [exact hWhole.1; exact hWhole.2]
  lower := fun t => by split <;> [exact hLower.1; exact hLower.2]
  upper := fun t => by split <;> [exact hUpper.1; exact hUpper.2]
  changes := fun t => by
    refine ⟨change, fun u hFrom hTo => ?_⟩
    by_cases hBefore : u < change
    · rw [if_pos hBefore, if_pos hBefore, if_pos (by omega)]
    · rw [if_neg hBefore, if_neg hBefore, if_neg (by omega)]
  step := fun t => by
    have hDay : (0 : Int) < day := by decide
    have hHour : (0 : Int) < hour := by decide
    rw [abs_le] at hStep ⊢
    by_cases hLater : t + 2 * day < change
    · rw [if_pos hLater, if_pos (by omega)]
      omega
    · by_cases hBefore : t < change
      · rw [if_neg hLater, if_pos hBefore]
        exact hStep
      · rw [if_neg hLater, if_neg hBefore]
        omega

variable (zone : Zone)

def localTime (t : Int) : Int := t + zone.offset t

/-- The number of the day on the clock. -/
def localDate (t : Int) : Int := zone.localTime t / day

/-- Where the clock arrives at an instant, before it changes there. -/
def clockBefore (t : Int) : Int := t + zone.offset (t - 1)

/-- The clock jumps over a reading. -/
def Skips (t reading : Int) : Prop :=
  zone.clockBefore t ≤ reading ∧ reading < zone.localTime t

/-- The clock is set back before a reading that it has shown. -/
def Repeats (t reading : Int) : Prop :=
  zone.localTime t ≤ reading ∧ reading < zone.clockBefore t

instance (t reading : Int) : Decidable (zone.Skips t reading) :=
  inferInstanceAs (Decidable (_ ∧ _))

instance (t reading : Int) : Decidable (zone.Repeats t reading) :=
  inferInstanceAs (Decidable (_ ∧ _))

/-- The two offsets of two days. -/
theorem exists_change (t : Int) : ∃ change before after,
    before - after ≤ hour ∧ after - before ≤ hour ∧ ∀ u, t ≤ u → u ≤ t + 2 * day →
      zone.offset u = if u < change then before else after := by
  obtain ⟨change, hChange⟩ := zone.changes t
  have hStep := abs_le.mp (zone.step t)
  exact ⟨change, zone.offset t, zone.offset (t + 2 * day), by omega, by omega, hChange⟩

theorem offset_near {t u : Int} (hFrom : t ≤ u) (hTo : u ≤ t + 2 * day) :
    |zone.offset u - zone.offset t| ≤ hour := by
  obtain ⟨change, before, after, hDown, hUp, hOffset⟩ := zone.exists_change t
  rw [hOffset u hFrom hTo, hOffset t (le_refl t) (hFrom.trans hTo), abs_le]
  simp only [hour] at *
  split <;> split <;> omega

/-- Each two days change the offset by at most an hour. -/
theorem offset_drift (n : Nat) {t u : Int} (hFrom : t ≤ u) (hTo : u ≤ t + 2 * day * n) :
    |zone.offset u - zone.offset t| ≤ hour * n := by
  induction n generalizing u with
  | zero =>
    obtain rfl : u = t := by
      simp only [Nat.cast_zero, mul_zero, add_zero] at hTo
      omega
    simp
  | succ n ih =>
    rw [Nat.cast_succ, mul_add, mul_one] at hTo ⊢
    by_cases hNear : u ≤ t + 2 * day * n
    · have hRest := ih hFrom hNear
      rw [abs_le] at hRest ⊢
      simp only [hour] at *
      omega
    · have hRest := ih (u := t + 2 * day * n) (by simp only [day]; omega) (le_refl _)
      have hLast := @offset_near zone (t + 2 * day * n) u (by omega) (by omega)
      rw [abs_le] at hRest hLast ⊢
      omega

/-- A clock is set back by at most an hour. -/
theorem localTime_le {t u : Int} (h : t ≤ u) : zone.localTime t ≤ zone.localTime u + hour := by
  unfold localTime
  by_cases hNear : u ≤ t + 2 * day
  · have hOffset := abs_le.mp (zone.offset_near h hNear)
    omega
  · have hLower := zone.lower u
    have hUpper := zone.upper t
    simp only [hour, day] at *
    omega

/-- The clock keeps time, up to an hour for each two days. -/
theorem localTime_add (n : Nat) (t : Int) {span : Int} (h : |span| ≤ 2 * day * n) :
    |zone.localTime (t + span) - (zone.localTime t + span)| ≤ hour * n := by
  have hDiff : zone.localTime (t + span) - (zone.localTime t + span) =
      zone.offset (t + span) - zone.offset t := by
    unfold localTime
    omega
  rw [hDiff]
  obtain ⟨hFrom, hTo⟩ := abs_le.mp h
  rcases le_total 0 span with hSpan | hSpan
  · exact zone.offset_drift n (by omega) (by omega)
  · rw [abs_sub_comm]
    exact zone.offset_drift n (by omega) (by omega)

theorem localDate_eq_iff {t date : Int} : zone.localDate t = date ↔
    date * day ≤ zone.localTime t ∧ zone.localTime t < (date + 1) * day := by
  unfold localDate
  simp only [day]
  omega

end Zone
end LosslessHermes
