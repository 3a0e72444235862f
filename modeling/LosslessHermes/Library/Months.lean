import Mathlib.Algebra.Order.Ring.Int
import Mathlib.Tactic.Basic
import Mathlib.Tactic.Ring

/-!
# Months

The months of the proleptic Gregorian calendar, for all years. Days have numbers, of which 1 is
the first day of year 1, a Monday. `month_contains` says that a day is in its month, whose next
one begins where it ends.
-/

namespace LosslessHermes.Gregorian

def isLeap (year : Int) : Prop := year % 4 = 0 ∧ (year % 100 ≠ 0 ∨ year % 400 = 0)

instance (year : Int) : Decidable (isLeap year) := inferInstanceAs (Decidable (_ ∧ _))

def daysInMonth (year : Int) (month : Nat) : Int :=
  if month = 2 then if isLeap year then 29 else 28
  else if month = 4 ∨ month = 6 ∨ month = 9 ∨ month = 11 then 30 else 31

/-- The days of the first months of a year. -/
def daysOfMonths (year : Int) : Nat → Int
  | 0 => 0
  | months + 1 => daysOfMonths year months + daysInMonth year (months + 1)

def daysBeforeYear (year : Int) : Int :=
  (year - 1) * 365 + (year - 1) / 4 - (year - 1) / 100 + (year - 1) / 400

/-- `date.toordinal`. -/
def ordinal (year : Int) (month : Nat) (day : Int) : Int :=
  daysBeforeYear year + daysOfMonths year (month - 1) + day

/-- Cycles of 400, 100, 4 and 1 years; the last day of a long cycle has a year too many. -/
def yearOf (ordinal : Int) : Int :=
  let n := ordinal - 1
  let n400 := n / 146097
  let n100 := n % 146097 / 36524
  let n4 := n % 146097 % 36524 / 1461
  let n1 := n % 146097 % 36524 % 1461 / 365
  let year := 400 * n400 + 100 * n100 + 4 * n4 + n1
  if n1 = 4 ∨ n100 = 4 then year else year + 1

/-- The last of the first months that begins before the day. -/
def monthFrom (year day : Int) : Nat → Nat
  | 0 => 1
  | months + 1 => if daysOfMonths year months < day then months + 1 else monthFrom year day months

def monthOf (ordinal : Int) : Nat :=
  monthFrom (yearOf ordinal) (ordinal - daysBeforeYear (yearOf ordinal)) 12

def nextMonth (year : Int) (month : Nat) : Int × Nat :=
  if month = 12 then (year + 1, 1) else (year, month + 1)

def lastMonth (year : Int) (month : Nat) : Int × Nat :=
  if month = 1 then (year - 1, 12) else (year, month - 1)

/-- 1 for Monday up to 7 for Sunday. -/
def isoweekday (ordinal : Int) : Int := (ordinal + 6) % 7 + 1

theorem daysOfMonths_twelve (year : Int) :
    daysOfMonths year 12 = if isLeap year then 366 else 365 := by
  by_cases hLeap : isLeap year
  · simp [daysOfMonths, daysInMonth, hLeap]
  · simp [daysOfMonths, daysInMonth, hLeap]

theorem daysBeforeYear_succ (year : Int) :
    daysBeforeYear (year + 1) = daysBeforeYear year + daysOfMonths year 12 := by
  rw [daysOfMonths_twelve]
  by_cases hLeap : isLeap year
  · rw [if_pos hLeap]
    unfold isLeap at hLeap
    unfold daysBeforeYear
    omega
  · rw [if_neg hLeap]
    unfold isLeap at hLeap
    unfold daysBeforeYear
    omega

/-- The days before a year, by its cycles. -/
theorem daysBeforeYear_cycles {n400 n100 n4 n1 : Int} (h100 : 0 ≤ n100 ∧ n100 ≤ 3)
    (h4 : 0 ≤ n4 ∧ n4 ≤ 24) (h1 : 0 ≤ n1 ∧ n1 ≤ 3) :
    daysBeforeYear (400 * n400 + 100 * n100 + 4 * n4 + n1 + 1) =
      146097 * n400 + 36524 * n100 + 1461 * n4 + 365 * n1 := by
  unfold daysBeforeYear
  omega

theorem yearOf_spec (n : Int) :
    daysBeforeYear (yearOf n) < n ∧ n ≤ daysBeforeYear (yearOf n + 1) := by
  -- the digits of the day in the cycles, and what is left
  obtain ⟨n400, r400, hn400, hr400⟩ : ∃ q r, (n - 1) / 146097 = q ∧ (n - 1) % 146097 = r :=
    ⟨_, _, rfl, rfl⟩
  obtain ⟨n100, r100, hn100, hr100⟩ : ∃ q r, r400 / 36524 = q ∧ r400 % 36524 = r :=
    ⟨_, _, rfl, rfl⟩
  obtain ⟨n4, r4, hn4, hr4⟩ : ∃ q r, r100 / 1461 = q ∧ r100 % 1461 = r := ⟨_, _, rfl, rfl⟩
  obtain ⟨n1, hn1⟩ : ∃ q, r4 / 365 = q := ⟨_, rfl⟩
  have h100 : 0 ≤ n100 ∧ n100 ≤ 4 := by omega
  have h4 : 0 ≤ n4 ∧ n4 ≤ 24 := by omega
  have h1 : 0 ≤ n1 ∧ n1 ≤ 4 := by omega
  simp only [yearOf, hn400, hr400, hn100, hr100, hn4, hr4, hn1]
  rw [daysBeforeYear_succ, daysOfMonths_twelve]
  by_cases hLast : n1 = 4 ∨ n100 = 4
  · rw [if_pos hLast]
    rcases hLast with rfl | rfl
    · -- the last day of a leap year
      have hYear : 400 * n400 + 100 * n100 + 4 * n4 + 4 =
          400 * n400 + 100 * n100 + 4 * n4 + 3 + 1 := by ring
      have hBefore := @daysBeforeYear_cycles n400 n100 n4 3 (by omega) h4 (by omega)
      have hLeap : isLeap (400 * n400 + 100 * n100 + 4 * n4 + 3 + 1) := by
        unfold isLeap
        omega
      rw [hYear, if_pos hLeap, hBefore]
      omega
    · have hYear : 400 * n400 + 100 * 4 + 4 * n4 + n1 =
          400 * n400 + 100 * 3 + 4 * 24 + 3 + 1 := by omega
      have hBefore := @daysBeforeYear_cycles n400 3 24 3 (by omega) (by omega) (by omega)
      have hLeap : isLeap (400 * n400 + 100 * 3 + 4 * 24 + 3 + 1) := by
        unfold isLeap
        omega
      rw [hYear, if_pos hLeap, hBefore]
      omega
  · rw [if_neg hLast, daysBeforeYear_cycles (by omega) h4 (by omega)]
    have hLength : (365 : Int) ≤ if isLeap (400 * n400 + 100 * n100 + 4 * n4 + n1 + 1) then 366
        else 365 := by
      split
      · decide
      · exact le_refl _
    omega

/-- The month in which a day of the year falls. -/
theorem monthFrom_spec {year day : Int} (hPos : 0 < day) {months : Nat} (hMonths : 0 < months)
    (hDay : day ≤ daysOfMonths year months) :
    1 ≤ monthFrom year day months ∧ monthFrom year day months ≤ months ∧
      daysOfMonths year (monthFrom year day months - 1) < day ∧
        day ≤ daysOfMonths year (monthFrom year day months) := by
  induction months with
  | zero => exact absurd hMonths (Nat.lt_irrefl 0)
  | succ months ih =>
    by_cases hLast : daysOfMonths year months < day
    · rw [monthFrom, if_pos hLast]
      exact ⟨Nat.le_add_left 1 months, le_refl _, hLast, hDay⟩
    · have hSome : 0 < months := by
        rcases Nat.eq_zero_or_pos months with rfl | hSome
        · exact absurd hPos hLast
        · exact hSome
      obtain ⟨hFirst, hLe, hFrom, hTo⟩ := ih hSome (not_lt.mp hLast)
      rw [monthFrom, if_neg hLast]
      exact ⟨hFirst, hLe.trans (Nat.le_succ months), hFrom, hTo⟩

theorem monthOf_spec (n : Int) : 1 ≤ monthOf n ∧ monthOf n ≤ 12 ∧
    daysOfMonths (yearOf n) (monthOf n - 1) < n - daysBeforeYear (yearOf n) ∧
      n - daysBeforeYear (yearOf n) ≤ daysOfMonths (yearOf n) (monthOf n) := by
  obtain ⟨hFrom, hTo⟩ := yearOf_spec n
  rw [daysBeforeYear_succ] at hTo
  exact monthFrom_spec (by omega) (by decide) (by omega)

theorem ordinal_nextMonth (year : Int) (month : Nat) :
    ordinal (nextMonth year month).1 (nextMonth year month).2 1 =
      daysBeforeYear year + daysOfMonths year month + 1 := by
  unfold nextMonth
  split
  · rename_i hDecember
    rw [hDecember, ordinal, daysBeforeYear_succ]
    exact congrArg (· + 1) (add_zero _)
  · rfl

/-- A day is in its month. -/
theorem month_contains (n : Int) : ordinal (yearOf n) (monthOf n) 1 ≤ n ∧
    n < ordinal (nextMonth (yearOf n) (monthOf n)).1 (nextMonth (yearOf n) (monthOf n)).2 1 := by
  obtain ⟨-, -, hFrom, hTo⟩ := monthOf_spec n
  rw [ordinal_nextMonth, ordinal]
  omega

/-- The month after the last one. -/
theorem nextMonth_lastMonth {year : Int} {month : Nat} (hFirst : 1 ≤ month) (hLast : month ≤ 12) :
    nextMonth (lastMonth year month).1 (lastMonth year month).2 = (year, month) := by
  unfold lastMonth
  split
  · rename_i hJanuary
    rw [hJanuary, nextMonth, if_pos rfl, sub_add_cancel]
  · rw [nextMonth, if_neg (by omega)]
    exact Prod.ext rfl (by omega)

end LosslessHermes.Gregorian
