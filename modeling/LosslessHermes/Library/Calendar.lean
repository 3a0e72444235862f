import Mathlib.Data.List.Lex
import Mathlib.Data.Nat.Notation
import Mathlib.Tactic.Ring

/-!
# Dates and their texts

A date of the proleptic Gregorian calendar is written with numbers of a fixed width. So the
order of two texts that begin with a date is that of the days, and on the same day that of
what follows (`Date.text_append_lt_iff`).
-/

namespace LosslessHermes

/-! ## Numbers of a fixed width -/

/-- The last digits of a number, with zeros in front. -/
def fixedDigits : Nat → Nat → List Char
  | 0, _ => []
  | width + 1, n => fixedDigits width (n / 10) ++ [Nat.digitChar (n % 10)]

theorem digitChar_lt_iff : ∀ a b : Fin 10,
    (Nat.digitChar a.val < Nat.digitChar b.val ↔ a < b) ∧
      (Nat.digitChar a.val = Nat.digitChar b.val ↔ a = b) := by
  decide

theorem fixedDigits_append_lt_iff {width m n : Nat} (hm : m < 10 ^ width) (hn : n < 10 ^ width)
    (s t : List Char) :
    fixedDigits width m ++ s < fixedDigits width n ++ t ↔ m < n ∨ m = n ∧ s < t := by
  induction width generalizing m n s t with
  | zero =>
    obtain rfl : m = 0 := Nat.lt_one_iff.mp hm
    obtain rfl : n = 0 := Nat.lt_one_iff.mp hn
    exact ⟨fun h => Or.inr ⟨rfl, h⟩, fun h => (h.resolve_left (Nat.lt_irrefl 0)).2⟩
  | succ width ih =>
    rw [Nat.pow_succ] at hm hn
    have hDigit := digitChar_lt_iff ⟨m % 10, Nat.mod_lt m (by decide)⟩
      ⟨n % 10, Nat.mod_lt n (by decide)⟩
    simp only [Fin.lt_def, Fin.mk.injEq] at hDigit
    rw [fixedDigits, fixedDigits, List.append_assoc, List.append_assoc,
      ih (Nat.div_lt_of_lt_mul (by omega)) (Nat.div_lt_of_lt_mul (by omega)),
      List.singleton_append, List.singleton_append, List.cons_lt_cons_iff, hDigit.1, hDigit.2]
    by_cases hTail : s < t
    · simp only [hTail, and_true]
      omega
    · simp only [hTail, and_false, or_false]
      omega

/-! ## Days -/

def isLeap (year : Nat) : Prop := year % 4 = 0 ∧ (year % 100 ≠ 0 ∨ year % 400 = 0)

instance (year : Nat) : Decidable (isLeap year) := inferInstanceAs (Decidable (_ ∧ _))

def daysInMonth (year month : Nat) : Nat :=
  if month = 2 then if isLeap year then 29 else 28
  else if month = 4 ∨ month = 6 ∨ month = 9 ∨ month = 11 then 30 else 31

/-- The days of the first months of a year. -/
def daysOfMonths (year : Nat) : Nat → Nat
  | 0 => 0
  | months + 1 => daysOfMonths year months + daysInMonth year (months + 1)

def daysBeforeYear (year : Nat) : Nat :=
  (year - 1) * 365 + (year - 1) / 4 - (year - 1) / 100 + (year - 1) / 400

structure Date where
  year : Nat
  month : Nat
  day : Nat
  year_pos : 1 ≤ year
  year_le : year ≤ 9999
  month_pos : 1 ≤ month
  month_le : month ≤ 12
  day_pos : 1 ≤ day
  day_le : day ≤ daysInMonth year month
  deriving DecidableEq, Repr

namespace Date

/-- `date.toordinal`. -/
def ordinal (d : Date) : Nat :=
  daysBeforeYear d.year + daysOfMonths d.year (d.month - 1) + d.day

def text (d : Date) : List Char :=
  fixedDigits 4 d.year ++ '-' :: (fixedDigits 2 d.month ++ '-' :: fixedDigits 2 d.day)

end Date

theorem daysInMonth_le (year month : Nat) : daysInMonth year month ≤ 31 := by
  unfold daysInMonth
  split
  · split
    · decide
    · decide
  · split
    · decide
    · decide

theorem daysOfMonths_mono (year : Nat) {m n : Nat} (h : m ≤ n) :
    daysOfMonths year m ≤ daysOfMonths year n := by
  induction h with
  | refl => exact Nat.le_refl _
  | step _ ih => exact ih.trans (Nat.le_add_right _ _)

theorem daysOfMonths_twelve (year : Nat) :
    daysOfMonths year 12 = if isLeap year then 366 else 365 := by
  by_cases hLeap : isLeap year
  · simp [daysOfMonths, daysInMonth, hLeap]
  · simp [daysOfMonths, daysInMonth, hLeap]

theorem succ_div_eq (y b : Nat) :
    (y + 1) / b = y / b + if (y + 1) % b = 0 then 1 else 0 := by
  rw [Nat.succ_div]
  simp only [Nat.dvd_iff_mod_eq_zero]

theorem daysBeforeYear_succ {year : Nat} (h : 1 ≤ year) :
    daysBeforeYear (year + 1) = daysBeforeYear year + daysOfMonths year 12 := by
  obtain ⟨y, rfl⟩ := Nat.exists_eq_add_of_le' h
  have hLess : y / 100 ≤ y / 4 := Nat.div_le_div_left (by decide) (by decide)
  have hFourth : (y + 1) % 100 = 0 → (y + 1) % 4 = 0 := by omega
  have hCentury : (y + 1) % 400 = 0 → (y + 1) % 100 = 0 := by omega
  rw [daysOfMonths_twelve, daysBeforeYear, daysBeforeYear, Nat.add_sub_cancel, Nat.add_sub_cancel,
    succ_div_eq y 4, succ_div_eq y 100, succ_div_eq y 400]
  by_cases hLeap : isLeap (y + 1)
  · rw [if_pos hLeap, if_pos hLeap.1]
    rcases hLeap.2 with h100 | h400
    · rw [if_neg h100, if_neg (mt hCentury h100)]
      omega
    · rw [if_pos (hCentury h400), if_pos h400]
      omega
  · rw [if_neg hLeap]
    rw [isLeap, not_and_or, not_or, not_not] at hLeap
    rcases hLeap with h4 | ⟨h100, h400⟩
    · rw [if_neg h4, if_neg (mt hFourth h4), if_neg (mt hCentury (mt hFourth h4))]
      omega
    · rw [if_pos (hFourth h100), if_pos h100, if_neg h400]
      omega

theorem daysBeforeYear_mono {m n : Nat} (hm : 1 ≤ m) (h : m ≤ n) :
    daysBeforeYear m ≤ daysBeforeYear n := by
  induction h with
  | refl => exact Nat.le_refl _
  | step hLe ih =>
    rw [Nat.succ_eq_add_one, daysBeforeYear_succ (hm.trans hLe)]
    exact ih.trans (Nat.le_add_right _ _)

namespace Date

/-- The day is one of the days of its month, and the month one of its year. -/
theorem ordinal_le (d : Date) :
    d.ordinal ≤ daysBeforeYear d.year + daysOfMonths d.year d.month ∧
      daysBeforeYear d.year + daysOfMonths d.year d.month ≤ daysBeforeYear (d.year + 1) := by
  have hMonth : daysOfMonths d.year d.month =
      daysOfMonths d.year (d.month - 1) + daysInMonth d.year d.month := by
    obtain ⟨month, hMonth⟩ := Nat.exists_eq_add_of_le' d.month_pos
    rw [hMonth, Nat.add_sub_cancel, daysOfMonths]
  have hYear := daysOfMonths_mono d.year d.month_le
  have hDay := d.day_le
  rw [daysBeforeYear_succ d.year_pos, ordinal]
  omega

theorem ordinal_lt_of_year {a b : Date} (h : a.year < b.year) : a.ordinal < b.ordinal := by
  have hYears := daysBeforeYear_mono (Nat.le_add_left 1 a.year) h
  have hLe := a.ordinal_le
  have hPos := b.day_pos
  rw [ordinal.eq_def b]
  omega

theorem ordinal_lt_of_month {a b : Date} (hYear : a.year = b.year) (h : a.month < b.month) :
    a.ordinal < b.ordinal := by
  have hMonths := daysOfMonths_mono a.year (show a.month ≤ b.month - 1 by omega)
  have hLe := a.ordinal_le
  have hPos := b.day_pos
  rw [ordinal.eq_def b, ← hYear]
  omega

theorem ordinal_lt_of_day {a b : Date} (hYear : a.year = b.year) (hMonth : a.month = b.month)
    (h : a.day < b.day) : a.ordinal < b.ordinal := by
  rw [ordinal, ordinal, hYear, hMonth]
  exact Nat.add_lt_add_left h _

/-- The order of the days is that of year, month and day. -/
theorem ordinal_lt_iff {a b : Date} : a.ordinal < b.ordinal ↔
    a.year < b.year ∨ a.year = b.year ∧
      (a.month < b.month ∨ a.month = b.month ∧ a.day < b.day) := by
  constructor
  · intro h
    by_contra hNot
    rcases Nat.lt_trichotomy b.year a.year with hYear | hYear | hYear
    · exact Nat.lt_asymm h (ordinal_lt_of_year hYear)
    · rcases Nat.lt_trichotomy b.month a.month with hMonth | hMonth | hMonth
      · exact Nat.lt_asymm h (ordinal_lt_of_month hYear hMonth)
      · have hDay : b.day ≤ a.day := by omega
        rw [ordinal, ordinal, hYear, hMonth] at h
        omega
      · omega
    · omega
  · rintro (hYear | ⟨hYear, hMonth | ⟨hMonth, hDay⟩⟩)
    · exact ordinal_lt_of_year hYear
    · exact ordinal_lt_of_month hYear hMonth
    · exact ordinal_lt_of_day hYear hMonth hDay

theorem ordinal_eq_iff {a b : Date} : a.ordinal = b.ordinal ↔
    a.year = b.year ∧ a.month = b.month ∧ a.day = b.day := by
  constructor
  · intro h
    have hNotLt : ¬ a.ordinal < b.ordinal := Nat.not_lt.mpr h.ge
    have hNotGt : ¬ b.ordinal < a.ordinal := Nat.not_lt.mpr h.le
    rw [ordinal_lt_iff] at hNotLt hNotGt
    omega
  · rintro ⟨hYear, hMonth, hDay⟩
    rw [ordinal, ordinal, hYear, hMonth, hDay]

theorem text_append_lt_iff (a b : Date) (s t : List Char) :
    a.text ++ s < b.text ++ t ↔ a.ordinal < b.ordinal ∨ a.ordinal = b.ordinal ∧ s < t := by
  have hYear (d : Date) : d.year < 10 ^ 4 := d.year_le.trans_lt (by norm_num)
  have hMonth (d : Date) : d.month < 10 ^ 2 := d.month_le.trans_lt (by decide)
  have hDay (d : Date) : d.day < 10 ^ 2 :=
    (d.day_le.trans (daysInMonth_le _ _)).trans_lt (by decide)
  rw [text, text, List.append_assoc, List.append_assoc, List.cons_append, List.cons_append,
    List.append_assoc, List.append_assoc, List.cons_append, List.cons_append,
    fixedDigits_append_lt_iff (hYear a) (hYear b),
    List.cons_lt_cons_self,
    fixedDigits_append_lt_iff (hMonth a) (hMonth b),
    List.cons_lt_cons_self, fixedDigits_append_lt_iff (hDay a) (hDay b), ordinal_lt_iff,
    ordinal_eq_iff]
  by_cases hTail : s < t
  · simp only [hTail, and_true]
    omega
  · simp only [hTail, and_false, or_false]

end Date
end LosslessHermes
