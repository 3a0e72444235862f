import LosslessHermes.Tools.LocalDayStart

/-!
# The calendar periods

The days, weeks and months that `parse_period_shortcut` gives begin and end where the iteration
ends for the midnight of a date: twelve hours beyond a boundary the clock shows the date that is
meant, whatever the offset did. The months are the exception. Their probe is noon in UTC of the
first, where a clock that is twelve hours ahead shows the second.
-/

namespace LosslessHermes.PeriodParser

open Clock Gregorian

structure CalendarPeriods where
  today : PeriodParseResult
  yesterday : PeriodParseResult
  thisWeek : PeriodParseResult
  lastWeek : PeriodParseResult
  thisMonth : PeriodParseResult
  lastMonth : PeriodParseResult

namespace CalendarPeriods

structure Parsed (zone : Zone) (nowMs : Int) (p : CalendarPeriods) : Prop where
  today : parsePeriodShortcut zone nowMs "today" = .ok p.today
  yesterday : parsePeriodShortcut zone nowMs "yesterday" = .ok p.yesterday
  thisWeek : parsePeriodShortcut zone nowMs "this-week" = .ok p.thisWeek
  lastWeek : parsePeriodShortcut zone nowMs "last-week" = .ok p.lastWeek
  thisMonth : parsePeriodShortcut zone nowMs "this-month" = .ok p.thisMonth
  lastMonth : parsePeriodShortcut zone nowMs "last-month" = .ok p.lastMonth

end CalendarPeriods

def PeriodParseResult.Contains (p : PeriodParseResult) (now : Int) : Prop :=
  p.since ≤ now ∧ now < p.before

/-- Seven days from the midnight of a Monday. -/
def PeriodParseResult.IsWeek (zone : Zone) (monday : Int) (p : PeriodParseResult) : Prop :=
  isoweekday monday = 1 ∧ zone.localTime p.since = monday * day ∧
    zone.localTime p.before = (monday + 7) * day

/-- From the midnight of the first of a month to that of the next one. -/
def PeriodParseResult.IsMonth (zone : Zone) (month : Int × Nat) (p : PeriodParseResult) : Prop :=
  zone.localTime p.since = datetime month.1 month.2 1 0 ∧
    zone.localTime p.before =
      datetime (nextMonth month.1 month.2).1 (nextMonth month.1 month.2).2 1 0

/-- The Monday of the week of a date. -/
def mondayOf (date : Int) : Int := date - (isoweekday date - 1)

/-- The month of a date. -/
def monthOfDate (date : Int) : Int × Nat := (yearOf date, monthOf date)

/-- The periods of an instant on the clock of the zone. -/
structure CalendarPeriods.Tile (zone : Zone) (now : Int) (p : CalendarPeriods) : Prop where
  today : p.today.Contains now
  thisWeek : p.thisWeek.Contains now
  thisMonth : p.thisMonth.Contains now
  days : p.yesterday.before = p.today.since
  weeks : p.lastWeek.before = p.thisWeek.since
  months : p.lastMonth.before = p.thisMonth.since
  isWeek : p.thisWeek.IsWeek zone (mondayOf (zone.localDate now))
  wasWeek : p.lastWeek.IsWeek zone (mondayOf (zone.localDate now) - 7)
  isMonth : p.thisMonth.IsMonth zone (monthOfDate (zone.localDate now))
  wasMonth : p.lastMonth.IsMonth zone
    (Gregorian.lastMonth (yearOf (zone.localDate now)) (monthOf (zone.localDate now)))

/-- The calendar periods of an instant lie around it and meet. -/
def PeriodsTile (zone : Zone) (nowMs : Int) : Prop :=
  ∃ p : CalendarPeriods, p.Parsed zone nowMs ∧ p.Tile zone (fromTimestamp nowMs)

/-! ## The offsets and the jumps at the boundaries -/

/-- The first of this month, of the last and of the next one. -/
def firsts (date : Int) : List (Int × Nat) :=
  [lastMonth (yearOf date) (monthOf date), monthOfDate date,
    nextMonth (yearOf date) (monthOf date)]

def mondays (date : Int) : List Int := [mondayOf date - 7, mondayOf date, mondayOf date + 7]

/-- At noon in UTC of the firsts the clock still shows the first. -/
def NoonsOnFirst (zone : Zone) (now : Int) : Prop :=
  ∀ month ∈ firsts (zone.localDate now),
    zone.offset (datetime month.1 month.2 1 12) < 12 * hour

/-- The jumps at the boundaries do not matter: none goes over the midnight of a Monday or of a
first, and those at the ends of the day are on the other side of the instant. -/
structure JumpsApart (zone : Zone) (now : Int) : Prop where
  mondays : ∀ monday ∈ mondays (zone.localDate now), ∀ change, ¬ zone.Skips change (monday * day)
  firsts : ∀ month ∈ firsts (zone.localDate now), ∀ change,
    ¬ zone.Skips change (datetime month.1 month.2 1 0)
  today : ∀ change,
    (zone.Skips change (midnightOf zone now) → midnightOf zone now < change ∧
      midnightOf zone now - zone.offset (change - 1) ≤ now) ∧
    (zone.Repeats change (midnightOf zone now) → change ≤ midnightOf zone now →
      midnightOf zone now - zone.offset change ≤ now)
  tomorrow : ∀ change,
    (zone.Skips change (midnightOf zone now + day) → change ≤ midnightOf zone now + day →
      now < midnightOf zone now + day - zone.offset change) ∧
    (zone.Repeats change (midnightOf zone now + day) → midnightOf zone now + day < change →
      now < midnightOf zone now + day - zone.offset (change - 1))

variable {zone : Zone}

/-! ## Around a midnight -/

variable {midnight : Int}

/-- Midnight is found if and only if the clock shows it. -/
theorem localTime_startAt_iff :
    zone.localTime (startAt zone midnight) = midnight ↔
      ∀ change, ¬ zone.Skips change midnight := by
  constructor
  · intro hTime change hSkips
    rcases startAt_of_skips hSkips with ⟨-, -, -, hLess⟩ | ⟨-, -, -, hLess⟩
    · exact absurd hTime hLess.ne'
    · exact absurd hTime hLess.ne
  · intro hSkips
    by_cases hRepeats : ∀ change, ¬ zone.Repeats change midnight
    · exact (startAt_regular fun change => ⟨hSkips change, hRepeats change⟩).1
    · rw [not_forall_not] at hRepeats
      obtain ⟨change, hRepeats⟩ := hRepeats
      exact (startAt_of_repeats hRepeats).1

variable {t : Int}

/-- An instant of the day is not before what is found. -/
theorem startAt_le_iff (h : midnight ≤ zone.localTime t) :
    startAt zone midnight ≤ t ↔ ∀ change,
      (zone.Skips change midnight → midnight < change →
        midnight - zone.offset (change - 1) ≤ t) ∧
      (zone.Repeats change midnight → change ≤ midnight → midnight - zone.offset change ≤ t) := by
  constructor
  · intro hLe change
    refine ⟨fun hSkips hLate => ?_, fun hRepeats hEarly => ?_⟩
    · rcases startAt_of_skips hSkips with ⟨-, hFound, -⟩ | ⟨hEarly, -⟩
      · exact hFound ▸ hLe
      · exact absurd hLate (not_lt.mpr hEarly)
    · obtain ⟨-, ⟨hLate, -⟩ | ⟨-, hFound, -⟩⟩ := startAt_of_repeats hRepeats
      · exact absurd hLate (not_lt.mpr hEarly)
      · exact hFound ▸ hLe
  · intro hJumps
    by_contra hBefore
    rw [not_le] at hBefore
    by_cases hRegular : ∀ change, ¬ zone.Skips change midnight ∧ ¬ zone.Repeats change midnight
    · exact absurd (((startAt_regular hRegular).2 t).mpr hBefore) (not_lt.mpr h)
    · simp only [not_forall, not_and_or, not_not] at hRegular
      obtain ⟨change, hSkips | hRepeats⟩ := hRegular
      · rcases startAt_of_skips hSkips with ⟨hLate, hFound, -⟩ | ⟨-, hFound, hLess, -⟩
        · exact absurd ((hJumps change).1 hSkips hLate) (by omega)
        · have hTime := (localTime_lt_iff_of_jump (.inl hSkips) t).not.mp (not_lt.mpr h)
          rw [if_pos (by omega)] at hTime
          have hUp := hSkips.1.trans_lt hSkips.2
          unfold Zone.clockBefore Zone.localTime at hUp
          omega
      · obtain ⟨-, ⟨-, hFound, hLess⟩ | ⟨hEarly, hFound, -⟩⟩ := startAt_of_repeats hRepeats
        · have hTime := (localTime_lt_iff_of_jump (.inr hRepeats) t).not.mp (not_lt.mpr h)
          rw [if_pos (by omega)] at hTime
          omega
        · exact absurd ((hJumps change).2 hRepeats hEarly) (by omega)

/-- An instant of an earlier day is before what is found. -/
theorem lt_startAt_iff (h : zone.localTime t < midnight) :
    t < startAt zone midnight ↔ ∀ change,
      (zone.Skips change midnight → change ≤ midnight → t < midnight - zone.offset change) ∧
      (zone.Repeats change midnight → midnight < change →
        t < midnight - zone.offset (change - 1)) := by
  constructor
  · intro hLess change
    refine ⟨fun hSkips hEarly => ?_, fun hRepeats hLate => ?_⟩
    · rcases startAt_of_skips hSkips with ⟨hLate, -⟩ | ⟨-, hFound, -⟩
      · exact absurd hLate (not_lt.mpr hEarly)
      · exact hFound ▸ hLess
    · obtain ⟨-, ⟨-, hFound, -⟩ | ⟨hEarly, -⟩⟩ := startAt_of_repeats hRepeats
      · exact hFound ▸ hLess
      · exact absurd hLate (not_lt.mpr hEarly)
  · intro hJumps
    by_cases hRegular : ∀ change, ¬ zone.Skips change midnight ∧ ¬ zone.Repeats change midnight
    · exact ((startAt_regular hRegular).2 t).mp h
    · simp only [not_forall, not_and_or, not_not] at hRegular
      obtain ⟨change, hSkips | hRepeats⟩ := hRegular
      · rcases startAt_of_skips hSkips with ⟨-, hFound, hAfter, -⟩ | ⟨hEarly, hFound, -⟩
        · have hTime := (localTime_lt_iff_of_jump (.inl hSkips) t).mp h
          have hReading := hSkips.2
          unfold Zone.localTime at hReading
          by_cases hOld : t < change
          · omega
          · rw [if_neg hOld] at hTime
            omega
        · exact hFound ▸ (hJumps change).1 hSkips hEarly
      · obtain ⟨-, ⟨hLate, hFound, -⟩ | ⟨-, hFound, hAfter⟩⟩ := startAt_of_repeats hRepeats
        · exact hFound ▸ (hJumps change).2 hRepeats hLate
        · have hTime := (localTime_lt_iff_of_jump (.inr hRepeats) t).mp h
          by_cases hOld : t < change
          · omega
          · rw [if_neg hOld] at hTime
            omega

/-- What is found for a midnight is not after the days that begin later. -/
theorem startAt_le_of_later (h : midnight + day ≤ zone.localTime t) :
    startAt zone midnight ≤ t := by
  by_contra hBefore
  have hNear := abs_le.mp (localTime_startAt_near zone midnight)
  have hBack := zone.localTime_le (not_le.mp hBefore).le
  simp only [hour, day] at *
  omega

theorem lt_startAt_of_earlier (h : zone.localTime t + day < midnight) :
    t < startAt zone midnight := by
  by_contra hAfter
  have hNear := abs_le.mp (localTime_startAt_near zone midnight)
  have hBack := zone.localTime_le (not_lt.mp hAfter)
  simp only [hour, day] at *
  omega

/-! ## The dates of the probes -/

theorem getLocalDayStartUtc_of_date {date : Int} (hFrom : date * day ≤ zone.localTime t)
    (hTo : zone.localTime t < (date + 1) * day) :
    getLocalDayStartUtc zone t = startAt zone (date * day) := by
  rw [getLocalDayStartUtc_eq, midnightOf, zone.localDate_eq_iff.mpr ⟨hFrom, hTo⟩]

/-- Twelve hours beyond a midnight some days off the clock shows the date of that midnight. -/
theorem getLocalDayStartUtc_probe (zone : Zone) (date : Int) {days : Int} (hFrom : -7 ≤ days)
    (hTo : days ≤ 7) :
    getLocalDayStartUtc zone (startAt zone (date * day) + (days * day + 12 * hour)) =
      startAt zone ((date + days) * day) := by
  have hNear := abs_le.mp (localTime_startAt_near zone (date * day))
  have hSpan : |days * day + 12 * hour| ≤ 2 * day * (4 : Nat) := by
    rw [abs_le]
    simp only [hour, day]
    omega
  have hClock := abs_le.mp (zone.localTime_add 4 (startAt zone (date * day)) hSpan)
  refine getLocalDayStartUtc_of_date ?_ ?_
  · simp only [hour, day] at *
    omega
  · simp only [hour, day] at *
    omega

theorem startAt_whole {midnight : Int} (h : midnight % minute = 0) :
    startAt zone midnight % minute = 0 := by
  have hWhole := zone.whole (midnight - zone.offset (midnight - zone.offset midnight))
  unfold startAt
  simp only [minute] at *
  omega

/-- A day that begins where the iteration ends is from 22 to 26 hours long. -/
theorem startAt_next (zone : Zone) (date : Int) :
    22 * hour ≤ startAt zone ((date + 1) * day) - startAt zone (date * day) ∧
      startAt zone ((date + 1) * day) - startAt zone (date * day) ≤ 26 * hour := by
  obtain ⟨t, hFrom, hTo, hStart⟩ := startAt_around zone (date * day)
  obtain ⟨u, hFromNext, hToNext, hNext⟩ := startAt_around zone ((date + 1) * day)
  have hDrift : |zone.offset u - zone.offset t| ≤ hour * (2 : Nat) := by
    rcases le_total t u with hLe | hLe
    · refine zone.offset_drift 2 hLe ?_
      simp only [hour, day] at *
      omega
    · rw [abs_sub_comm]
      refine zone.offset_drift 2 hLe ?_
      simp only [hour, day] at *
      omega
  rw [hStart, hNext]
  rw [abs_le] at hDrift
  simp only [hour, day] at *
  omega

theorem today_before (zone : Zone) (date : Int) :
    startAt zone (date * day) +
        milliseconds (getLocalDayDurationMs zone (startAt zone (date * day))) =
      startAt zone ((date + 1) * day) := by
  have hProbe := @getLocalDayStartUtc_probe zone date 1 (by decide) (by decide)
  have hSpan : (1 : Int) * day + 12 * hour = 36 * hour := by decide
  rw [hSpan] at hProbe
  obtain ⟨hFrom, hTo⟩ := startAt_next zone date
  have hWhole := @startAt_whole zone (date * day) (by simp only [day, minute]; omega)
  have hWholeNext := @startAt_whole zone ((date + 1) * day) (by simp only [day, minute]; omega)
  have hMs : (startAt zone ((date + 1) * day) - startAt zone (date * day)).tdiv 1000 =
      (startAt zone ((date + 1) * day) - startAt zone (date * day)) / 1000 := by
    refine Int.tdiv_eq_ediv_of_nonneg ?_
    simp only [hour] at hFrom
    omega
  unfold getLocalDayDurationMs
  rw [hProbe]
  dsimp only
  rw [hMs, if_neg]
  · unfold milliseconds
    simp only [minute] at *
    omega
  · simp only [hour, hourMs, minute] at *
    omega

/-- The noon of a first is on the first if the clock is less than twelve hours ahead. -/
theorem monthStart_eq (zone : Zone) (month : Int × Nat) :
    monthStart zone month = startAt zone ((ordinal month.1 month.2 1 +
      if zone.offset (datetime month.1 month.2 1 12) < 12 * hour then 0 else 1) * day) := by
  obtain ⟨noon, hNoon⟩ : ∃ noon, ordinal month.1 month.2 1 * day + 12 * hour = noon := ⟨_, rfl⟩
  have hLower := zone.lower noon
  have hUpper := zone.upper noon
  unfold monthStart datetime
  rw [hNoon]
  by_cases hFirst : zone.offset noon < 12 * hour
  · rw [if_pos hFirst]
    refine getLocalDayStartUtc_of_date ?_ ?_
    all_goals
      unfold Zone.localTime
      simp only [hour, day] at *
      omega
  · rw [if_neg hFirst]
    refine getLocalDayStartUtc_of_date ?_ ?_
    all_goals
      unfold Zone.localTime
      simp only [hour, day] at *
      omega

theorem datetime_midnight (month : Int × Nat) :
    datetime month.1 month.2 1 0 = ordinal month.1 month.2 1 * day := by
  unfold datetime
  rw [zero_mul, add_zero]

/-- A month starts at the midnight of its first if and only if the probe is on the first and the
clock shows that midnight. -/
theorem localTime_monthStart_iff (zone : Zone) (month : Int × Nat) :
    zone.localTime (monthStart zone month) = datetime month.1 month.2 1 0 ↔
      zone.offset (datetime month.1 month.2 1 12) < 12 * hour ∧
        ∀ change, ¬ zone.Skips change (datetime month.1 month.2 1 0) := by
  rw [monthStart_eq, datetime_midnight]
  by_cases hFirst : zone.offset (datetime month.1 month.2 1 12) < 12 * hour
  · rw [if_pos hFirst, add_zero, localTime_startAt_iff]
    exact (and_iff_right hFirst).symm
  · rw [if_neg hFirst]
    refine iff_of_false (fun hTime => ?_) fun h => hFirst h.1
    have hNear := abs_le.mp
      (localTime_startAt_near zone ((ordinal month.1 month.2 1 + 1) * day))
    simp only [hour, day] at *
    omega

/-! ## The periods -/

/-- The Monday that is computed from the weekday on the clock at the start of the day. -/
def probedMonday (zone : Zone) (date : Int) : Int :=
  date - (isoweekday (zone.localDate (startAt zone (date * day))) - 1)

theorem thisMonday_eq (zone : Zone) (date : Int) :
    thisMonday zone (startAt zone (date * day)) = startAt zone (probedMonday zone date * day) := by
  obtain ⟨dow, hDow⟩ : ∃ dow, isoweekday (zone.localDate (startAt zone (date * day))) = dow :=
    ⟨_, rfl⟩
  have hRange : 1 ≤ dow ∧ dow ≤ 7 := by
    rw [← hDow, isoweekday]
    omega
  have hProbe := @getLocalDayStartUtc_probe zone date (-(dow - 1)) (by omega) (by omega)
  have hSpan : startAt zone (date * day) - milliseconds ((dow - 1) * dayMs - halfDayMs) =
      startAt zone (date * day) + (-(dow - 1) * day + 12 * hour) := by
    simp only [milliseconds, dayMs, halfDayMs, hourMs, day, hour]
    omega
  unfold thisMonday computeIsoDow probedMonday
  rw [hDow]
  dsimp only
  rw [hSpan, hProbe]
  rfl

/-- What is parsed for an instant of a date. -/
def periodsOn (zone : Zone) (date : Int) : CalendarPeriods where
  today := ⟨startAt zone (date * day), startAt zone ((date + 1) * day), "today"⟩
  yesterday := ⟨getLocalDayStartUtc zone (startAt zone (date * day) - 12 * hour),
    startAt zone (date * day), "yesterday"⟩
  thisWeek := ⟨startAt zone (probedMonday zone date * day),
    startAt zone ((probedMonday zone date + 7) * day), "this-week"⟩
  lastWeek := ⟨startAt zone ((probedMonday zone date - 7) * day),
    startAt zone (probedMonday zone date * day), "last-week"⟩
  thisMonth := ⟨monthStart zone (monthOfDate date),
    monthStart zone (nextMonth (yearOf date) (monthOf date)), "this-month"⟩
  lastMonth := ⟨monthStart zone (lastMonth (yearOf date) (monthOf date)),
    monthStart zone (monthOfDate date), "last-month"⟩

theorem parsed_periodsOn (zone : Zone) (nowMs : Int) :
    (periodsOn zone (zone.localDate (fromTimestamp nowMs))).Parsed zone nowMs := by
  have hMidnight : getLocalDayStartUtc zone (fromTimestamp nowMs) =
      startAt zone (zone.localDate (fromTimestamp nowMs) * day) := getLocalDayStartUtc_eq _ _
  have hNext : milliseconds (7 * dayMs + halfDayMs) = 7 * day + 12 * hour := by decide
  have hLast : ∀ t, t - milliseconds (7 * dayMs - halfDayMs) = t + (-7 * day + 12 * hour) := by
    intro t
    simp only [milliseconds, dayMs, halfDayMs, hourMs, day, hour]
    omega
  constructor
  · simp only [parsePeriodShortcut, show Text.lower (Text.stripChars "today".toList) =
      "today".toList by decide, if_true, hMidnight, today_before, periodsOn]
  · simp only [parsePeriodShortcut, show Text.lower (Text.stripChars "yesterday".toList) =
      "yesterday".toList by decide, hMidnight, periodsOn]
    rfl
  · simp only [parsePeriodShortcut, show Text.lower (Text.stripChars "this-week".toList) =
      "this-week".toList by decide, hMidnight, thisMonday_eq, hNext,
      getLocalDayStartUtc_probe zone _ (show (-7 : Int) ≤ 7 by decide) (le_refl 7), periodsOn]
    rfl
  · simp only [parsePeriodShortcut, show Text.lower (Text.stripChars "last-week".toList) =
      "last-week".toList by decide, hMidnight, thisMonday_eq, hLast,
      getLocalDayStartUtc_probe zone _ (le_refl (-7)) (show (-7 : Int) ≤ 7 by decide), periodsOn]
    rfl
  · simp only [parsePeriodShortcut, show Text.lower (Text.stripChars "this-month".toList) =
      "this-month".toList by decide, periodsOn, monthOfDate]
    rfl
  · simp only [parsePeriodShortcut, show Text.lower (Text.stripChars "last-month".toList) =
      "last-month".toList by decide, periodsOn, monthOfDate]
    rfl

theorem periodsTile_iff_tile (zone : Zone) (nowMs : Int) : PeriodsTile zone nowMs ↔
    (periodsOn zone (zone.localDate (fromTimestamp nowMs))).Tile zone (fromTimestamp nowMs) := by
  have hParsed := parsed_periodsOn zone nowMs
  constructor
  · rintro ⟨p, hP, hTile⟩
    -- the parses are a function of the instant
    have hSame : p = periodsOn zone (zone.localDate (fromTimestamp nowMs)) := by
      obtain ⟨h1, h2, h3, h4, h5, h6⟩ := hP
      obtain ⟨k1, k2, k3, k4, k5, k6⟩ := hParsed
      cases p
      rw [k1] at h1
      rw [k2] at h2
      rw [k3] at h3
      rw [k4] at h4
      rw [k5] at h5
      rw [k6] at h6
      cases h1
      cases h2
      cases h3
      cases h4
      cases h5
      cases h6
      rfl
    exact hSame ▸ hTile
  · exact fun hTile => ⟨_, hParsed, hTile⟩

/-- The weekday is that of the date if the result is not on the day before. -/
theorem probedMonday_eq_iff (zone : Zone) (date : Int) :
    probedMonday zone date = mondayOf date ↔
      date * day ≤ zone.localTime (startAt zone (date * day)) := by
  have hNear := abs_le.mp (localTime_startAt_near zone (date * day))
  unfold probedMonday mondayOf isoweekday Zone.localDate
  simp only [hour, day] at *
  omega

/-- Dates around the day of an instant. -/
theorem contains_of_today {now since before : Int}
    (hToday : startAt zone (midnightOf zone now) ≤ now ∧
      now < startAt zone (midnightOf zone now + day))
    (hSince : since ≤ zone.localDate now) (hBefore : zone.localDate now < before) :
    startAt zone (since * day) ≤ now ∧ now < startAt zone (before * day) := by
  have hClock := midnightOf_le zone now
  unfold midnightOf at hToday hClock
  constructor
  · rcases hSince.eq_or_lt with rfl | hEarlier
    · exact hToday.1
    · refine startAt_le_of_later ?_
      simp only [day] at *
      omega
  · by_cases hNext : before = zone.localDate now + 1
    · rw [hNext, add_mul, one_mul]
      exact hToday.2
    · refine lt_startAt_of_earlier ?_
      simp only [day] at *
      omega

theorem isoweekday_mondayOf (date : Int) : isoweekday (mondayOf date) = 1 ∧
    mondayOf date ≤ date ∧ date < mondayOf date + 7 := by
  unfold mondayOf isoweekday
  omega

theorem le_localTime_startAt_iff :
    midnight ≤ zone.localTime (startAt zone midnight) ↔
      ∀ change, zone.Skips change midnight → midnight < change := by
  constructor
  · intro hLe change hSkips
    rcases startAt_of_skips hSkips with ⟨hLate, -⟩ | ⟨-, -, -, hLess⟩
    · exact hLate
    · exact absurd hLe (not_le.mpr hLess)
  · intro hLate
    by_cases hShown : ∀ change, ¬ zone.Skips change midnight
    · exact (localTime_startAt_iff.mpr hShown).ge
    · rw [not_forall_not] at hShown
      obtain ⟨change, hSkips⟩ := hShown
      rcases startAt_of_skips hSkips with ⟨-, -, -, hLess⟩ | ⟨hEarly, -⟩
      · exact hLess.le
      · exact absurd (hLate change hSkips) (not_lt.mpr hEarly)

/-- An instant is in its day if and only if the jumps at the ends of the day are apart from it. -/
theorem contains_today_iff (zone : Zone) (now : Int) :
    (startAt zone (midnightOf zone now) ≤ now ∧ now < startAt zone (midnightOf zone now + day)) ↔
      (∀ change, (zone.Skips change (midnightOf zone now) → midnightOf zone now < change →
          midnightOf zone now - zone.offset (change - 1) ≤ now) ∧
        (zone.Repeats change (midnightOf zone now) → change ≤ midnightOf zone now →
          midnightOf zone now - zone.offset change ≤ now)) ∧
      ∀ change, (zone.Skips change (midnightOf zone now + day) →
          change ≤ midnightOf zone now + day →
            now < midnightOf zone now + day - zone.offset change) ∧
        (zone.Repeats change (midnightOf zone now + day) → midnightOf zone now + day < change →
          now < midnightOf zone now + day - zone.offset (change - 1)) :=
  and_congr (startAt_le_iff (midnightOf_le zone now).1) (lt_startAt_iff (midnightOf_le zone now).2)

/-- The computed week is that of the date if its start is at the Monday's midnight. -/
theorem probedMonday_of_localTime {date monday : Int}
    (h : zone.localTime (startAt zone (probedMonday zone date * day)) = monday * day) :
    probedMonday zone date = monday := by
  have hNear := abs_le.mp (localTime_startAt_near zone (probedMonday zone date * day))
  rw [h] at hNear
  simp only [hour, day] at hNear
  omega

theorem tile_iff (zone : Zone) (now : Int) :
    (periodsOn zone (zone.localDate now)).Tile zone now ↔
      NoonsOnFirst zone now ∧ JumpsApart zone now := by
  have hNext : (zone.localDate now + 1) * day = midnightOf zone now + day := by
    rw [add_mul, one_mul]
    rfl
  obtain ⟨hMonday, hFrom, hTo⟩ := isoweekday_mondayOf (zone.localDate now)
  constructor
  · intro hTile
    obtain ⟨-, hSince, hBefore⟩ := hTile.isWeek
    obtain ⟨-, hLastSince, -⟩ := hTile.wasWeek
    have hSame := probedMonday_of_localTime hSince
    simp only [periodsOn, hSame] at hSince hBefore hLastSince
    have hLate := le_localTime_startAt_iff.mp ((probedMonday_eq_iff _ _).mp hSame)
    have hToday := hTile.today
    simp only [PeriodParseResult.Contains, periodsOn, hNext] at hToday
    obtain ⟨hStart, hEnd⟩ := (contains_today_iff zone now).mp hToday
    obtain ⟨hNoon, hFirst⟩ := (localTime_monthStart_iff zone _).mp hTile.isMonth.1
    obtain ⟨hNoonNext, hFirstNext⟩ := (localTime_monthStart_iff zone _).mp hTile.isMonth.2
    obtain ⟨hNoonLast, hFirstLast⟩ := (localTime_monthStart_iff zone _).mp hTile.wasMonth.1
    refine ⟨?_, ?_, ?_, fun change => ⟨fun hSkips => ?_, (hStart change).2⟩, hEnd⟩
    · simp only [NoonsOnFirst, firsts, List.forall_mem_cons]
      exact ⟨hNoonLast, hNoon, hNoonNext, fun _ h => nomatch h⟩
    · simp only [mondays, List.forall_mem_cons]
      exact ⟨localTime_startAt_iff.mp hLastSince, localTime_startAt_iff.mp hSince,
        localTime_startAt_iff.mp hBefore, fun _ h => nomatch h⟩
    · simp only [firsts, List.forall_mem_cons]
      exact ⟨hFirstLast, hFirst, hFirstNext, fun _ h => nomatch h⟩
    · exact ⟨hLate change hSkips, (hStart change).1 hSkips (hLate change hSkips)⟩
  · rintro ⟨hNoons, hMondays, hFirsts, hStart, hEnd⟩
    simp only [NoonsOnFirst, firsts, List.forall_mem_cons] at hNoons hFirsts
    simp only [mondays, List.forall_mem_cons] at hMondays
    obtain ⟨hNoonLast, hNoon, hNoonNext, -⟩ := hNoons
    obtain ⟨hFirstLast, hFirst, hFirstNext, -⟩ := hFirsts
    obtain ⟨hMondayLast, hMondayThis, hMondayNext, -⟩ := hMondays
    have hLate := le_localTime_startAt_iff.mpr fun change hSkips => ((hStart change).1 hSkips).1
    have hSame := (probedMonday_eq_iff zone (zone.localDate now)).mpr hLate
    have hToday := (contains_today_iff zone now).mpr
      ⟨fun change => ⟨fun hSkips _ => ((hStart change).1 hSkips).2, (hStart change).2⟩, hEnd⟩
    have hMonth := (localTime_monthStart_iff zone (monthOfDate (zone.localDate now))).mpr
      ⟨hNoon, hFirst⟩
    have hMonthNext := (localTime_monthStart_iff zone _).mpr ⟨hNoonNext, hFirstNext⟩
    have hMonthLast := (localTime_monthStart_iff zone _).mpr ⟨hNoonLast, hFirstLast⟩
    obtain ⟨hInMonth, hInMonthNext⟩ := month_contains (zone.localDate now)
    constructor
    · simp only [PeriodParseResult.Contains, periodsOn, hNext]
      exact hToday
    · simp only [PeriodParseResult.Contains, periodsOn, hSame]
      exact contains_of_today hToday hFrom hTo
    · simp only [PeriodParseResult.Contains, periodsOn, monthStart_eq]
      rw [if_pos hNoon, if_pos hNoonNext, add_zero, add_zero]
      exact contains_of_today hToday hInMonth hInMonthNext
    · rfl
    · rfl
    · rfl
    · simp only [PeriodParseResult.IsWeek, periodsOn, hSame]
      exact ⟨hMonday, localTime_startAt_iff.mpr hMondayThis, localTime_startAt_iff.mpr hMondayNext⟩
    · simp only [PeriodParseResult.IsWeek, periodsOn, hSame, sub_add_cancel]
      refine ⟨?_, localTime_startAt_iff.mpr hMondayLast, localTime_startAt_iff.mpr hMondayThis⟩
      unfold isoweekday at hMonday ⊢
      omega
    · exact ⟨hMonth, hMonthNext⟩
    · obtain ⟨hFirstMonth, hLastMonth, -⟩ := monthOf_spec (zone.localDate now)
      refine ⟨hMonthLast, ?_⟩
      rw [nextMonth_lastMonth hFirstMonth hLastMonth]
      exact hMonth

/-- The calendar periods tile if and only if the probes of the months are on their firsts and no
jump at a boundary is in the way. Without a jump at midnight none is. -/
theorem periodsTile_iff (zone : Zone) (nowMs : Int) :
    (PeriodsTile zone nowMs ↔
      NoonsOnFirst zone (fromTimestamp nowMs) ∧ JumpsApart zone (fromTimestamp nowMs)) ∧
    ((∀ change date, ¬ zone.Skips change (date * day) ∧ ¬ zone.Repeats change (date * day)) →
      JumpsApart zone (fromTimestamp nowMs)) := by
  refine ⟨(periodsTile_iff_tile zone nowMs).trans (tile_iff zone _), fun hQuiet => ?_⟩
  have hTomorrow : midnightOf zone (fromTimestamp nowMs) + day =
      (zone.localDate (fromTimestamp nowMs) + 1) * day := by
    rw [add_mul, one_mul]
    rfl
  refine ⟨fun monday _ change => (hQuiet change monday).1, fun month _ change => ?_,
    fun change => ?_, fun change => ?_⟩
  · rw [datetime_midnight]
    exact (hQuiet change _).1
  · exact ⟨fun h => absurd h (hQuiet change _).1, fun h => absurd h (hQuiet change _).2⟩
  · rw [hTomorrow]
    exact ⟨fun h => absurd h (hQuiet change _).1, fun h => absurd h (hQuiet change _).2⟩

/-! ## A clock that is twelve hours ahead -/

/-- Twelve hours ahead of UTC, all the year. -/
def twelveAhead : Zone := .fixed (12 * hour) (by decide) (by decide) (by decide)

/-- On 1 May 2026 the month of May has not begun: it starts on the second. -/
theorem not_periodsTile :
    parsePeriodShortcut twelveAhead 1777550400000 "this-month" =
        .ok ⟨datetime 2026 5 1 12, datetime 2026 6 1 12, "this-month"⟩ ∧
      twelveAhead.localTime (fromTimestamp 1777550400000) = datetime 2026 5 1 0 ∧
        twelveAhead.localTime (datetime 2026 5 1 12) = datetime 2026 5 2 0 ∧
          ¬ PeriodsTile twelveAhead 1777550400000 := by
  have hParse : parsePeriodShortcut twelveAhead 1777550400000 "this-month" =
      .ok ⟨datetime 2026 5 1 12, datetime 2026 6 1 12, "this-month"⟩ := by
    decide +kernel
  refine ⟨hParse, by decide +kernel, by decide +kernel, ?_⟩
  rintro ⟨p, hParsed, hTile⟩
  have hSame := hParsed.thisMonth
  rw [hParse] at hSame
  have hSince := hTile.thisMonth.1
  rw [← Except.ok.inj hSame] at hSince
  exact absurd hSince (by decide +kernel)

end LosslessHermes.PeriodParser
