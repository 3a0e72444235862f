import LosslessHermes.Tools.PeriodParser

/-!
# The start of the local day

The iteration takes midnight on the clock, and subtracts the offset it finds there, three times.
In the hours around a midnight the offset changes at most once, so this ends at midnight unless
the clock skips it; then it goes to and fro between two instants (`startAt_of_jump`).

`isDayStart_iff` says for which jumps of the clock the result is the first instant of the day.
-/

namespace LosslessHermes.PeriodParser

open Clock

variable {zone : Zone}

/-- The midnight that begins the local day, as a reading of the clock. -/
def midnightOf (zone : Zone) (t : Int) : Int := zone.localDate t * day

/-- The first instant of the local day of `t`. -/
structure IsDayStart (zone : Zone) (t start : Int) : Prop where
  notAfter : start ≤ t
  sameDate : zone.localDate start = zone.localDate t
  minuteEarlier : zone.localDate (start - minute) < zone.localDate t
  first : ∀ u < start, zone.localDate u < zone.localDate t

/-! ## The iteration -/

variable {midnight : Int}

/-- A round from a whole minute takes the offset that is found there. -/
theorem converge_succ {probe : Int} (hMidnight : midnight % minute = 0)
    (hProbe : probe % minute = 0) (rounds : Nat) :
    converge zone (midnight / 1000) (rounds + 1) probe =
      converge zone (midnight / 1000) rounds (midnight - zone.offset probe) := by
  have hWhole := zone.whole probe
  have hDelta : (zone.localTime probe - zone.localTime probe % minute) / 1000 - midnight / 1000 =
      (probe + zone.offset probe - midnight) / 1000 := by
    simp only [Zone.localTime, minute] at *
    omega
  have hBack : probe - milliseconds ((probe + zone.offset probe - midnight) / 1000) =
      midnight - zone.offset probe := by
    simp only [milliseconds, minute] at *
    omega
  rw [converge, hDelta, hBack]
  by_cases hStay : (probe + zone.offset probe - midnight) / 1000 = 0
  · -- the probe is where the round would go, and stays there
    rw [if_pos hStay]
    have hSame : midnight - zone.offset probe = probe := by
      simp only [minute] at *
      omega
    rw [hSame]
    cases rounds with
    | zero => rfl
    | succ rounds =>
      rw [converge, hDelta, if_pos hStay]
  · rw [if_neg hStay]

theorem converge_three (h : midnight % minute = 0) :
    converge zone (midnight / 1000) 3 midnight =
      midnight - zone.offset (midnight - zone.offset (midnight - zone.offset midnight)) := by
  have hWhole : ∀ t, (midnight - zone.offset t) % minute = 0 := by
    intro t
    have hOffset := zone.whole t
    simp only [minute] at *
    omega
  rw [converge_succ h h, converge_succ h (hWhole _), converge_succ h (hWhole _)]
  rfl

/-- The instant that is found for a midnight. -/
def startAt (zone : Zone) (midnight : Int) : Int :=
  midnight - zone.offset (midnight - zone.offset (midnight - zone.offset midnight))

theorem getLocalDayStartUtc_eq (zone : Zone) (t : Int) :
    getLocalDayStartUtc zone t = startAt zone (midnightOf zone t) := by
  refine converge_three ?_
  simp only [minute, day]
  omega

/-- The offsets around a midnight. -/
theorem exists_change_around (zone : Zone) (midnight : Int) : ∃ change before after,
    before - after ≤ hour ∧ after - before ≤ hour ∧
      ∀ u, midnight - 14 * hour ≤ u → u ≤ midnight + 14 * hour →
        zone.offset u = if u < change then before else after := by
  obtain ⟨change, before, after, hDown, hUp, hOffset⟩ :=
    zone.exists_change (midnight - 14 * hour)
  refine ⟨change, before, after, hDown, hUp, fun u hFrom hTo => hOffset u hFrom ?_⟩
  simp only [hour, day] at *
  omega

/-- What is found is off by the offset of an instant of these hours. -/
theorem startAt_around (zone : Zone) (midnight : Int) : ∃ t,
    midnight - 14 * hour ≤ t ∧ t ≤ midnight + 12 * hour ∧
      startAt zone midnight = midnight - zone.offset t := by
  refine ⟨_, ?_, ?_, rfl⟩
  · have hUpper := zone.upper (midnight - zone.offset midnight)
    omega
  · have hLower := zone.lower (midnight - zone.offset midnight)
    omega

variable {t : Int}

/-- The offsets around a midnight that the clock skips or repeats. -/
theorem offset_of_jump (h : zone.Skips t midnight ∨ zone.Repeats t midnight) :
    ∀ u, midnight - 14 * hour ≤ u → u ≤ midnight + 14 * hour →
      zone.offset u = if u < t then zone.offset (t - 1) else zone.offset t := by
  obtain ⟨change, before, after, -, -, hOffset⟩ := exists_change_around zone midnight
  have hHour : (0 : Int) < hour := by decide
  have hLower := zone.lower t
  have hUpper := zone.upper t
  have hLowerBefore := zone.lower (t - 1)
  have hUpperBefore := zone.upper (t - 1)
  simp only [Zone.Skips, Zone.Repeats, Zone.clockBefore, Zone.localTime] at h
  have hFrom : midnight - 14 * hour < t := by omega
  have hTo : t ≤ midnight + 12 * hour := by omega
  have hAt := hOffset t (by omega) (by omega)
  have hBefore := hOffset (t - 1) (by omega) (by omega)
  -- the offset changes at the jump
  have hDiffer : zone.offset (t - 1) ≠ zone.offset t := by omega
  have hChange : change = t := by
    rw [hAt, hBefore] at hDiffer
    by_cases hLess : t < change
    · rw [if_pos hLess, if_pos (by omega)] at hDiffer
      exact absurd rfl hDiffer
    · by_cases hOther : t - 1 < change
      · omega
      · rw [if_neg hLess, if_neg hOther] at hDiffer
        exact absurd rfl hDiffer
  rw [hChange, if_neg (lt_irrefl t)] at hAt
  rw [hChange, if_pos (by omega)] at hBefore
  rw [hAt, hBefore, ← hChange]
  exact hOffset

/-- A jump over a midnight, or back before it, decides what is found. -/
theorem startAt_of_jump (h : zone.Skips t midnight ∨ zone.Repeats t midnight) :
    startAt zone midnight =
      midnight - if midnight < t then zone.offset (t - 1) else zone.offset t := by
  have hOffset := offset_of_jump h
  have hHour : (0 : Int) < hour := by decide
  have hLower := zone.lower t
  have hUpper := zone.upper t
  have hLowerBefore := zone.lower (t - 1)
  have hUpperBefore := zone.upper (t - 1)
  simp only [Zone.Skips, Zone.Repeats, Zone.clockBefore, Zone.localTime] at h
  have hAt := hOffset midnight (by omega) (by omega)
  have hOne := hOffset (midnight - zone.offset (t - 1)) (by omega) (by omega)
  have hTwo := hOffset (midnight - zone.offset t) (by omega) (by omega)
  unfold startAt
  by_cases hBefore : midnight < t
  · rw [if_pos hBefore] at hAt ⊢
    rw [hAt, hOne]
    rcases h with hSkips | hRepeats
    · rw [if_neg (by omega), hTwo, if_pos (by omega)]
    · rw [if_pos (by omega), hOne, if_pos (by omega)]
  · rw [if_neg hBefore] at hAt ⊢
    rw [hAt, hTwo]
    rcases h with hSkips | hRepeats
    · rw [if_pos (by omega), hOne, if_neg (by omega)]
    · rw [if_neg (by omega), hTwo, if_neg (by omega)]

variable {u : Int}

/-- What the clock showed long before a midnight is before it. -/
theorem localTime_lt_of_far (h : u < midnight - 14 * hour) :
    zone.localTime u < midnight := by
  have hUpper := zone.upper u
  unfold Zone.localTime
  omega

theorem le_localTime_of_far (h : midnight + 14 * hour < u) :
    midnight ≤ zone.localTime u := by
  have hLower := zone.lower u
  have hHour : (0 : Int) < hour := by decide
  unfold Zone.localTime
  omega

/-- Where midnight comes is decided by what the clock shows around it. -/
theorem localTime_lt_iff_of_near {first : Int} (hEarly : midnight - 14 * hour ≤ first)
    (hLate : first ≤ midnight + 14 * hour)
    (hNear : ∀ u, midnight - 14 * hour ≤ u → u ≤ midnight + 14 * hour →
      (zone.localTime u < midnight ↔ u < first)) (u : Int) :
    zone.localTime u < midnight ↔ u < first := by
  by_cases hBefore : u < midnight - 14 * hour
  · exact iff_of_true (localTime_lt_of_far hBefore) (hBefore.trans_le hEarly)
  by_cases hAfter : midnight + 14 * hour < u
  · exact iff_of_false (not_lt.mpr (le_localTime_of_far hAfter)) (hLate.trans_lt hAfter).not_gt
  exact hNear u (not_lt.mp hBefore) (not_lt.mp hAfter)

theorem startAt_constant {offset : Int}
    (h : ∀ u, midnight - 14 * hour ≤ u → u ≤ midnight + 14 * hour → zone.offset u = offset) :
    zone.localTime (startAt zone midnight) = midnight ∧
      ∀ u, zone.localTime u < midnight ↔ u < startAt zone midnight := by
  have hHour : (0 : Int) < hour := by decide
  have hMidnight := h midnight (by omega) (by omega)
  have hLower := zone.lower midnight
  have hUpper := zone.upper midnight
  have hFound := h (midnight - offset) (by omega) (by omega)
  have hStart : startAt zone midnight = midnight - offset := by
    rw [startAt, hMidnight, hFound, hFound]
  rw [hStart]
  refine ⟨by rw [Zone.localTime, hFound, sub_add_cancel],
    localTime_lt_iff_of_near (by omega) (by omega) fun u hFrom hTo => ?_⟩
  rw [Zone.localTime, h u hFrom hTo]
  omega

/-- Without a jump midnight is found, between what the clock shows before and after it. -/
theorem startAt_regular (h : ∀ t, ¬ zone.Skips t midnight ∧ ¬ zone.Repeats t midnight) :
    zone.localTime (startAt zone midnight) = midnight ∧
      ∀ u, zone.localTime u < midnight ↔ u < startAt zone midnight := by
  obtain ⟨change, before, after, -, -, hOffset⟩ := exists_change_around zone midnight
  have hHour : (0 : Int) < hour := by decide
  by_cases hEarly : change ≤ midnight - 14 * hour
  · exact startAt_constant fun u hFrom hTo => (hOffset u hFrom hTo).trans (if_neg (by omega))
  by_cases hLate : midnight + 14 * hour < change
  · exact startAt_constant fun u hFrom hTo => (hOffset u hFrom hTo).trans (if_pos (by omega))
  -- the change is near, and both sides of midnight are on one side of its jump
  have hBefore := (hOffset (change - 1) (by omega) (by omega)).trans (if_pos (by omega))
  have hAfter := (hOffset change (by omega) (by omega)).trans (if_neg (lt_irrefl change))
  have hJump := h change
  simp only [Zone.Skips, Zone.Repeats, Zone.clockBefore, Zone.localTime, hBefore, hAfter] at hJump
  have hLower := zone.lower change
  have hUpper := zone.upper change
  have hLowerBefore := zone.lower (change - 1)
  have hUpperBefore := zone.upper (change - 1)
  rw [hAfter] at hLower hUpper
  rw [hBefore] at hLowerBefore hUpperBefore
  have hAt := hOffset midnight (by omega) (by omega)
  have hOne := hOffset (midnight - before) (by omega) (by omega)
  have hTwo := hOffset (midnight - after) (by omega) (by omega)
  by_cases hSide : midnight < change + before
  · have hStart : startAt zone midnight = midnight - before := by
      rw [if_pos (by omega)] at hOne
      unfold startAt
      by_cases hMidnight : midnight < change
      · rw [hAt, if_pos hMidnight, hOne, hOne]
      · rw [hAt, if_neg hMidnight, hTwo, if_pos (by omega), hOne]
    rw [hStart]
    refine ⟨by rw [Zone.localTime, hOne, if_pos (by omega), sub_add_cancel],
      localTime_lt_iff_of_near (by omega) (by omega) fun u hFrom hTo => ?_⟩
    rw [Zone.localTime, hOffset u hFrom hTo]
    by_cases hOld : u < change
    · rw [if_pos hOld]
      omega
    · rw [if_neg hOld]
      omega
  · have hStart : startAt zone midnight = midnight - after := by
      rw [if_neg (by omega)] at hTwo
      unfold startAt
      by_cases hMidnight : midnight < change
      · rw [hAt, if_pos hMidnight, hOne, if_neg (by omega), hTwo]
      · rw [hAt, if_neg hMidnight, hTwo, hTwo]
    rw [hStart]
    refine ⟨by rw [Zone.localTime, hTwo, if_neg (by omega), sub_add_cancel],
      localTime_lt_iff_of_near (by omega) (by omega) fun u hFrom hTo => ?_⟩
    rw [Zone.localTime, hOffset u hFrom hTo]
    by_cases hOld : u < change
    · rw [if_pos hOld]
      omega
    · rw [if_neg hOld]
      omega

/-! ## The first instant of the day -/

theorem midnightOf_le (zone : Zone) (t : Int) :
    midnightOf zone t ≤ zone.localTime t ∧ zone.localTime t < midnightOf zone t + day := by
  unfold midnightOf Zone.localDate
  simp only [day]
  omega

theorem localDate_lt_iff :
    zone.localDate u < zone.localDate t ↔ zone.localTime u < midnightOf zone t := by
  unfold midnightOf Zone.localDate
  simp only [day]
  omega

theorem localDate_eq_of_midnight (hFrom : midnightOf zone t ≤ zone.localTime u)
    (hTo : zone.localTime u < midnightOf zone t + day) :
    zone.localDate u = zone.localDate t := by
  unfold midnightOf Zone.localDate at *
  simp only [day] at *
  omega

theorem isDayStart_of_first {start : Int} (hFrom : midnightOf zone t ≤ zone.localTime start)
    (hTo : zone.localTime start < midnightOf zone t + day)
    (hFirst : ∀ u < start, zone.localTime u < midnightOf zone t) : IsDayStart zone t start where
  notAfter := by
    by_contra hAfter
    exact absurd (hFirst t (not_le.mp hAfter)) (not_lt.mpr (midnightOf_le zone t).1)
  sameDate := localDate_eq_of_midnight hFrom hTo
  minuteEarlier := localDate_lt_iff.mpr (hFirst _ (sub_lt_self start (by decide)))
  first := fun u hu => localDate_lt_iff.mpr (hFirst u hu)

/-- The instant with the reading of midnight in UTC is before each jump over midnight, which is
then a jump from midnight, and before each jump back before it. -/
def JumpsLate (zone : Zone) (midnight : Int) : Prop := ∀ change,
  (zone.Skips change midnight → midnight < change ∧ zone.clockBefore change = midnight) ∧
    (zone.Repeats change midnight → midnight < change)

variable {change : Int}

/-- A jump is within the hours around its midnight. -/
theorem jump_near (h : zone.Skips change midnight ∨ zone.Repeats change midnight) :
    midnight - 14 * hour < change ∧ change ≤ midnight + 12 * hour := by
  have hLower := zone.lower change
  have hUpper := zone.upper change
  have hLowerBefore := zone.lower (change - 1)
  have hUpperBefore := zone.upper (change - 1)
  simp only [Zone.Skips, Zone.Repeats, Zone.clockBefore, Zone.localTime] at h
  omega

/-- The instants at which the clock is before a midnight with a jump. -/
theorem localTime_lt_iff_of_jump
    (h : zone.Skips change midnight ∨ zone.Repeats change midnight) (u : Int) :
    zone.localTime u < midnight ↔
      u < midnight - if u < change then zone.offset (change - 1) else zone.offset change := by
  have hHour : (0 : Int) < hour := by decide
  have hNear := jump_near h
  by_cases hBefore : u < midnight - 14 * hour
  · have hUpper := zone.upper (change - 1)
    rw [if_pos (by omega)]
    exact iff_of_true (localTime_lt_of_far hBefore) (by omega)
  by_cases hAfter : midnight + 14 * hour < u
  · have hLower := zone.lower change
    rw [if_neg (by omega)]
    exact iff_of_false (not_lt.mpr (le_localTime_of_far hAfter)) (by omega)
  rw [Zone.localTime, offset_of_jump h u (by omega) (by omega)]
  omega

/-- Where the clock skips midnight, the result is on the other side of the jump than the instant
with that reading in UTC. -/
theorem startAt_of_skips (h : zone.Skips change midnight) :
    midnight < change ∧ startAt zone midnight = midnight - zone.offset (change - 1) ∧
        change ≤ startAt zone midnight ∧ midnight < zone.localTime (startAt zone midnight) ∨
      change ≤ midnight ∧ startAt zone midnight = midnight - zone.offset change ∧
        startAt zone midnight < change ∧ zone.localTime (startAt zone midnight) < midnight := by
  have hStart := startAt_of_jump (.inl h)
  have hTime := localTime_lt_iff_of_jump (.inl h) (startAt zone midnight)
  have hOffset := offset_of_jump (.inl h) (startAt zone midnight)
  have hLowerBefore := zone.lower (change - 1)
  have hUpperBefore := zone.upper (change - 1)
  have hHour : (0 : Int) < hour := by decide
  obtain ⟨hClock, hReading⟩ := h
  simp only [Zone.clockBefore, Zone.localTime] at hClock hReading
  by_cases hLate : midnight < change
  · rw [if_pos hLate] at hStart
    have hAfter : ¬ startAt zone midnight < change := by omega
    rw [if_neg hAfter] at hOffset
    have hFound := hOffset (by omega) (by omega)
    refine .inl ⟨hLate, hStart, not_lt.mp hAfter, ?_⟩
    rw [Zone.localTime, hFound]
    omega
  · rw [if_neg hLate] at hStart
    have hBefore : startAt zone midnight < change := by omega
    rw [if_pos hBefore] at hTime
    exact .inr ⟨not_lt.mp hLate, hStart, hBefore, hTime.mpr (by omega)⟩

/-- Where the clock repeats midnight, the result is that on the side of the jump on which the
instant with that reading in UTC is. -/
theorem startAt_of_repeats (h : zone.Repeats change midnight) :
    zone.localTime (startAt zone midnight) = midnight ∧
      (midnight < change ∧ startAt zone midnight = midnight - zone.offset (change - 1) ∧
          startAt zone midnight < change ∨
        change ≤ midnight ∧ startAt zone midnight = midnight - zone.offset change ∧
          change ≤ startAt zone midnight) := by
  have hStart := startAt_of_jump (.inr h)
  have hOffset := offset_of_jump (.inr h) (startAt zone midnight)
  have hLower := zone.lower change
  have hUpper := zone.upper change
  have hLowerBefore := zone.lower (change - 1)
  have hUpperBefore := zone.upper (change - 1)
  have hHour : (0 : Int) < hour := by decide
  obtain ⟨hClock, hReading⟩ := h
  simp only [Zone.clockBefore, Zone.localTime] at hClock hReading
  unfold Zone.localTime
  by_cases hLate : midnight < change
  · rw [if_pos hLate] at hStart
    have hBefore : startAt zone midnight < change := by omega
    rw [if_pos hBefore] at hOffset
    have hFound := hOffset (by omega) (by omega)
    exact ⟨by omega, .inl ⟨hLate, hStart, hBefore⟩⟩
  · rw [if_neg hLate] at hStart
    have hAfter : ¬ startAt zone midnight < change := by omega
    rw [if_neg hAfter] at hOffset
    have hFound := hOffset (by omega) (by omega)
    exact ⟨by omega, .inr ⟨not_lt.mp hLate, hStart, not_lt.mp hAfter⟩⟩

/-- At what is found the clock is within an hour of midnight. -/
theorem localTime_startAt_near (zone : Zone) (midnight : Int) :
    |zone.localTime (startAt zone midnight) - midnight| ≤ hour := by
  obtain ⟨t, hFrom, hTo, hStart⟩ := startAt_around zone midnight
  have hLower := zone.lower t
  have hUpper := zone.upper t
  have hDiff : zone.localTime (startAt zone midnight) - midnight =
      zone.offset (startAt zone midnight) - zone.offset t := by
    rw [hStart, Zone.localTime]
    omega
  have hFound : midnight - 14 * hour ≤ startAt zone midnight ∧
      startAt zone midnight ≤ midnight + 12 * hour := by omega
  have hDays : 26 * hour ≤ 2 * day := by decide
  rw [hDiff]
  rcases le_total t (startAt zone midnight) with hLe | hLe
  · exact zone.offset_near hLe (by omega)
  · rw [abs_sub_comm]
    exact zone.offset_near hLe (by omega)

/-- The first instant of each local day is found, in the zones and on the days whose jumps at
midnight are late, and only there. -/
theorem isDayStart_iff (zone : Zone) (t : Int) :
    IsDayStart zone t (getLocalDayStartUtc zone t) ↔ JumpsLate zone (midnightOf zone t) := by
  rw [getLocalDayStartUtc_eq]
  have hDay : hour < day := by decide
  have hNear := abs_le.mp (localTime_startAt_near zone (midnightOf zone t))
  constructor
  · intro hStart change
    refine ⟨fun hSkips => ?_, fun hRepeats => ?_⟩
    · rcases startAt_of_skips hSkips with ⟨hLate, hFound, hAfter, -⟩ | ⟨-, -, -, hTime⟩
      · refine ⟨hLate, ?_⟩
        -- the day begins at the jump, so the result is not later
        by_contra hNot
        have hBefore := hStart.first change (by
          have hClock := hSkips.1
          unfold Zone.clockBefore at hNot hClock
          omega)
        rw [localDate_lt_iff] at hBefore
        exact absurd hSkips.2 (not_lt.mpr hBefore.le)
      · -- the clock shows the day before
        exact absurd (localDate_lt_iff.mpr hTime) (not_lt.mpr hStart.sameDate.ge)
    · obtain ⟨-, ⟨hLate, -⟩ | ⟨-, hFound, hAfter⟩⟩ := startAt_of_repeats hRepeats
      · exact hLate
      · -- the midnight before the jump is earlier than the result
        obtain ⟨hClock, hReading⟩ := hRepeats
        simp only [Zone.clockBefore, Zone.localTime] at hClock hReading
        have hBefore := hStart.first (midnightOf zone t - zone.offset (change - 1)) (by omega)
        rw [localDate_lt_iff, localTime_lt_iff_of_jump (.inr ⟨hClock, hReading⟩),
          if_pos (by omega)] at hBefore
        exact absurd hBefore (lt_irrefl _)
  · intro hLate
    by_cases hRegular : ∀ change, ¬ zone.Skips change (midnightOf zone t) ∧
        ¬ zone.Repeats change (midnightOf zone t)
    · obtain ⟨hTime, hFirst⟩ := startAt_regular hRegular
      exact isDayStart_of_first hTime.ge (by omega) fun u hu => (hFirst u).mpr hu
    · simp only [not_forall, not_and_or, not_not] at hRegular
      obtain ⟨change, hSkips | hRepeats⟩ := hRegular
      · obtain ⟨hBefore, hClock⟩ := (hLate change).1 hSkips
        rcases startAt_of_skips hSkips with ⟨-, hFound, hAfter, hTime⟩ | ⟨hEarly, -⟩
        · unfold Zone.clockBefore at hClock
          refine isDayStart_of_first hTime.le (by omega) fun u hu => ?_
          rw [localTime_lt_iff_of_jump (.inl hSkips), if_pos (by omega)]
          omega
        · exact absurd hBefore (not_lt.mpr hEarly)
      · obtain ⟨hTime, ⟨-, hFound, hBefore⟩ | ⟨hEarly, -⟩⟩ := startAt_of_repeats hRepeats
        · refine isDayStart_of_first hTime.ge (by omega) fun u hu => ?_
          rw [localTime_lt_iff_of_jump (.inr hRepeats), if_pos (by omega)]
          omega
        · exact absurd ((hLate change).2 hRepeats) (not_lt.mpr hEarly)

/-- A zone two hours east of UTC that goes to summer time at midnight of 27 March 2022. -/
def summerFromMidnight : Zone :=
  .changing (2 * hour) (3 * hour) (datetime 2022 3 26 22) (by decide) (by decide) (by decide)
    (by decide)

/-- The start of that day is put to 23:00 of the day before. -/
theorem not_isDayStart :
    getLocalDayStartUtc summerFromMidnight (datetime 2022 3 27 10) = datetime 2022 3 26 21 ∧
      summerFromMidnight.localTime (datetime 2022 3 26 21) = datetime 2022 3 26 23 ∧
        ¬ IsDayStart summerFromMidnight (datetime 2022 3 27 10)
          (getLocalDayStartUtc summerFromMidnight (datetime 2022 3 27 10)) := by
  refine ⟨by decide +kernel, by decide +kernel, fun h => ?_⟩
  exact absurd h.sameDate (by decide +kernel)

end LosslessHermes.PeriodParser
