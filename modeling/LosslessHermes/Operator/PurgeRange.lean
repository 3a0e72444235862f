import LosslessHermes.Library.Calendar
import LosslessHermes.Operator.Ancestors

/-!
# The purge of a range

The bounds of a range purge are written by `isoformat`, and the column they are compared with
by `datetime('now')`. The two texts differ at the character after the date. So a bound stands
for the midnight in UTC that ends the day written in it, whatever its time and its zone are.
-/

namespace LosslessHermes

def dayMicroseconds : Nat := 86400000000

structure Datetime where
  date : Date
  hour : Nat
  minute : Nat
  second : Nat
  microsecond : Nat
  hour_lt : hour < 24
  minute_lt : minute < 60
  second_lt : second < 60
  microsecond_lt : microsecond < 1000000
  deriving DecidableEq, Repr

namespace Datetime

def timeOfDay (d : Datetime) : Nat :=
  ((d.hour * 60 + d.minute) * 60 + d.second) * 1000000 + d.microsecond

/-- The microseconds of the days and of the time, in UTC. -/
def instant (d : Datetime) : Int :=
  ((d.date.ordinal * dayMicroseconds + d.timeOfDay : Nat) : Int)

def timeText (d : Datetime) : List Char :=
  fixedDigits 2 d.hour ++ ':' :: (fixedDigits 2 d.minute ++ ':' :: fixedDigits 2 d.second)

/-- `datetime('now')`, without the fraction of the second. -/
def sqliteText (d : Datetime) : String :=
  String.ofList (d.date.text ++ ' ' :: d.timeText)

end Datetime

/-- A date and time with the offset of its zone, in microseconds. -/
structure AwareDatetime extends Datetime where
  utcoffset : Int
  utcoffset_lt : utcoffset.natAbs < dayMicroseconds
  deriving DecidableEq, Repr

namespace AwareDatetime

def instant (d : AwareDatetime) : Int :=
  d.toDatetime.instant - d.utcoffset

def fractionText (microsecond : Nat) : List Char :=
  if microsecond = 0 then [] else '.' :: fixedDigits 6 microsecond

def offsetText (utcoffset : Int) : List Char :=
  let offset := utcoffset.natAbs
  let rest := offset % 60000000
  (if utcoffset < 0 then '-' else '+') ::
    (fixedDigits 2 (offset / 3600000000) ++ ':' :: fixedDigits 2 (offset / 60000000 % 60) ++
      if rest = 0 then []
      else ':' :: (fixedDigits 2 (rest / 1000000) ++ fractionText (rest % 1000000)))

/-- `_iso` -/
def isoformat (d : AwareDatetime) : String :=
  String.ofList (d.date.text ++
    'T' :: (d.timeText ++ fractionText d.microsecond ++ offsetText d.utcoffset))

/-- The midnight in UTC that ends the day written in the text. -/
def midnightAfter (d : AwareDatetime) : Int :=
  (((d.date.ordinal + 1) * dayMicroseconds : Nat) : Int)

end AwareDatetime

namespace OperatorDb

/-- The column `created_at` of summaries that were inserted at the given times. -/
def createdAs (db : OperatorDb) (created : SummaryId → Datetime) : OperatorDb :=
  { db with createdAtText := fun s => (created s).sqliteText }

def rangeCriteria (sessionKey : Option String) (since before : Option AwareDatetime)
    (minTokenCount : Option Int) : PurgeCriteria :=
  ⟨none, sessionKey, since.map (·.isoformat), before.map (·.isoformat), minTokenCount⟩

/-- A leaf in use that the criteria other than the range let through. -/
def IsCandidate (db : OperatorDb) (sessionKey : Option String) (minTokenCount : Option Int)
    (id : SummaryId) : Prop :=
  ∃ row ∈ db.summaries, row.summaryId = id ∧ row.kind = .leaf ∧ row.suppressedAt = none ∧
    (∀ key ∈ sessionKey, key ≠ "" → db.sessionKey id = key) ∧
    ∀ count ∈ minTokenCount, count ≤ (row.tokenCount : Int)

/-- The instant is in the interval, of which either end may be open. -/
def Within (since before : Option Int) (t : Int) : Prop :=
  (∀ a ∈ since, a ≤ t) ∧ ∀ b ∈ before, t < b

/-- The purge selects the leaves that were created in the interval. -/
def SelectsInterval (db : OperatorDb) (created : SummaryId → Datetime) (sessionKey : Option String)
    (since before : Option AwareDatetime) (minTokenCount : Option Int) : Prop :=
  ∀ id, id ∈ (db.createdAs created).resolveTargetLeafIds
      (rangeCriteria sessionKey since before minTokenCount) ↔
    db.IsCandidate sessionKey minTokenCount id ∧
      Within (since.map (·.instant)) (before.map (·.instant)) (created id).instant

/-! ## The order of the texts -/

theorem timeOfDay_lt (d : Datetime) : d.timeOfDay < dayMicroseconds := by
  have hHour := d.hour_lt
  have hMinute := d.minute_lt
  have hSecond := d.second_lt
  have hMicrosecond := d.microsecond_lt
  unfold Datetime.timeOfDay dayMicroseconds
  omega

/-- A creation time is written below every bound of its day. -/
theorem sqliteText_lt_isoformat_iff (d : Datetime) (bound : AwareDatetime) :
    d.sqliteText < bound.isoformat ↔ d.instant < bound.midnightAfter := by
  have hTime := timeOfDay_lt d
  have hMark : ' ' :: d.timeText < 'T' :: (bound.timeText ++
      AwareDatetime.fractionText bound.microsecond ++
        AwareDatetime.offsetText bound.utcoffset) :=
    List.cons_lt_cons_iff.mpr (Or.inl (by decide))
  rw [String.lt_iff, Datetime.sqliteText, AwareDatetime.isoformat, String.toList_ofList,
    String.toList_ofList, Date.text_append_lt_iff, and_iff_left hMark, ← Nat.le_iff_lt_or_eq,
    Datetime.instant, AwareDatetime.midnightAfter, Int.ofNat_lt]
  unfold dayMicroseconds at hTime ⊢
  omega

theorem isoformat_le_sqliteText_iff (d : Datetime) (bound : AwareDatetime) :
    bound.isoformat ≤ d.sqliteText ↔ bound.midnightAfter ≤ d.instant :=
  (not_congr (sqliteText_lt_isoformat_iff d bound)).trans not_lt

variable {db : OperatorDb} {created : SummaryId → Datetime} {sessionKey : Option String}
  {since before : Option AwareDatetime} {minTokenCount : Option Int}

theorem fits_rangeCriteria {row : SummaryRecord} :
    (db.createdAs created).fits (rangeCriteria sessionKey since before minTokenCount) row ↔
      row.kind = .leaf ∧ (∀ key ∈ sessionKey, key ≠ "" → db.sessionKey row.summaryId = key) ∧
        (∀ text ∈ since.map (·.isoformat), text ≤ (created row.summaryId).sqliteText) ∧
        (∀ text ∈ before.map (·.isoformat), (created row.summaryId).sqliteText < text) ∧
        ∀ count ∈ minTokenCount, count ≤ (row.tokenCount : Int) :=
  decide_eq_true_iff

theorem mem_rangePurge_iff {id : SummaryId} :
    id ∈ (db.createdAs created).resolveTargetLeafIds
        (rangeCriteria sessionKey since before minTokenCount) ↔
      db.IsCandidate sessionKey minTokenCount id ∧
        Within (since.map (·.midnightAfter)) (before.map (·.midnightAfter))
          (created id).instant := by
  have hSince : (∀ text ∈ since.map (·.isoformat), text ≤ (created id).sqliteText) ↔
      ∀ a ∈ since.map (·.midnightAfter), a ≤ (created id).instant := by
    cases since with
    | none => exact ⟨nofun, nofun⟩
    | some a => simpa using isoformat_le_sqliteText_iff (created id) a
  have hBefore : (∀ text ∈ before.map (·.isoformat), (created id).sqliteText < text) ↔
      ∀ b ∈ before.map (·.midnightAfter), (created id).instant < b := by
    cases before with
    | none => exact ⟨nofun, nofun⟩
    | some b => simpa using sqliteText_lt_isoformat_iff (created id) b
  rw [mem_resolveTargetLeafIds, IsCandidate, Within, ← hSince, ← hBefore]
  constructor
  · rintro ⟨row, hRow, rfl, hFits, hLive⟩
    obtain ⟨hKind, hKey, hLow, hHigh, hCount⟩ := fits_rangeCriteria.mp hFits
    exact ⟨⟨row, hRow, rfl, hKind, hLive, hKey, hCount⟩, hLow, hHigh⟩
  · rintro ⟨⟨row, hRow, rfl, hKind, hLive, hKey, hCount⟩, hLow, hHigh⟩
    exact ⟨row, hRow, rfl, fits_rangeCriteria.mpr ⟨hKind, hKey, hLow, hHigh, hCount⟩, hLive⟩

/-- The leaves in the interval are those between the midnights that end the days of its
bounds. -/
theorem selectsInterval_iff (db : OperatorDb) (created : SummaryId → Datetime)
    (sessionKey : Option String) (since before : Option AwareDatetime)
    (minTokenCount : Option Int) :
    db.SelectsInterval created sessionKey since before minTokenCount ↔
      ∀ id, db.IsCandidate sessionKey minTokenCount id →
        (Within (since.map (·.midnightAfter)) (before.map (·.midnightAfter))
            (created id).instant ↔
          Within (since.map (·.instant)) (before.map (·.instant)) (created id).instant) :=
  forall_congr' fun _ => by rw [mem_rangePurge_iff, and_congr_right_iff]

/-! ## A leaf of the day -/

/-- The first of May, at an hour. -/
def mayDay (hour : Nat) (h : hour < 24) : Datetime :=
  ⟨⟨2026, 5, 1, by decide, by decide, by decide, by decide, by decide, by decide⟩, hour, 0, 0, 0,
    h, by decide, by decide, by decide⟩

example : (AwareDatetime.mk (mayDay 9 (by decide)) (-19800000000) (by decide)).isoformat =
    "2026-05-01T09:00:00-05:30" := by
  decide +kernel

/-- The purge of the morning of a day leaves a leaf of that morning. -/
theorem not_selectsInterval :
    ¬ chain.SelectsInterval (fun _ => mayDay 9 (by decide)) none
      (some ⟨mayDay 0 (by decide), 0, by decide⟩) (some ⟨mayDay 12 (by decide), 0, by decide⟩)
      none := by
  intro h
  have hSelected := (h "leaf").mpr
    ⟨⟨_, List.mem_cons_self, rfl, rfl, rfl, nofun, nofun⟩,
      fun a ha => Option.some.inj ha ▸ by decide +kernel,
      fun b hb => Option.some.inj hb ▸ by decide +kernel⟩
  obtain ⟨-, hLow, -⟩ := mem_rangePurge_iff.mp hSelected
  exact absurd (hLow _ rfl) (by decide +kernel)

end OperatorDb
end LosslessHermes
