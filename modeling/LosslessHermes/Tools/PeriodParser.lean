import LosslessHermes.Library.Months
import LosslessHermes.Library.Text
import LosslessHermes.Library.Zone

/-!
# The periods of `lcm_synthesize_around`

An instant counts the microseconds in UTC from the start of day 0, as days are numbered by
`toordinal`. The time line has no ends here: the errors of dates before year 1 and after year 9999
are left out, as is the name of the zone, whose offsets are the input.
-/

namespace LosslessHermes

namespace PeriodParser

open Clock Gregorian

structure PeriodParseResult where
  since : Int
  before : Int
  label : String
  deriving DecidableEq, Repr

inductive PeriodError
  | periodParseError (message : String)
  /-- `int` refuses the number. -/
  | valueError
  deriving DecidableEq, Repr

def hourMs : Int := 60 * 60 * 1000

def dayMs : Int := 24 * hourMs

def halfDayMs : Int := 12 * hourMs

/-- `timedelta(milliseconds=ms)` -/
def milliseconds (ms : Int) : Int := 1000 * ms

/-- `datetime(y, m, d, h, tzinfo=timezone.utc)` -/
def datetime (year : Int) (month : Nat) (dayOfMonth hourOfDay : Int) : Int :=
  ordinal year month dayOfMonth * day + hourOfDay * hour

/-- `datetime.fromtimestamp(now_ms / 1000, tz=timezone.utc)` -/
def fromTimestamp (nowMs : Int) : Int :=
  datetime 1970 1 1 0 + milliseconds nowMs

/-- The rounds of the iteration that are left. The rendered clock has no seconds. -/
def converge (zone : Zone) (targetMidnightLocalMs : Int) : Nat → Int → Int
  | 0, probe => probe
  | rounds + 1, probe =>
      let renderedLocal := zone.localTime probe
      let renderedAsLocalMs := (renderedLocal - renderedLocal % minute) / 1000
      let deltaMs := renderedAsLocalMs - targetMidnightLocalMs
      if deltaMs = 0 then probe
      else converge zone targetMidnightLocalMs rounds (probe - milliseconds deltaMs)

def getLocalDayStartUtc (zone : Zone) (instant : Int) : Int :=
  let midnight := zone.localDate instant * day
  converge zone (midnight / 1000) 3 midnight

def getLocalDayDurationMs (zone : Zone) (localStartUtc : Int) : Int :=
  let nextStart := getLocalDayStartUtc zone (localStartUtc + 36 * hour)
  let ms := (nextStart - localStartUtc).tdiv 1000
  if ms < 22 * hourMs ∨ 26 * hourMs < ms then dayMs else ms

def computeIsoDow (zone : Zone) (localMidnight : Int) : Int :=
  isoweekday (zone.localDate localMidnight)

/-- The Monday of `this-week` and the end of `last-week`. -/
def thisMonday (zone : Zone) (localMidnight : Int) : Int :=
  let offsetToMondayMs := (computeIsoDow zone localMidnight - 1) * dayMs - halfDayMs
  getLocalDayStartUtc zone (localMidnight - milliseconds offsetToMondayMs)

def monthStart (zone : Zone) (month : Int × Nat) : Int :=
  getLocalDayStartUtc zone (datetime month.1 month.2 1 12)

/-- The group of `^start(\d+)stop$`. -/
def digitsBetween (start stop : String) (period : List Char) : Option (List Char) :=
  let rest := period.drop start.length
  let digits := rest.take (rest.length - stop.length)
  if period = start.toList ++ digits ++ stop.toList ∧ digits ≠ [] ∧ digits.all Text.isDigit then
    some digits
  else none

def unrecognized (raw : String) : String :=
  "Unrecognized period shortcut: '" ++ raw ++ "'. " ++
    "Accepted: today | yesterday | this-week | last-week | this-month | " ++
      "last-month | last-Nh (e.g. last-12h) | last-Nd (e.g. last-3d) | " ++
        "last-7-days | last-30-days."

/-- The forms that end at the current instant. -/
def parseLast (nowDt : Int) (raw : String) (period : List Char) :
    Except PeriodError PeriodParseResult :=
  match digitsBetween "last-" "h" period with
  | some digits =>
      match Text.intOfDigits digits with
      | none => .error .valueError
      | some n =>
          let hours := min (24 * 90) (max 1 n)
          .ok ⟨nowDt - hours * hour, nowDt, "last-" ++ toString hours ++ "h"⟩
  | none =>
      match (digitsBetween "last-" "d" period).or (digitsBetween "last-" "-days" period) with
      | some digits =>
          match Text.intOfDigits digits with
          | none => .error .valueError
          | some n =>
              let days := min 366 (max 1 n)
              .ok ⟨nowDt - days * day, nowDt, "last-" ++ toString days ++ "d"⟩
      | none => .error (.periodParseError (unrecognized raw))

def parsePeriodShortcut (zone : Zone) (nowMs : Int) (raw : String) :
    Except PeriodError PeriodParseResult :=
  let period := Text.lower (Text.stripChars raw.toList)
  let nowDt := fromTimestamp nowMs
  let localMidnight := getLocalDayStartUtc zone nowDt
  let month := (yearOf (zone.localDate nowDt), monthOf (zone.localDate nowDt))
  if period = "today".toList then
    let todayDurationMs := getLocalDayDurationMs zone localMidnight
    .ok ⟨localMidnight, localMidnight + milliseconds todayDurationMs, "today"⟩
  else if period = "yesterday".toList then
    .ok ⟨getLocalDayStartUtc zone (localMidnight - 12 * hour), localMidnight, "yesterday"⟩
  else if period = "this-week".toList then
    let monday := thisMonday zone localMidnight
    let nextMonday :=
      getLocalDayStartUtc zone (monday + milliseconds (7 * dayMs + halfDayMs))
    .ok ⟨monday, nextMonday, "this-week"⟩
  else if period = "last-week".toList then
    let monday := thisMonday zone localMidnight
    let lastMonday :=
      getLocalDayStartUtc zone (monday - milliseconds (7 * dayMs - halfDayMs))
    .ok ⟨lastMonday, monday, "last-week"⟩
  else if period = "this-month".toList then
    .ok ⟨monthStart zone month, monthStart zone (nextMonth month.1 month.2), "this-month"⟩
  else if period = "last-month".toList then
    .ok ⟨monthStart zone (lastMonth month.1 month.2), monthStart zone month, "last-month"⟩
  else parseLast nowDt raw period

end PeriodParser
end LosslessHermes
