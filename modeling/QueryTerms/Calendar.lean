/-! The proleptic Gregorian calendar, with a year zero and negative years. Days are counted from the first of
January 1970. A year is taken to begin in March, so that the day that a leap year adds is its last one. -/

namespace QueryTerms

/-- A day of the calendar. -/
structure CivilDate where
  year : Int
  month : Int
  day : Int
deriving DecidableEq, Repr

namespace CivilDate

def isLeapYear (year : Int) : Bool :=
  year % 4 == 0 && (year % 100 != 0 || year % 400 == 0)

def daysInMonth (year month : Int) : Int :=
  if month = 2 then (if isLeapYear year then 29 else 28)
  else if month = 4 ∨ month = 6 ∨ month = 9 ∨ month = 11 then 30
  else 31

/-- Whether there is such a day, in a year that the calendar covers. -/
def isValid (date : CivilDate) : Bool :=
  -262143 ≤ date.year && date.year ≤ 262142 && 1 ≤ date.month && date.month ≤ 12 &&
    1 ≤ date.day && date.day ≤ daysInMonth date.year date.month

/-- The number of days since the first of January 1970. -/
def toDays (date : CivilDate) : Int :=
  let year := if date.month ≤ 2 then date.year - 1 else date.year
  let month := if date.month ≤ 2 then date.month + 9 else date.month - 3
  let yearOfEra := year % 400
  let dayOfYear := (153 * month + 2) / 5 + date.day - 1
  year / 400 * 146097 + (365 * yearOfEra + yearOfEra / 4 - yearOfEra / 100 + dayOfYear) - 719468

/-- The day that is the given number of days after the first of January 1970. -/
def ofDays (days : Int) : CivilDate :=
  let shifted := days + 719468
  let dayOfEra := shifted % 146097
  let yearOfEra := (dayOfEra - dayOfEra / 1460 + dayOfEra / 36524 - dayOfEra / 146096) / 365
  let dayOfYear := dayOfEra - (365 * yearOfEra + yearOfEra / 4 - yearOfEra / 100)
  let month := (5 * dayOfYear + 2) / 153
  let year := yearOfEra + shifted / 146097 * 400
  { year := if month < 10 then year else year + 1
    month := if month < 10 then month + 3 else month - 9
    day := dayOfYear - (153 * month + 2) / 5 + 1 }

end CivilDate

/-- A point in time, in seconds since the start of 1970 and nanoseconds. In a leap second the nanoseconds
reach beyond one second. -/
structure Instant where
  seconds : Int
  nanos : Int
deriving DecidableEq, Repr

namespace Instant

/-- Whether the calendar covers the second. -/
def isCovered (t : Instant) : Bool :=
  -8334601228800 ≤ t.seconds && t.seconds ≤ 8210266876799

/-- Only the last second of a minute can be a leap second. -/
def isValid (t : Instant) : Bool :=
  t.isCovered && 0 ≤ t.nanos &&
    (t.nanos < 1000000000 || (t.nanos < 2000000000 && t.seconds % 60 == 59))

end Instant

/-- A date and a time of day, as a clock shows them. -/
structure CivilTime where
  date : CivilDate
  hour : Int
  minute : Int
  second : Int
  nanos : Int
deriving DecidableEq, Repr

namespace CivilTime

def isValid (t : CivilTime) : Bool :=
  t.date.isValid && 0 ≤ t.hour && t.hour < 24 && 0 ≤ t.minute && t.minute < 60 &&
    0 ≤ t.second && t.second < 60 && 0 ≤ t.nanos &&
    (t.nanos < 1000000000 || (t.nanos < 2000000000 && t.second == 59))

/-- The instant at which a clock that runs `offset` seconds ahead of the standard time shows this time. -/
def toInstant (t : CivilTime) (offset : Int) : Instant :=
  ⟨t.date.toDays * 86400 + 3600 * t.hour + 60 * t.minute + t.second - offset, t.nanos⟩

/-- What a clock that runs `offset` seconds ahead of the standard time shows at an instant. -/
def ofInstant (t : Instant) (offset : Int) : CivilTime :=
  let here := t.seconds + offset
  let secondOfDay := here % 86400
  { date := CivilDate.ofDays (here / 86400)
    hour := secondOfDay / 3600
    minute := secondOfDay % 3600 / 60
    second := secondOfDay % 60
    nanos := t.nanos }

end CivilTime

/-- Whether an offset from the standard time is shorter than a day. -/
def isOffset (offset : Int) : Bool :=
  -86400 < offset && offset < 86400

end QueryTerms
