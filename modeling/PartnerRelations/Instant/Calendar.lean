/-
# `Instant.Calendar` — days and dates

The proleptic Gregorian calendar with a year 0.  A day is counted from
1970-01-01, which is day 0.  `dayOf` and `dateOf` both count in eras of 400
years that begin on the first of March, so that a leap day is the last day of
its year.
-/

namespace PartnerRelations

/-- A date of the calendar. -/
structure Date where
  year : Int
  month : Nat
  day : Nat
deriving DecidableEq, Repr

namespace Date

/-- A year with a 29th of February. -/
def isLeap (year : Int) : Bool :=
  year % 4 = 0 && (year % 100 ≠ 0 || year % 400 = 0)

/-- The number of days of a month; none for a month that does not exist. -/
def monthLength (year : Int) : Nat → Nat
  | 1 | 3 | 5 | 7 | 8 | 10 | 12 => 31
  | 4 | 6 | 9 | 11 => 30
  | 2 => if isLeap year then 29 else 28
  | _ => 0

/-- A date that the calendar holds. -/
def isValid (d : Date) : Bool :=
  decide (1 ≤ d.day) && decide (d.day ≤ monthLength d.year d.month)

/-- Days from 0000-03-01 to 1970-01-01. -/
def epochShift : Int := 719468

/-- The day of a date. -/
def dayOf (d : Date) : Int :=
  let year := if d.month ≤ 2 then d.year - 1 else d.year
  let yearOfEra := year % 400
  let month : Int := (d.month + 9) % 12
  let dayOfYear := (153 * month + 2) / 5 + d.day - 1
  let dayOfEra := yearOfEra * 365 + yearOfEra / 4 - yearOfEra / 100 + dayOfYear
  year / 400 * 146097 + dayOfEra - epochShift

/-- The date of a day. -/
def dateOf (day : Int) : Date :=
  let shifted := day + epochShift
  let dayOfEra := shifted % 146097
  let yearOfEra := (dayOfEra - dayOfEra / 1460 + dayOfEra / 36524 - dayOfEra / 146096) / 365
  let dayOfYear := dayOfEra - (365 * yearOfEra + yearOfEra / 4 - yearOfEra / 100)
  let month := (5 * dayOfYear + 2) / 153
  let dayOfMonth := dayOfYear - (153 * month + 2) / 5 + 1
  let month := if month < 10 then month + 3 else month - 9
  let year := shifted / 146097 * 400 + yearOfEra
  { year := if month ≤ 2 then year + 1 else year
    month := month.toNat
    day := dayOfMonth.toNat }

end Date

end PartnerRelations
