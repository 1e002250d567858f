/-
# `Instant.Reader` — reading an instant

A date, one of `T`, `t` and a blank, a time of day and a zone.

    date   year - month - day            year: up to four digits, or a sign and any number
    time   hour : minute : second        with a fraction of one digit or more, if a point follows
    zone   Z, UTC, or sign hour minute   two digits each, colons and blanks between them

Blank characters may stand before every number, before every sign between
numbers, before the zone and at both ends.  Digits of a fraction after the ninth
are dropped.  Second 60 is a leap second.  The zone has to be there and lies
less than a day from UTC.
-/
import PartnerRelations.Instant.Basic
import PartnerRelations.Text.Blank
import PartnerRelations.Text.Digits

namespace PartnerRelations.Instant.Reader

/-- What follows the blank characters at the front. -/
def skip (cs : List Char) : List Char :=
  cs.dropWhile Text.isBlank

/-- What follows a character that has to come first. -/
def mark? (c : Char) : List Char → Option (List Char)
  | d :: rest => if c = d then some rest else none
  | [] => none

/-- A number of one or two digits, blank characters before it skipped. -/
def field? (cs : List Char) : Option (Nat × List Char) :=
  Text.number? 2 (skip cs)

/-- A year: a sign allows more than four digits. -/
def year? (cs : List Char) : Option (Int × List Char) :=
  match skip cs with
  | '-' :: rest => (Text.number? rest.length rest).map fun (n, rest) => (-(n : Int), rest)
  | '+' :: rest => (Text.number? rest.length rest).map fun (n, rest) => ((n : Int), rest)
  | rest => (Text.number? 4 rest).map fun (n, rest) => ((n : Int), rest)

/-- A date that the calendar holds. -/
def date? (cs : List Char) : Option (Date × List Char) := do
  let (year, cs) ← year? cs
  let cs ← mark? '-' (skip cs)
  let (month, cs) ← field? cs
  let cs ← mark? '-' (skip cs)
  let (day, cs) ← field? cs
  let date : Date := ⟨year, month, day⟩
  if date.isValid then some (date, cs) else none

/-- The nanoseconds that a fraction stands for, after its point. -/
def fraction? (cs : List Char) : Option (Nat × List Char) :=
  match Text.span 9 cs with
  | ([], _) => none
  | (ds, rest) =>
    some (Text.ofDigits 10 ds * Nat.pow 10 (9 - ds.length),
      rest.dropWhile fun c => (Text.decimalValue? c).isSome)

/-- A time of day as its second and its nanoseconds. -/
def time? (cs : List Char) : Option (Nat × Nat × List Char) := do
  let (hour, cs) ← field? cs
  let cs ← mark? ':' (skip cs)
  let (minute, cs) ← field? cs
  let cs ← mark? ':' (skip cs)
  let (second, cs) ← field? cs
  let (nano, cs) ← match cs with
    | '.' :: rest => fraction? rest
    | _ => some (0, cs)
  if hour < 24 ∧ minute < 60 ∧ second < 61 then
    let leap := second / 60
    some (hour * 3600 + minute * 60 + (second - leap), nano + leap * 1000000000, cs)
  else none

/-- Two digits, with nothing skipped. -/
def twoDigits? : List Char → Option (Nat × List Char)
  | a :: b :: rest => do
    let a ← Text.decimalValue? a
    let b ← Text.decimalValue? b
    some (10 * a + b, rest)
  | _ => none

/-- The distance from UTC in minutes, after its sign. -/
def distance? (cs : List Char) : Option (Nat × List Char) := do
  let (hours, cs) ← twoDigits? cs
  let (minutes, cs) ← twoDigits? (cs.dropWhile fun c => c = ':' || Text.isBlank c)
  if hours < 24 ∧ minutes < 60 then some (60 * hours + minutes, cs) else none

/-- A zone as minutes east of UTC. -/
def zone? (cs : List Char) : Option (Int × List Char) :=
  match cs with
  | 'Z' :: rest | 'z' :: rest => some (0, rest)
  | '+' :: rest => (distance? rest).map fun (n, rest) => ((n : Int), rest)
  | '-' :: rest | '−' :: rest => (distance? rest).map fun (n, rest) => (-(n : Int), rest)
  | a :: b :: c :: rest =>
    if [a, b, c].map Char.toUpper = ['U', 'T', 'C'] then some (0, rest) else none
  | _ => none

/-- The instant of a local date and second of the day, `zone` minutes east of UTC.
The date has to be in range both there and in UTC. -/
def inUtc? (date : Date) (second nano : Nat) (zone : Int) : Option Instant :=
  let utc : Int := second - zone * 60
  let day := date.dayOf + utc / 86400
  if isDay date.dayOf && isDay day then ofParts? day (utc % 86400).toNat nano else none

/-- Read an instant from a list of characters. -/
def instant? (cs : List Char) : Option Instant := do
  let (date, cs) ← date? cs
  let cs ← match cs with
    | 'T' :: rest | 't' :: rest | ' ' :: rest => some rest
    | _ => none
  let (second, nano, cs) ← time? cs
  let (zone, cs) ← zone? (skip cs)
  if (skip cs).isEmpty then inUtc? date second nano zone else none

end Reader

/-- Read an instant. -/
def ofText? (s : String) : Option Instant :=
  Reader.instant? s.toList

end PartnerRelations.Instant
