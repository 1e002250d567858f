/-
# `Instant.Basic` — points in time

An instant is a day, a second of that day and a part of that second in
nanoseconds, all in UTC.  A leap second has no number of its own: it is the
59th second of its minute with 10^9 to 2·10^9 nanoseconds.  Instants are
ordered by `rank`, which counts two billion ticks to a second so that a leap
second keeps its place, and which tells any two instants apart.
-/
import PartnerRelations.Instant.Calendar

namespace PartnerRelations

/-- A point in time. -/
structure Instant where
  /-- Days since 1970-01-01. -/
  day : Int
  /-- Seconds since midnight. -/
  second : Nat
  /-- Nanoseconds of the second, 10^9 or more in a leap second. -/
  nano : Nat
  second_lt : second < 86400
  nano_lt : nano < 1000000000 ∨ (second % 60 = 59 ∧ nano < 2000000000)
deriving DecidableEq, Repr

namespace Instant

/-- The instant with the given parts, if they are in range. -/
def ofParts? (day : Int) (second nano : Nat) : Option Instant :=
  if h : second < 86400 ∧ (nano < 1000000000 ∨ (second % 60 = 59 ∧ nano < 2000000000)) then
    some ⟨day, second, nano, h.1, h.2⟩
  else none

/-- 1970-01-01T00:00:00Z. -/
def epoch : Instant := ⟨0, 0, 0, by decide, .inl (by decide)⟩

instance : Inhabited Instant := ⟨epoch⟩

/-- The place of an instant on the time line. -/
def rank (i : Instant) : Int :=
  (i.day * 86400 + i.second) * 2000000000 + i.nano

instance : LE Instant := ⟨fun a b => a.rank ≤ b.rank⟩
instance : LT Instant := ⟨fun a b => a.rank < b.rank⟩
instance (a b : Instant) : Decidable (a ≤ b) := inferInstanceAs (Decidable (a.rank ≤ b.rank))
instance (a b : Instant) : Decidable (a < b) := inferInstanceAs (Decidable (a.rank < b.rank))

/-- The year, in UTC. -/
def year (i : Instant) : Int :=
  (Date.dateOf i.day).year

/-- The first and the last day that an instant may have: the years −262143 to
262142. -/
def dayRange : Int × Int :=
  (Date.dayOf ⟨-262143, 1, 1⟩, Date.dayOf ⟨262142, 12, 31⟩)

/-- A day in `dayRange`. -/
def isDay (day : Int) : Bool :=
  decide (dayRange.1 ≤ day) && decide (day ≤ dayRange.2)

end Instant

end PartnerRelations
