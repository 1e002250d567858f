/-
# `Instant.Shift` — moving an instant, and cutting it to microseconds

`advance?` adds a number of milliseconds.  Inside a leap second it stays in that
second as long as the sum does; a step that leaves it counts the leap second and
the second after it as one.  A sum outside the range of days is refused.

`cutToMicros` keeps the whole microseconds that an instant lies from
2000-01-01T00:00:00Z, so it cuts toward that moment.
-/
import PartnerRelations.Instant.Basic

namespace PartnerRelations.Instant

/-- The instant `total` nanoseconds after midnight of `day`, with no leap second. -/
def ofNanos? (day : Int) (total : Int) : Option Instant :=
  let day := day + total / 86400000000000
  let rest := (total % 86400000000000).toNat
  if isDay day then ofParts? day (rest / 1000000000) (rest % 1000000000) else none

/-- The instant a number of milliseconds later, if it is in range. -/
def advance? (i : Instant) (millis : Int) : Option Instant :=
  let seconds := millis.tdiv 1000
  let nanos := millis.tmod 1000 * 1000000
  let sum : Int := i.second * 1000000000 + i.nano + (seconds * 1000000000 + nanos)
  if i.nano < 1000000000 then
    ofNanos? i.day sum
  else if seconds > 0 ∨ (nanos > 0 ∧ i.nano + nanos ≥ 2000000000) then
    ofNanos? i.day (sum - 1000000000)
  else if seconds < 0 then
    ofNanos? i.day sum
  else
    ofParts? i.day i.second (i.nano + nanos).toNat

/-- Whole microseconds from 2000-01-01T00:00:00Z, cut toward zero. -/
def micros (i : Instant) : Int :=
  ((((i.day - 10957) * 86400 + i.second) * 1000000000) + i.nano).tdiv 1000

/-- The instant a number of microseconds after 2000-01-01T00:00:00Z. -/
def ofMicros? (micros : Int) : Option Instant :=
  ofNanos? 10957 (micros * 1000)

/-- The instant cut to whole microseconds. -/
def cutToMicros (i : Instant) : Instant :=
  (ofMicros? i.micros).getD i

end PartnerRelations.Instant
