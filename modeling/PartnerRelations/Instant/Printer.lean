/-
# `Instant.Printer` — the text of an instant

`YYYY-MM-DDTHH:MM:SS` with the shortest exact fraction of none, three, six or
nine digits, and `Z`.  A leap second is written `:60`.  A year above 9999 has a
plus sign and a year below 0 a minus sign, each with at least four digits.
-/
import PartnerRelations.Instant.Basic
import PartnerRelations.Text.Digits

namespace PartnerRelations.Instant

/-- A year, signed when it is not one of 0 to 9999. -/
def yearChars (year : Int) : List Char :=
  if year < 0 then '-' :: Text.padded 4 year.natAbs
  else if year > 9999 then '+' :: Text.padded 4 year.natAbs
  else Text.fixed 10 4 year.natAbs

/-- The fraction of a second, in the fewest digits of 0, 3, 6 and 9. -/
def fractionChars (nano : Nat) : List Char :=
  if nano = 0 then []
  else if nano % 1000000 = 0 then '.' :: Text.fixed 10 3 (nano / 1000000)
  else if nano % 1000 = 0 then '.' :: Text.fixed 10 6 (nano / 1000)
  else '.' :: Text.fixed 10 9 nano

/-- The text of an instant, as a list of characters. -/
def chars (i : Instant) : List Char :=
  let date := Date.dateOf i.day
  let leap := i.nano / 1000000000
  let two := Text.fixed 10 2
  yearChars date.year ++ '-' :: two date.month ++ '-' :: two date.day ++ 'T' ::
    two (i.second / 3600) ++ ':' :: two (i.second / 60 % 60) ++ ':' ::
    two (i.second % 60 + leap) ++ fractionChars (i.nano % 1000000000) ++ ['Z']

/-- The text of an instant. -/
def text (i : Instant) : String :=
  String.ofList i.chars

end PartnerRelations.Instant
