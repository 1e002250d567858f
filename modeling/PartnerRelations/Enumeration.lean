/-
# `Enumeration` — closed sets of names

A type whose values each have one name.  `ofName?` finds the value again; names
are compared letter by letter.
-/
import PartnerRelations.DomainError

namespace PartnerRelations

/-- A finite type with a name for each of its values. -/
class Enumeration (α : Type) where
  all : List α
  name : α → String
  /-- What a refusal calls a name that no value has. -/
  noun : String

namespace Enumeration

variable {α : Type} [Enumeration α]

/-- The value with the given name. -/
def ofName? (s : String) : Option α :=
  (all : List α).find? fun a => name a == s

/-- The value with the given name; any other name is refused. -/
def parse (s : String) : Except DomainError α :=
  match (ofName? s : Option α) with
  | some a => .ok a
  | none => .error (.validation s!"unknown {noun α} '{s}'")

end Enumeration

end PartnerRelations
