/-
# `Json.Value` — JSON values

Whole numbers and numbers with a fraction are kept apart, since no field of the
library takes a fraction.  The fields of an object are a list in which the first
field of a name counts.
-/

namespace PartnerRelations

/-- A JSON value. -/
inductive Json where
  | null
  | bool (b : Bool)
  | int (n : Int)
  /-- The number `mantissa / 10 ^ places`. -/
  | decimal (mantissa : Int) (places : Nat)
  | str (s : String)
  | arr (elements : List Json)
  | obj (fields : List (String × Json))

namespace Json

instance : Inhabited Json := ⟨.null⟩

/-- The field of an object with a name. -/
def find? : Json → String → Option Json
  | .obj fields, name => fields.lookup name
  | _, _ => none

/-- The value is an object. -/
def isObject : Json → Bool
  | .obj _ => true
  | _ => false

/-- The text of a string. -/
def text? : Json → Option String
  | .str s => some s
  | _ => none

/-- The name that a string is, or that is the one key of an object and has null
under it. -/
def name? : Json → Option String
  | .str name => some name
  | .obj [(name, .null)] => some name
  | _ => none

/-- A whole number of at least 0 and below `bound`. -/
def below? (bound : Nat) : Json → Option Nat
  | .int n => if 0 ≤ n ∧ n.toNat < bound then some n.toNat else none
  | _ => none

end Json

end PartnerRelations
