/-
# `Sql.Value` — values, cells and rows

A value has one of six column types.  A cell holds a value or NULL, and a row
names its cells.  `ColumnType` says how values of the library lie in columns, and
that a value which was put into a column is read back.
-/
import PartnerRelations.Instant.Basic
import PartnerRelations.Uuid

namespace PartnerRelations.Sql

/-- A value of a column. -/
inductive Value where
  | text (s : String)
  | int4 (n : Int)
  /-- A signed 64-bit number. -/
  | int8 (n : Int)
  | uuid (u : Uuid)
  | bool (b : Bool)
  | timestamp (t : Instant)
deriving DecidableEq, Repr

/-- A value, or NULL. -/
abbrev Cell := Option Value

/-- Cells by the names of their columns. -/
abbrev Row := List (String × Cell)

/-- A type with a column type of its own. -/
class ColumnType (α : Type) where
  toValue : α → Value
  ofValue? : Value → Option α
  ofValue?_toValue (a : α) : ofValue? (toValue a) = some a

instance : ColumnType String where
  toValue := .text
  ofValue? | .text s => some s
           | _ => none
  ofValue?_toValue _ := rfl

instance : ColumnType Int where
  toValue := .int8
  ofValue? | .int8 n => some n
           | _ => none
  ofValue?_toValue _ := rfl

instance : ColumnType Uuid where
  toValue := .uuid
  ofValue? | .uuid u => some u
           | _ => none
  ofValue?_toValue _ := rfl

instance : ColumnType Instant where
  toValue := .timestamp
  ofValue? | .timestamp t => some t
           | _ => none
  ofValue?_toValue _ := rfl

/-- The cell of a value. -/
def cell {α : Type} [ColumnType α] (a : α) : Cell :=
  some (ColumnType.toValue a)

/-- The cell of a value that may be absent. -/
def nullable {α : Type} [ColumnType α] (a : Option α) : Cell :=
  a.map ColumnType.toValue

/-- The largest signed 64-bit number. -/
def maxWord : Nat := 0x7fffffffffffffff

/-- A count as a signed 64-bit number; counts too large for that become the
largest one. -/
def word (n : Nat) : Int :=
  if n ≤ maxWord then n else maxWord

/-- What a parameter of a statement stands for. -/
inductive Param where
  | cell (c : Cell)
  | texts (values : List String)
  | uuids (values : List Uuid)
deriving DecidableEq, Repr

end PartnerRelations.Sql
