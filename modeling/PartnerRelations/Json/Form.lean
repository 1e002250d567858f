/-
# `Json.Form` — types with a JSON form

`toJson` writes a value and `ofJson?` reads one, refusing whatever is not of the
type.  An absent optional value is written as null and may be left out; any
other field has to be there.  Names of enumerations are read letter by letter,
also from an object with the name as its one key and null under it; keys are
trimmed, identifiers and instants may have any of their readable forms.
-/
import PartnerRelations.Enumeration
import PartnerRelations.Instant.Printer
import PartnerRelations.Instant.Reader
import PartnerRelations.Json.Value
import PartnerRelations.Key

namespace PartnerRelations

/-- A type whose values are written and read as JSON. -/
class JsonForm (α : Type) where
  toJson : α → Json
  ofJson? : Json → Option α

export JsonForm (toJson ofJson?)

namespace Json

variable {α : Type} [JsonForm α]

/-- A field that has to be there. -/
def required (j : Json) (name : String) : Option α :=
  (j.find? name).bind ofJson?

/-- A field that may be null or left out of an object. -/
def optional (j : Json) (name : String) : Option (Option α) :=
  match j.find? name with
  | none | some .null => if j.isObject then some none else none
  | some value => (ofJson? value).map some

/-- Elements of a list, each of one type. -/
def elements? : Json → Option (List α)
  | .arr elements => elements.mapM ofJson?
  | _ => none

/-- A list that may be left out of an object, and then is empty. -/
def listed (j : Json) (name : String) : Option (List α) :=
  match j.find? name with
  | none => if j.isObject then some [] else none
  | some value => value.elements?

/-- The value written again after it was read. -/
def reread? (α : Type) [JsonForm α] (j : Json) : Option Json :=
  (ofJson? j : Option α).map toJson

end Json

/-! ## Basic forms -/

instance : JsonForm Json := ⟨id, some⟩
instance : JsonForm String := ⟨.str, Json.text?⟩
instance : JsonForm UInt32 :=
  ⟨fun n => .int n.toNat, fun j => (j.below? UInt32.size).map UInt32.ofNat⟩

/-- Counts are written in full, and read up to 64 bits. -/
instance : JsonForm Nat := ⟨fun n => .int n, Json.below? UInt64.size⟩

instance {α : Type} [JsonForm α] : JsonForm (Option α) where
  toJson
    | none => .null
    | some a => toJson a
  ofJson?
    | .null => some none
    | j => (ofJson? j).map some

instance {α : Type} [JsonForm α] : JsonForm (List α) where
  toJson as := .arr (as.map toJson)
  ofJson? := Json.elements?

instance {α : Type} [Enumeration α] : JsonForm α where
  toJson a := .str (Enumeration.name a)
  ofJson? j := j.name?.bind Enumeration.ofName?

instance : JsonForm Uuid := ⟨fun u => .str u.text, fun j => j.text?.bind Uuid.ofText?⟩
instance : JsonForm RelationId := ⟨fun id => toJson id.uuid, fun j => (ofJson? j).map .mk⟩
instance : JsonForm SharingStateId := ⟨fun id => toJson id.uuid, fun j => (ofJson? j).map .mk⟩
instance : JsonForm Instant := ⟨fun i => .str i.text, fun j => j.text?.bind Instant.ofText?⟩

instance {kind : KeyKind} : JsonForm (Key kind) where
  toJson k := .str k.text
  ofJson? j := j.text?.bind fun s => (Key.parse kind s).toOption

end PartnerRelations
