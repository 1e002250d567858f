/-
# `Proofs.Json.Form` — values that are read back from their JSON

A type is lawful when each of its values is read back from the JSON that it is written as.
Texts, names, keys, identifiers and 32-bit words are lawful; an instant is read back if its
year is one of 0 to 9999, and a count if it fits into 64 bits.  An optional value is written
as null when it is absent, so what it holds must not be written as null itself: `Nonnull`
says that the type reads no null, and then it writes none.

The fields of an object are read by name.  Reading the first one gives back what was
written there, and reading another one passes it by (`required_cons_self`,
`required_cons_of_ne`, and the like for optional fields and lists).
-/
import PartnerRelations.Json.Form
import PartnerRelations.Proofs.Instant.Text
import PartnerRelations.Proofs.Names
import PartnerRelations.Proofs.Uuid

namespace PartnerRelations

/-- A type whose values are all read back. -/
class LawfulJsonForm (α : Type) [JsonForm α] : Prop where
  ofJson?_toJson (a : α) : ofJson? (toJson a) = some a

/-- A type that reads no null. -/
class Nonnull (α : Type) [JsonForm α] : Prop where
  ofJson?_null : (ofJson? Json.null : Option α) = none

attribute [simp] LawfulJsonForm.ofJson?_toJson Nonnull.ofJson?_null

variable {α : Type} [JsonForm α]

/-! ## Fields -/

namespace Json

variable {name other : String} {value : Json} {fields : List (String × Json)}

theorem find?_cons_self : (obj ((name, value) :: fields)).find? name = some value := by
  simp [find?]

theorem find?_cons_of_ne (h : name ≠ other) :
    (obj ((other, value) :: fields)).find? name = (obj fields).find? name := by
  rw [find?, List.lookup_cons, beq_eq_false_iff_ne.2 h]
  rfl

@[simp] theorem required_cons_self :
    (obj ((name, value) :: fields)).required name = (ofJson? value : Option α) := by
  rw [required, find?_cons_self, Option.bind_some]

@[simp] theorem required_cons_of_ne (h : name ≠ other) :
    ((obj ((other, value) :: fields)).required name : Option α) = (obj fields).required name := by
  rw [required, required, find?_cons_of_ne h]

@[simp] theorem optional_cons_self :
    (obj ((name, value) :: fields)).optional name = (ofJson? value : Option (Option α)) := by
  rw [optional, find?_cons_self]
  cases value <;> rfl

@[simp] theorem optional_cons_of_ne (h : name ≠ other) :
    ((obj ((other, value) :: fields)).optional name : Option (Option α)) =
      (obj fields).optional name := by
  rw [optional, optional, find?_cons_of_ne h]
  rfl

@[simp] theorem listed_cons_self :
    (obj ((name, value) :: fields)).listed name = (ofJson? value : Option (List α)) := by
  rw [listed, find?_cons_self]
  rfl

@[simp] theorem listed_cons_of_ne (h : name ≠ other) :
    ((obj ((other, value) :: fields)).listed name : Option (List α)) =
      (obj fields).listed name := by
  rw [listed, listed, find?_cons_of_ne h]
  rfl

theorem lt_of_below? {bound n : Nat} {j : Json} (h : j.below? bound = some n) : n < bound := by
  unfold below? at h
  split at h
  · split at h
    · next hin => exact Option.some.inj h ▸ hin.2
    · cases h
  · cases h

theorem below?_int {bound n : Nat} (h : n < bound) : (int n).below? bound = some n := by
  have hin : 0 ≤ (n : Int) ∧ (n : Int).toNat < bound := by omega
  rw [below?, if_pos hin]
  rfl

end Json

/-! ## Composed values -/

theorem toJson_ne_null [Nonnull α] {a : α} (h : ofJson? (toJson a) = some a) :
    toJson a ≠ .null := by
  intro hnull
  rw [hnull, Nonnull.ofJson?_null] at h
  cases h

theorem ofJson?_option {j : Json} (h : j ≠ .null) :
    (ofJson? j : Option (Option α)) = (ofJson? j).map some := by
  cases j with
  | null => exact absurd rfl h
  | _ => rfl

/-- What is there is read back, and so is that nothing is there. -/
theorem ofJson?_toJson_option [Nonnull α] {a : Option α}
    (h : ∀ b ∈ a, ofJson? (toJson b) = some b) : ofJson? (toJson a) = some a := by
  cases a with
  | none => rfl
  | some b =>
    have hb := h b rfl
    exact (ofJson?_option (toJson_ne_null hb)).trans (congrArg (Option.map some) hb)

theorem ofJson?_toJson_list {as : List α} (h : ∀ a ∈ as, ofJson? (toJson a) = some a) :
    ofJson? (toJson as) = some as := by
  show (as.map toJson).mapM ofJson? = some as
  induction as with
  | nil => rfl
  | cons a as ih =>
    obtain ⟨ha, has⟩ := List.forall_mem_cons.1 h
    rw [List.map_cons, List.mapM_cons, ha, ih has]
    rfl

instance [LawfulJsonForm α] [Nonnull α] : LawfulJsonForm (Option α) where
  ofJson?_toJson _ := ofJson?_toJson_option fun _ _ => LawfulJsonForm.ofJson?_toJson _

instance [LawfulJsonForm α] : LawfulJsonForm (List α) where
  ofJson?_toJson _ := ofJson?_toJson_list fun _ _ => LawfulJsonForm.ofJson?_toJson _

/-! ## Single values -/

instance : LawfulJsonForm String := ⟨fun _ => rfl⟩
instance : Nonnull String := ⟨rfl⟩

instance : LawfulJsonForm UInt32 where
  ofJson?_toJson n := by
    show ((Json.int n.toNat).below? UInt32.size).map UInt32.ofNat = some n
    rw [Json.below?_int n.toNat_lt, Option.map_some, UInt32.ofNat_toNat]

instance {α : Type} [Enumeration α] [Enumeration.Lawful α] : LawfulJsonForm α where
  ofJson?_toJson := Enumeration.ofName?_name

instance : LawfulJsonForm Uuid := ⟨Uuid.ofText?_text⟩

instance : LawfulJsonForm RelationId where
  ofJson?_toJson id := congrArg (Option.map RelationId.mk) (Uuid.ofText?_text id.uuid)

instance : LawfulJsonForm SharingStateId where
  ofJson?_toJson id := congrArg (Option.map SharingStateId.mk) (Uuid.ofText?_text id.uuid)

instance {kind : KeyKind} : LawfulJsonForm (Key kind) where
  ofJson?_toJson k := by
    show (some k.text).bind (fun s => (Key.parse kind s).toOption) = some k
    rw [Option.bind_some, Key.parse_text]
    rfl

instance {kind : KeyKind} : Nonnull (Key kind) := ⟨rfl⟩

instance : Nonnull Instant := ⟨rfl⟩

theorem Instant.ofJson?_toJson {i : Instant} (h : i.HasPlainYear) : ofJson? (toJson i) = some i :=
  (Option.bind_some _ Instant.ofText?).trans (ofText?_text h)

theorem ofJson?_toJson_count {n : Nat} (h : n < UInt64.size) : ofJson? (toJson n) = some n :=
  Json.below?_int h

end PartnerRelations
