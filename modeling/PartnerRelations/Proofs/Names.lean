/-
# `Proofs.Names` — keys and names are read back

A key is its own trimmed text, so reading that text gives the key (`Key.parse_text`).  A
closed set of names lists all its values and tells them apart by name; that is what
`Enumeration.Lawful` asks for, and then each name is read as its value
(`Enumeration.ofName?_name`).
-/
import PartnerRelations.Key
import PartnerRelations.Log.Format
import PartnerRelations.Partner
import PartnerRelations.Relation.Stage
import PartnerRelations.Relation.Sharing

namespace PartnerRelations

namespace Key

variable {kind : KeyKind}

theorem eq_of_text {a b : Key kind} (h : a.text = b.text) : a = b := by
  cases a
  cases b
  cases h
  rfl

/-- The key that is read has the trimmed text, whether the text itself was kept or not. -/
theorem parse_eq_ok {s : String} {k : Key kind} : parse kind s = .ok k ↔ Text.trim s = k.text := by
  unfold parse
  split
  · next hblank =>
    refine iff_of_false ?_ fun h => k.nonempty (h ▸ hblank)
    intro h
    cases h
  · split
    · next hsize =>
      have hkept := Text.trim_eq_self_of_size hsize
      constructor
      · intro h
        cases h
        exact hkept
      · intro h
        exact congrArg Except.ok (eq_of_text (hkept.symm.trans h))
    · constructor
      · intro h
        cases h
        rfl
      · intro h
        exact congrArg Except.ok (eq_of_text h)

theorem parse_text (k : Key kind) : parse kind k.text = .ok k :=
  parse_eq_ok.2 k.trimmed

end Key

namespace Enumeration

/-- All values are listed, and each has a name of its own. -/
class Lawful (α : Type) [Enumeration α] : Prop where
  mem_all (a : α) : a ∈ (all : List α)
  name_injective {a b : α} : name a = name b → a = b

variable {α : Type} [Enumeration α] [Lawful α]

/-- The name of a value is read as the value. -/
theorem ofName?_name (a : α) : ofName? (name a) = some a := by
  have hsome : (ofName? (name a) : Option α).isSome = true := by
    rw [ofName?, List.find?_isSome]
    exact ⟨a, Lawful.mem_all a, beq_self_eq_true _⟩
  obtain ⟨b, hb⟩ := Option.isSome_iff_exists.1 hsome
  have hname : name b = name a := by simpa using List.find?_some hb
  rw [hb, Lawful.name_injective hname]

theorem ofName?_eq_some {s : String} {a : α} : ofName? s = some a ↔ s = name a := by
  constructor
  · intro h
    have hname : name a = s := by simpa using List.find?_some h
    exact hname.symm
  · rintro rfl
    exact ofName?_name a

theorem parse_name (a : α) : parse (name a) = .ok a := by
  rw [parse, ofName?_name]

end Enumeration

instance : Enumeration.Lawful SharingStateType where
  mem_all a := by cases a <;> decide
  name_injective {a b} := by cases a <;> cases b <;> decide

instance : Enumeration.Lawful RelationType where
  mem_all a := by cases a <;> decide
  name_injective {a b} := by cases a <;> cases b <;> decide

instance : Enumeration.Lawful StageType where
  mem_all a := by cases a <;> decide
  name_injective {a b} := by cases a <;> cases b <;> decide

instance : Enumeration.Lawful RelationSharingStateType where
  mem_all a := by cases a <;> decide
  name_injective {a b} := by cases a <;> cases b <;> decide

instance : Enumeration.Lawful LogFormat where
  mem_all a := by cases a <;> decide
  name_injective {a b} := by cases a <;> cases b <;> decide

end PartnerRelations
