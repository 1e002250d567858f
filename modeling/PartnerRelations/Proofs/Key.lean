/-
# `Proofs.Key` — a key has one text

Reading a key from a text finds the core of that text, or refuses a text that has none:

    parse_eq_ok_iff_core    the key is read whose text is the core
    parse_eq_error          only blank texts are refused

So a key is a fixed point of reading, and texts that are the same but for the blanks around them
are the same key (`keys_are_canonical`).  Keys come from JSON, from the columns of a row and from
generated identifiers; the first two read a text, and the text of an identifier has no blanks.
-/
import PartnerRelations.Proofs.Json.Form
import PartnerRelations.Proofs.Sql.RelationRow
import PartnerRelations.Proofs.Text.Blank

namespace PartnerRelations

namespace Key

variable {kind : KeyKind} {s t : String} {k l : Key kind}

theorem parse_eq_ok_iff_core : parse kind s = .ok k ↔ Text.Core s k.text := by
  rw [parse_eq_ok, ← Text.trim_eq_iff_core, and_iff_left k.nonempty]

theorem parse_eq_error {e : DomainError} : parse kind s = .error e ↔
    Text.Blank s ∧ e = .invalidId s!"{kind.name}: must not be blank" := by
  rw [← Text.trim_eq_empty_iff]
  constructor
  · intro h
    unfold parse at h
    split at h
    · next hblank =>
      cases h
      exact ⟨hblank, rfl⟩
    · split at h <;> cases h
  · rintro ⟨hblank, rfl⟩
    exact dif_pos hblank

theorem exists_parse_eq_ok_iff :
    (∃ k, parse kind s = .ok k) ↔ ∃ c ∈ s.toList, Text.isBlank c = false := by
  rw [← Text.not_blank_iff]
  constructor
  · rintro ⟨k, hk⟩ hblank
    cases hk.symm.trans (parse_eq_error.2 ⟨hblank, rfl⟩)
  · intro hsolid
    have hne : Text.trim s ≠ "" := fun h => hsolid (Text.trim_eq_empty_iff.1 h)
    exact ⟨⟨Text.trim s, Text.trim_trim s, hne⟩, parse_eq_ok.2 rfl⟩

/-- The keys of two texts are equal if the texts differ at their blank ends at most. -/
theorem eq_iff_alikeWithin (hs : parse kind s = .ok k) (ht : parse kind t = .ok l) :
    k = l ↔ Text.AlikeWithin s t := by
  rw [← Text.trim_eq_trim_iff, parse_eq_ok.1 hs, parse_eq_ok.1 ht]
  exact ⟨congrArg text, eq_of_text⟩

/-! ## Where keys come from -/

theorem ofJson?_eq_some {j : Json} :
    ofJson? j = some k ↔ ∃ s, j = .str s ∧ parse kind s = .ok k := by
  show (j.text?.bind fun s => (parse kind s).toOption) = some k ↔ _
  cases j with
  | str s => simp [Json.text?, Relation.toOption_eq_some]
  | _ => simp [Json.text?]

theorem ofRow_eq_ok {row : Sql.Row} {column : String} : row.key kind column = .ok k ↔
    ∃ s, row.lookup column = some (Sql.cell s) ∧ parse kind s = .ok k := by
  simp only [Sql.Row.key_eq_ok, Sql.Row.HasKey, Sql.Row.Has, parse_eq_ok]

theorem parse_text_uuid (u : Uuid) : parse kind u.text = .ok (ofUuid kind u) :=
  parse_text (ofUuid kind u)

end Key

/-- A text is read as a key if and only if not all of it is blank, and the key's text is then its
core.  Reading that again gives the same key, and two texts give the same key if and only if they
differ at most in the blanks around them.  So every key is the one that is read from its own text;
keys out of JSON or out of a row are read from a text there, and a generated key has the text of its
identifier. -/
theorem keys_are_canonical (kind : KeyKind) :
    (∀ s, (∃ k, Key.parse kind s = .ok k) ↔ ∃ c ∈ s.toList, Text.isBlank c = false) ∧
    (∀ s e, Key.parse kind s = .error e ↔
      Text.Blank s ∧ e = .invalidId s!"{kind.name}: must not be blank") ∧
    (∀ s k, Key.parse kind s = .ok k ↔ Text.Core s k.text) ∧
    (∀ s t k l, Key.parse kind s = .ok k → Key.parse kind t = .ok l →
      (k = l ↔ Text.AlikeWithin s t)) ∧
    (∀ k : Key kind, Key.parse kind k.text = .ok k) ∧
    (∀ (j : Json) (k : Key kind), ofJson? j = some k ↔
      ∃ s, j = .str s ∧ Key.parse kind s = .ok k) ∧
    (∀ (row : Sql.Row) column k, row.key kind column = .ok k ↔
      ∃ s, row.lookup column = some (Sql.cell s) ∧ Key.parse kind s = .ok k) ∧
    (∀ u : Uuid, Key.parse kind u.text = .ok (Key.ofUuid kind u)) := by
  refine ⟨?accepted, ?refused, ?core, ?equal, ?fixed, ?json, ?row, ?generated⟩
  case accepted => exact fun s => Key.exists_parse_eq_ok_iff
  case refused => exact fun s e => Key.parse_eq_error
  case core => exact fun s k => Key.parse_eq_ok_iff_core
  case equal => exact fun s t k l hs ht => Key.eq_iff_alikeWithin hs ht
  case fixed => exact Key.parse_text
  case json => exact fun j k => Key.ofJson?_eq_some
  case row => exact fun row column k => Key.ofRow_eq_ok
  case generated => exact Key.parse_text_uuid

/-- A name with a blank inside it that is no space of one byte. -/
def spacedName : ExternalId :=
  ⟨"Haus\u00a0Nr. 1", by decide, by decide⟩

/-- Blanks of one, two and three bytes around the name, and one at its end. -/
theorem spacedName_canonical :
    Key.parse .externalId "\u3000 \u0085Haus\u00a0Nr. 1\n" = .ok spacedName ∧
    Key.parse .externalId "Haus\u00a0Nr. 1\t" = .ok spacedName ∧
    Text.AlikeWithin "\u3000 \u0085Haus\u00a0Nr. 1\n" "Haus\u00a0Nr. 1\t" := by
  have hwide : Key.parse .externalId "\u3000 \u0085Haus\u00a0Nr. 1\n" = .ok spacedName :=
    Key.parse_eq_ok.2 (by decide)
  have hnarrow : Key.parse .externalId "Haus\u00a0Nr. 1\t" = .ok spacedName :=
    Key.parse_eq_ok.2 (by decide)
  obtain ⟨-, -, -, hequal, -⟩ := keys_are_canonical .externalId
  exact ⟨hwide, hnarrow, (hequal _ _ _ _ hwide hnarrow).1 rfl⟩

end PartnerRelations
