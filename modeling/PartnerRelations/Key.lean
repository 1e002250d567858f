/-
# `Key` — business keys

A business key is a text that somebody outside chose: the number of the sharing
member that owns a record, the name that member gives a record, or the number of
a resolved legal entity.  The three kinds share one rule and never mix: a key is
trimmed and not blank, and both facts are fields of the type.  `Key.parse` is the
way in from an arbitrary text, `Key.ofUuid` the way in from a generated
identifier.
-/
import PartnerRelations.DomainError
import PartnerRelations.Uuid

namespace PartnerRelations

/-- What a business key names. -/
inductive KeyKind where
  | tenant
  | externalId
  | bpnl
deriving DecidableEq, Repr

/-- The name of a kind of key, as refusals show it. -/
def KeyKind.name : KeyKind → String
  | .tenant => "TenantBpnl"
  | .externalId => "ExternalId"
  | .bpnl => "Bpnl"

/-- A trimmed text that is not blank. -/
structure Key (kind : KeyKind) where
  text : String
  trimmed : Text.trim text = text
  nonempty : text ≠ ""
deriving DecidableEq

instance {kind : KeyKind} : Repr (Key kind) := ⟨fun k _ => repr k.text⟩

/-- Number of the sharing member that owns a record. -/
abbrev TenantBpnl := Key .tenant

/-- Name of a relation or of a business partner, chosen by its tenant. -/
abbrev ExternalId := Key .externalId

/-- Number of a resolved legal entity. -/
abbrev Bpnl := Key .bpnl

namespace Key

/-- Read a key: blank characters around it are dropped, and a blank text is
refused.  A text whose size shows that nothing was dropped is kept as it is. -/
def parse (kind : KeyKind) (s : String) : Except DomainError (Key kind) :=
  if h : Text.trim s = "" then
    .error (.invalidId s!"{kind.name}: must not be blank")
  else if hsize : (Text.trim s).utf8ByteSize = s.utf8ByteSize then
    have trimmed := Text.trim_eq_self_of_size hsize
    .ok ⟨s, trimmed, trimmed ▸ h⟩
  else
    .ok ⟨Text.trim s, Text.trim_trim s, h⟩

/-- The key whose text is that of an identifier. -/
def ofUuid (kind : KeyKind) (u : Uuid) : Key kind :=
  ⟨u.text, Text.trim_eq_self_of_solid u.isBlank_chars, u.text_ne_empty⟩

end Key

end PartnerRelations
