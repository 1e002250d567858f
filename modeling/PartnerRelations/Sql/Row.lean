/-
# `Sql.Row` — records out of rows

A column is read as a value of the type that is needed; a column that is not
there, that holds a value of another type, or that holds NULL where a value is
needed, makes the row corrupt, and so does a value that stands for nothing in the
domain.  A reader stops at the first such column, so the order of its reads is
part of what it does.

The parts of a relation that may be absent are each found by one column: NULL
there means that the part is absent, whatever its other columns hold.
-/
import PartnerRelations.Relation.View
import PartnerRelations.Sql.Value
import PartnerRelations.Store.Change

namespace PartnerRelations.Sql

/-- A value read out of a row. -/
abbrev Read := Except StoreError

namespace Row

/-- The failure to read a column. -/
def unreadable (column : String) : StoreError :=
  .corrupt s!"failed to read column {column}"

/-- A column that may hold NULL. -/
def optional (α : Type) [ColumnType α] (row : Row) (column : String) : Read (Option α) :=
  match row.lookup column with
  | none => .error (unreadable column)
  | some none => .ok none
  | some (some value) =>
    match ColumnType.ofValue? value with
    | some a => .ok (some a)
    | none => .error (unreadable column)

/-- A column that has to hold a value. -/
def required (α : Type) [ColumnType α] (row : Row) (column : String) : Read α := do
  match ← optional α row column with
  | some a => return a
  | none => throw (unreadable column)

end Row

/-- A refusal of the domain while reading. -/
def orCorrupt {α : Type} (e : Except DomainError α) : Read α :=
  e.mapError fun error => .corrupt error.message

/-- The value with a name. -/
def readName {α : Type} [Enumeration α] (name : String) : Read α :=
  orCorrupt (Enumeration.parse name)

namespace Row

/-- A column that holds a business key. -/
def key (kind : KeyKind) (row : Row) (column : String) : Read (Key kind) := do
  orCorrupt (Key.parse kind (← row.required String column))

end Row

/-! ## Records -/

/-- The input stage of a joined row. -/
def readJoinedStage (row : Row) (id : RelationId) : Read (Option RelationStage) := do
  match ← row.optional String "stage_relation_type" with
  | none => return none
  | some relationType =>
    return some
      { relationId := id, stage := .input
        relationType := ← readName relationType
        source := ⟨← row.required Uuid "source_id"⟩
        target := ⟨← row.required Uuid "target_id"⟩
        createdAt := ← row.required Instant "stage_created_at"
        updatedAt := ← row.required Instant "stage_updated_at" }

/-- The sharing state of a relation's row. -/
def readSharingState (row : Row) : Read (Option RelationSharingState) := do
  match ← row.optional String "sharing_state_type" with
  | none => return none
  | some stateType =>
    let relationType ← row.required String "sharing_relation_type"
    return some
      { stateType := ← readName stateType
        relationType := ← readName relationType
        errorMessage := ← row.optional String "sharing_error_message"
        updatedAt := ← row.required Instant "sharing_updated_at" }

/-- The output of a relation's row. -/
def readOutput (row : Row) : Read (Option RelationOutput) := do
  match ← row.optional String "output_relation_type" with
  | none => return none
  | some relationType =>
    return some
      { relationType := ← readName relationType
        sourceBpnl := ← row.key .bpnl "output_source_bpnl"
        targetBpnl := ← row.key .bpnl "output_target_bpnl"
        updatedAt := ← row.required Instant "output_updated_at" }

/-- A version as it is stored. -/
def readVersion (version : Int) : Read Nat :=
  if version < 0 then .error (.corrupt s!"negative version {version}") else .ok version.toNat

/-- The relation of a joined row. -/
def readRelation (row : Row) : Read Relation := do
  let id : RelationId := ⟨← row.required Uuid "id"⟩
  let input ← readJoinedStage row id
  let sharingState ← readSharingState row
  let output ← readOutput row
  let version ← row.required Int "version"
  return .restore
    { id, input, sharingState, output
      tenant := ← row.key .tenant "tenant_bpnl"
      externalId := ← row.key .externalId "external_id"
      createdAt := ← row.required Instant "created_at"
      updatedAt := ← row.required Instant "updated_at"
      version := ← readVersion version }

/-- The stage of a row of the table of stages. -/
def readStage (row : Row) : Read RelationStage := do
  let stage ← row.required String "stage"
  let relationType ← row.required String "relation_type"
  return { relationId := ⟨← row.required Uuid "relation_id"⟩
           stage := ← readName stage
           relationType := ← readName relationType
           source := ⟨← row.required Uuid "source_id"⟩
           target := ⟨← row.required Uuid "target_id"⟩
           createdAt := ← row.required Instant "created_at"
           updatedAt := ← row.required Instant "updated_at" }

/-- The record of a partner's row. -/
def readPartner (row : Row) : Read SharingStateRecord := do
  let stateType ← row.required String "sharing_state_type"
  let bpnl ← row.optional String "bpnl"
  return { id := ⟨← row.required Uuid "id"⟩
           tenant := ← row.key .tenant "tenant_bpnl"
           externalId := ← row.key .externalId "external_id"
           sharingStateType := ← readName stateType
           bpnl := ← bpnl.mapM fun text => orCorrupt (Key.parse .bpnl text)
           updatedAt := ← row.required Instant "updated_at" }

/-! ## Views -/

/-- The input of a row that a search found. -/
def readInput (row : Row) : Read InputRelation := do
  let relationType ← row.required String "relation_type"
  return { externalId := ← row.key .externalId "external_id"
           relationType := ← readName relationType
           sourceExternalId := ← row.key .externalId "source_external_id"
           targetExternalId := ← row.key .externalId "target_external_id"
           createdAt := ← row.required Instant "created_at"
           updatedAt := ← row.required Instant "updated_at" }

/-- The output of a row that a search found. -/
def readOutputView (row : Row) : Read OutputRelation := do
  let relationType ← row.required String "output_relation_type"
  return { externalId := ← row.key .externalId "external_id"
           relationType := ← readName relationType
           sourceBpnl := ← row.key .bpnl "output_source_bpnl"
           targetBpnl := ← row.key .bpnl "output_target_bpnl"
           updatedAt := ← row.required Instant "output_updated_at" }

/-- The sharing state of a row that a search found. -/
def readSharingStateView (row : Row) : Read RelationSharingStateView := do
  let stateType ← row.required String "sharing_state_type"
  let relationType ← row.required String "sharing_relation_type"
  return { externalId := ← row.key .externalId "external_id"
           relationType := ← readName relationType
           sharingStateType := ← readName stateType
           errorMessage := ← row.optional String "sharing_error_message"
           updatedAt := ← row.required Instant "sharing_updated_at" }

end PartnerRelations.Sql
