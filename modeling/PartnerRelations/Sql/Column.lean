/-
# `Sql.Column` — the columns of the three tables

A column has a name and says which cell a record has there.  The statements are
written from these lists, so a statement's text and its parameters cannot fall
out of step.  A column group is kept apart when some statement treats it apart:
an update leaves a relation's identity and its creation alone.
-/
import PartnerRelations.Relation.Basic
import PartnerRelations.Sql.Value

namespace PartnerRelations.Sql

/-- A column of a table of `α`. -/
structure Column (α : Type) where
  name : String
  cell : α → Cell

/-- The row of a record. -/
def rowOf {α : Type} (columns : List (Column α)) (a : α) : Row :=
  columns.map fun c => (c.name, c.cell a)

/-- The cells of a record, as parameters. -/
def paramsOf {α : Type} (columns : List (Column α)) (a : α) : List Param :=
  columns.map fun c => .cell (c.cell a)

/-- The names of columns. -/
def names {α : Type} (columns : List (Column α)) : List String :=
  columns.map (·.name)

/-! ## Relations -/

/-- What names a relation. -/
def relationIdentity : List (Column Relation) :=
  [⟨"id", fun r => cell r.id.uuid⟩,
   ⟨"tenant_bpnl", fun r => cell r.tenant.text⟩,
   ⟨"external_id", fun r => cell r.externalId.text⟩]

/-- What commands change about a relation: its version, its sharing state and its
output. -/
def relationState : List (Column Relation) :=
  [⟨"version", fun r => cell (word r.version)⟩,
   ⟨"sharing_state_type", fun r => nullable (r.sharingState.map (·.stateType.name))⟩,
   ⟨"sharing_relation_type", fun r => nullable (r.sharingState.map (·.relationType.name))⟩,
   ⟨"sharing_error_message", fun r => nullable (r.sharingState.bind (·.errorMessage))⟩,
   ⟨"sharing_updated_at", fun r => nullable (r.sharingState.map (·.updatedAt))⟩,
   ⟨"output_relation_type", fun r => nullable (r.output.map (·.relationType.name))⟩,
   ⟨"output_source_bpnl", fun r => nullable (r.output.map (·.sourceBpnl.text))⟩,
   ⟨"output_target_bpnl", fun r => nullable (r.output.map (·.targetBpnl.text))⟩,
   ⟨"output_updated_at", fun r => nullable (r.output.map (·.updatedAt))⟩]

/-- The moment of creation. -/
def relationCreation : List (Column Relation) :=
  [⟨"created_at", fun r => cell r.createdAt⟩]

/-- The moment of the last change. -/
def relationChange : List (Column Relation) :=
  [⟨"updated_at", fun r => cell r.updatedAt⟩]

/-- All columns of a relation. -/
def relationColumns : List (Column Relation) :=
  relationIdentity ++ relationState ++ relationCreation ++ relationChange

/-- The columns that an update assigns. -/
def updatedRelationColumns : List (Column Relation) :=
  relationState ++ relationChange

/-! ## Stages -/

/-- What names a stage. -/
def stageIdentity : List (Column RelationStage) :=
  [⟨"relation_id", fun s => cell s.relationId.uuid⟩,
   ⟨"stage", fun s => cell s.stage.name⟩]

/-- What a stage says. -/
def stageValues : List (Column RelationStage) :=
  [⟨"relation_type", fun s => cell s.relationType.name⟩,
   ⟨"source_id", fun s => cell s.source.uuid⟩,
   ⟨"target_id", fun s => cell s.target.uuid⟩]

/-- The moment of creation. -/
def stageCreation : List (Column RelationStage) :=
  [⟨"created_at", fun s => cell s.createdAt⟩]

/-- The moment of the last change. -/
def stageChange : List (Column RelationStage) :=
  [⟨"updated_at", fun s => cell s.updatedAt⟩]

/-- All columns of a stage. -/
def stageColumns : List (Column RelationStage) :=
  stageIdentity ++ stageValues ++ stageCreation ++ stageChange

/-- The columns that a stage written over another one replaces. -/
def replacedStageColumns : List (Column RelationStage) :=
  stageValues ++ stageChange

/-- The columns of the input stage in a row of its relation, each with the name
that it has there. -/
def joinedStageColumns : List (String × String) :=
  [("relation_type", "stage_relation_type"), ("source_id", "source_id"),
   ("target_id", "target_id"), ("created_at", "stage_created_at"),
   ("updated_at", "stage_updated_at")]

/-! ## Partners -/

/-- What names a partner. -/
def partnerIdentity : List (Column SharingStateRecord) :=
  [⟨"id", fun r => cell r.id.uuid⟩,
   ⟨"tenant_bpnl", fun r => cell r.tenant.text⟩,
   ⟨"external_id", fun r => cell r.externalId.text⟩]

/-- What is known of a partner, and since when. -/
def partnerState : List (Column SharingStateRecord) :=
  [⟨"sharing_state_type", fun r => cell r.sharingStateType.name⟩,
   ⟨"bpnl", fun r => nullable (r.bpnl.map (·.text))⟩,
   ⟨"updated_at", fun r => cell r.updatedAt⟩]

/-- All columns of a partner's record. -/
def partnerColumns : List (Column SharingStateRecord) :=
  partnerIdentity ++ partnerState

end PartnerRelations.Sql
