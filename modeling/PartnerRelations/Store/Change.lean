/-
# `Store.Change` — writes to a relation store, and their failures

A batch of changes is applied as a whole or not at all.  An insert needs its name
to be free; an update and a delete need the relation to be there at the expected
version.
-/
import PartnerRelations.Relation.Basic
import PartnerRelations.Version

namespace PartnerRelations

/-- Why a relation store did not do what it was asked. -/
inductive StoreError where
  /-- The name of an inserted relation is taken. -/
  | duplicateExternalId (tenant : TenantBpnl) (externalId : ExternalId)
  /-- The relation changed or is gone. -/
  | concurrency (reason : String)
  /-- A stored value does not stand for anything in the domain. -/
  | corrupt (reason : String)
  | backend (reason : String)
deriving DecidableEq, Repr

/-- The text shown for a store's failure. -/
def StoreError.message : StoreError → String
  | .duplicateExternalId tenant externalId =>
    s!"relation '{externalId.text}' already exists for tenant '{tenant.text}'"
  | .concurrency reason => s!"optimistic concurrency check failed: {reason}"
  | .corrupt reason => s!"corrupt relation data: {reason}"
  | .backend reason => s!"storage backend failure: {reason}"

/-- One write of a batch. -/
inductive RelationChange where
  | insert (relation : Relation)
  /-- Replace the relation with its stage, sharing state and output. -/
  | update (relation : Relation) (expected : ExpectedVersion)
  /-- Remove the relation with its stages. -/
  | delete (relationId : RelationId) (expected : ExpectedVersion)
deriving DecidableEq, Repr

/-- The relation that a change is about. -/
def RelationChange.relationId : RelationChange → RelationId
  | .insert relation => relation.id
  | .update relation _ => relation.id
  | .delete relationId _ => relationId

end PartnerRelations
