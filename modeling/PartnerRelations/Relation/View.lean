/-
# `Relation.View` — the shapes in which relations are read

Views of the input, the output and the sharing state, as searches return them,
and the work item that a claim hands out.
-/
import PartnerRelations.Relation.Basic

namespace PartnerRelations

/-- The input as the tenant submitted it, its ends under the tenant's names. -/
structure InputRelation where
  externalId : ExternalId
  relationType : RelationType
  sourceExternalId : ExternalId
  targetExternalId : ExternalId
  createdAt : Instant
  updatedAt : Instant
deriving DecidableEq, Repr

/-- The view of a relation's input stage, given the names of its ends. -/
def InputRelation.ofRelation? (r : Relation) (source target : ExternalId) :
    Option InputRelation :=
  r.input.map fun stage =>
    { externalId := r.externalId, relationType := stage.relationType
      sourceExternalId := source, targetExternalId := target
      createdAt := stage.createdAt, updatedAt := stage.updatedAt }

/-- A published relation between two resolved legal entities. -/
structure OutputRelation where
  externalId : ExternalId
  relationType : RelationType
  sourceBpnl : Bpnl
  targetBpnl : Bpnl
  updatedAt : Instant
deriving DecidableEq, Repr

/-- The view of a relation's output. -/
def OutputRelation.ofRelation? (r : Relation) : Option OutputRelation :=
  r.output.map fun output =>
    { externalId := r.externalId, relationType := output.relationType
      sourceBpnl := output.sourceBpnl, targetBpnl := output.targetBpnl
      updatedAt := output.updatedAt }

/-- A relation's sharing state under the tenant's name for the relation. -/
structure RelationSharingStateView where
  externalId : ExternalId
  relationType : RelationType
  sharingStateType : RelationSharingStateType
  errorMessage : Option String
  updatedAt : Instant
deriving DecidableEq, Repr

/-- The view of a relation's sharing state. -/
def RelationSharingStateView.ofRelation? (r : Relation) : Option RelationSharingStateView :=
  r.sharingState.map fun state =>
    { externalId := r.externalId, relationType := state.relationType
      sharingStateType := state.stateType, errorMessage := state.errorMessage
      updatedAt := state.updatedAt }

/-- One end of a relation, as the sharing process sees it. -/
structure PartnerReference where
  externalId : ExternalId
  bpnl : Option Bpnl
deriving DecidableEq, Repr

/-- The partner that a ledger record describes. -/
def PartnerReference.ofRecord (r : SharingStateRecord) : PartnerReference :=
  ⟨r.externalId, r.bpnl⟩

/-- A claimed relation, as handed to the sharing process. -/
structure RelationSharingTask where
  tenant : TenantBpnl
  externalId : ExternalId
  relationType : RelationType
  source : PartnerReference
  target : PartnerReference
deriving DecidableEq, Repr

/-- Both ends have a number, so the relation can be promoted at once. -/
def RelationSharingTask.isResolvable (t : RelationSharingTask) : Bool :=
  t.source.bpnl.isSome && t.target.bpnl.isSome

end PartnerRelations
