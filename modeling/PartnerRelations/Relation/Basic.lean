/-
# `Relation.Basic` — the relation and its decisions

A relation belongs to a tenant under a name of the tenant's choice, and has an
identifier of its own.  It holds its input stage, its sharing state and, once
promoted, its output.

`handle` decides which events a command leads to and changes nothing; `apply`
carries one event out and refuses nothing.  An empty list of events says that
the command asks for nothing new.  The version counts applied events.
-/
import PartnerRelations.Relation.Event

namespace PartnerRelations

/-- The name of a relation: its tenant and the tenant's name for it. -/
structure RelationKey where
  tenant : TenantBpnl
  externalId : ExternalId
deriving DecidableEq, Repr

/-- A tenant's relation between two business partners. -/
structure Relation where
  id : RelationId
  tenant : TenantBpnl
  externalId : ExternalId
  input : Option RelationStage
  sharingState : Option RelationSharingState
  output : Option RelationOutput
  createdAt : Instant
  updatedAt : Instant
  version : Nat
  created : Bool
  deleted : Bool
deriving DecidableEq, Repr

/-- The stored form of a relation. -/
structure RelationSnapshot where
  id : RelationId
  tenant : TenantBpnl
  externalId : ExternalId
  input : Option RelationStage
  sharingState : Option RelationSharingState
  output : Option RelationOutput
  createdAt : Instant
  updatedAt : Instant
  version : Nat
deriving DecidableEq, Repr

namespace Relation

/-- A relation that nothing has happened to yet. -/
def empty (id : RelationId) (tenant : TenantBpnl) (externalId : ExternalId) : Relation :=
  { id, tenant, externalId
    input := none, sharingState := none, output := none
    createdAt := .epoch, updatedAt := .epoch
    version := 0, created := false, deleted := false }

/-- The relation with a stored form: it was created and not deleted. -/
def restore (s : RelationSnapshot) : Relation :=
  { id := s.id, tenant := s.tenant, externalId := s.externalId
    input := s.input, sharingState := s.sharingState, output := s.output
    createdAt := s.createdAt, updatedAt := s.updatedAt
    version := s.version, created := true, deleted := false }

/-- The stored form of a relation. -/
def snapshot (r : Relation) : RelationSnapshot :=
  { id := r.id, tenant := r.tenant, externalId := r.externalId
    input := r.input, sharingState := r.sharingState, output := r.output
    createdAt := r.createdAt, updatedAt := r.updatedAt, version := r.version }

/-- The name of a relation. -/
def key (r : Relation) : RelationKey :=
  ⟨r.tenant, r.externalId⟩

/-- Created and not deleted. -/
def isCreated (r : Relation) : Bool :=
  r.created && !r.deleted

/-- In the sharing state that follows a failure. -/
def isInErrorState (r : Relation) : Bool :=
  r.sharingState.any RelationSharingState.isError

/-- The stage of a kind.  The output is no stage: it lives on the relation. -/
def stage (r : Relation) : StageType → Option RelationStage
  | .input => r.input
  | .output => none

/-! ## Carrying events out -/

/-- The relation after an event. -/
def apply (r : Relation) (event : RelationEvent) : Relation :=
  let r := { r with version := r.version + 1 }
  match event with
  | .inputCreated _ _ relationType source target at_ =>
    { r with
      input := some
        { relationId := r.id, stage := .input, relationType
          source := source.id, target := target.id, createdAt := at_, updatedAt := at_ }
      sharingState := some (.initial relationType at_)
      createdAt := at_, updatedAt := at_, created := true }
  | .inputUpdated _ relationType source target at_ =>
    { r with
      input := r.input.map fun stage =>
        { stage with relationType, source := source.id, target := target.id, updatedAt := at_ }
      updatedAt := at_ }
  | .sharingReset _ relationType at_ =>
    { r with sharingState := some (.initial relationType at_), updatedAt := at_ }
  | .sharingStarted _ at_ =>
    { r with sharingState := r.sharingState.map (·.pendingAt at_), updatedAt := at_ }
  | .sharingFailed _ message at_ =>
    { r with sharingState := r.sharingState.map (·.errorAt message at_), updatedAt := at_ }
  | .outputPublished _ output =>
    let state := r.sharingState.getD (.initial output.relationType output.updatedAt)
    { r with
      sharingState := some (state.successAt output.updatedAt)
      output := some output, updatedAt := output.updatedAt }
  | .deleted _ at_ =>
    { r with input := none, deleted := true, updatedAt := at_ }

/-- The relation after a list of events. -/
def applyAll (r : Relation) (events : List RelationEvent) : Relation :=
  events.foldl apply r

/-! ## Deciding -/

/-- Refuse a relation that is not there. -/
def ensureExists (r : Relation) : Except DomainError Unit :=
  if r.isCreated then .ok () else .error .notFound

/-- Refuse two ends that share a record or a name. -/
def ensureDistinct (source target : ResolvedPartner) : Except DomainError Unit :=
  if source.id = target.id ∨ source.externalId = target.externalId then
    .error (.validation s!"source and target '{source.externalId.text}' must differ")
  else .ok ()

/-- The sharing state, which a relation that exists should have. -/
def currentSharingState (r : Relation) : Except DomainError RelationSharingState :=
  match r.sharingState with
  | some state => .ok state
  | none => .error (.invariantViolation "relation has no sharing state")

/-- A relation is created once. -/
def handleCreate (r : Relation) (relationType : RelationType) (source target : ResolvedPartner)
    (at_ : Instant) : Except DomainError (List RelationEvent) := do
  if r.created then
    throw (.conflict "relation already exists")
  ensureDistinct source target
  return [.inputCreated r.id r.externalId relationType source target at_]

/-- An update that changes the values of the stage is an event, and so is the
reset of the sharing state, which an error alone also calls for. -/
def handleUpdate (r : Relation) (relationType : RelationType) (source target : ResolvedPartner)
    (at_ : Instant) : Except DomainError (List RelationEvent) := do
  r.ensureExists
  ensureDistinct source target
  match r.input with
  | none => throw .notFound
  | some stage =>
    let changed := decide (StageValues.mk relationType source.id target.id ≠ stage.values)
    let updated := if changed then [.inputUpdated r.id relationType source target at_] else []
    let reset :=
      if changed || r.isInErrorState then [.sharingReset r.id relationType at_] else []
    return updated ++ reset

/-- An output replaces the one before it. -/
def handlePublish (r : Relation) (relationType : RelationType) (sourceBpnl targetBpnl : Bpnl)
    (at_ : Instant) : Except DomainError (List RelationEvent) := do
  r.ensureExists
  if sourceBpnl = targetBpnl then
    throw (.validation s!"source and target BPNL '{sourceBpnl.text}' must differ")
  return [.outputPublished r.id ⟨relationType, sourceBpnl, targetBpnl, at_⟩]

/-- Sharing starts from the first state only. -/
def handleStart (r : Relation) (at_ : Instant) : Except DomainError (List RelationEvent) := do
  r.ensureExists
  let state ← r.currentSharingState
  state.ensureMove .pending
  return [.sharingStarted r.id at_]

/-- A failure has a message that is not blank. -/
def handleFail (r : Relation) (message : String) (at_ : Instant) :
    Except DomainError (List RelationEvent) := do
  r.ensureExists
  if Text.trim message = "" then
    throw (.validation "error message cannot be empty")
  let state ← r.currentSharingState
  state.ensureMove .error
  return [.sharingFailed r.id message at_]

/-- Deletion takes the input stage with it. -/
def handleDelete (r : Relation) (at_ : Instant) : Except DomainError (List RelationEvent) := do
  r.ensureExists
  if r.input.isNone then
    throw .notFound
  return [.deleted r.id at_]

/-- The events that a command leads to. -/
def handle (r : Relation) : RelationCommand → Except DomainError (List RelationEvent)
  | .createInput relationType source target at_ => r.handleCreate relationType source target at_
  | .updateInput relationType source target at_ => r.handleUpdate relationType source target at_
  | .publishOutput relationType sourceBpnl targetBpnl at_ =>
    r.handlePublish relationType sourceBpnl targetBpnl at_
  | .startSharing at_ => r.handleStart at_
  | .failSharing message at_ => r.handleFail message at_
  | .delete at_ => r.handleDelete at_

end Relation

end PartnerRelations
