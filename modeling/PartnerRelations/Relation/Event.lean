/-
# `Relation.Event` — what can happen to a relation, and what can be asked of it

A command asks for a change at a moment; an event states a change that was
decided.  Events carry everything that is needed to apply them.
-/
import PartnerRelations.Relation.Stage
import PartnerRelations.Relation.Sharing

namespace PartnerRelations

/-- A request to change a relation. -/
inductive RelationCommand where
  | createInput (relationType : RelationType) (source target : ResolvedPartner)
      (occurredAt : Instant)
  | updateInput (relationType : RelationType) (source target : ResolvedPartner)
      (occurredAt : Instant)
  | publishOutput (relationType : RelationType) (sourceBpnl targetBpnl : Bpnl)
      (occurredAt : Instant)
  | startSharing (occurredAt : Instant)
  | failSharing (message : String) (occurredAt : Instant)
  | delete (occurredAt : Instant)
deriving DecidableEq, Repr

/-- The moment of a command. -/
def RelationCommand.occurredAt : RelationCommand → Instant
  | .createInput _ _ _ at_ => at_
  | .updateInput _ _ _ at_ => at_
  | .publishOutput _ _ _ at_ => at_
  | .startSharing at_ => at_
  | .failSharing _ at_ => at_
  | .delete at_ => at_

/-- A change of a relation that was decided. -/
inductive RelationEvent where
  | inputCreated (relationId : RelationId) (externalId : ExternalId) (relationType : RelationType)
      (source target : ResolvedPartner) (occurredAt : Instant)
  /-- The values of the input stage changed. -/
  | inputUpdated (relationId : RelationId) (relationType : RelationType)
      (source target : ResolvedPartner) (occurredAt : Instant)
  /-- Back to the first sharing state, to be processed again. -/
  | sharingReset (relationId : RelationId) (relationType : RelationType) (occurredAt : Instant)
  | sharingStarted (relationId : RelationId) (occurredAt : Instant)
  | sharingFailed (relationId : RelationId) (message : String) (occurredAt : Instant)
  | outputPublished (relationId : RelationId) (output : RelationOutput)
  | deleted (relationId : RelationId) (occurredAt : Instant)
deriving DecidableEq, Repr

namespace RelationEvent

/-- The stable name of an event's type. -/
def eventType : RelationEvent → String
  | .inputCreated .. => "relations.input.created"
  | .inputUpdated .. => "relations.input.updated"
  | .sharingReset .. => "relations.sharing.reset"
  | .sharingStarted .. => "relations.sharing.started"
  | .sharingFailed .. => "relations.sharing.failed"
  | .outputPublished .. => "relations.output.published"
  | .deleted .. => "relations.relation.deleted"

/-- The version of an event's form. -/
def formVersion : RelationEvent → Nat :=
  fun _ => 1

/-- The moment of an event. -/
def occurredAt : RelationEvent → Instant
  | .inputCreated _ _ _ _ _ at_ => at_
  | .inputUpdated _ _ _ _ at_ => at_
  | .sharingReset _ _ at_ => at_
  | .sharingStarted _ at_ => at_
  | .sharingFailed _ _ at_ => at_
  | .outputPublished _ output => output.updatedAt
  | .deleted _ at_ => at_

/-- The relation that an event names. -/
def relationId : RelationEvent → RelationId
  | .inputCreated id .. => id
  | .inputUpdated id .. => id
  | .sharingReset id .. => id
  | .sharingStarted id _ => id
  | .sharingFailed id _ _ => id
  | .outputPublished id _ => id
  | .deleted id _ => id

end RelationEvent

end PartnerRelations
