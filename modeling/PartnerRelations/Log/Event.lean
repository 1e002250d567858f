/-
# `Log.Event` — what calls report about themselves

Each log event has a level, a message and a few named fields, in that order.
The event of a failed call has the failure's text as its only field.
-/
import PartnerRelations.Relation.Kind
import PartnerRelations.Service.Error

namespace PartnerRelations

/-- How urgent a log event is. -/
inductive LogLevel where
  | debug
  | info
  | error
deriving DecidableEq, Repr

/-- The name of a level. -/
def LogLevel.name : LogLevel → String
  | .debug => "DEBUG"
  | .info => "INFO"
  | .error => "ERROR"

/-- The value of a field. -/
inductive LogValue where
  | text (s : String)
  | number (n : Nat)
deriving DecidableEq, Repr

/-- Something worth reporting. -/
inductive LogEvent where
  | inputCreated (externalId : ExternalId) (relationType : RelationType)
  | inputUnchanged (externalId : ExternalId)
  /-- A batch of upserts starts over, for the `attempt`-th time. -/
  | upsertRetried (externalId : ExternalId) (attempt : Nat)
  | claimSkipped (externalId : ExternalId) (reason : String)
  | eventCommitted (eventType : String) (relationId : RelationId)
  | changesCommitted (count : Nat)
  | ambiguousPartner (tenant : TenantBpnl) (externalId : ExternalId) (count : Nat)
  | callFailed (error : RelationError)
deriving DecidableEq, Repr

namespace LogEvent

/-- The level of a log event. -/
def level : LogEvent → LogLevel
  | .inputCreated .. => .debug
  | .inputUnchanged .. => .debug
  | .upsertRetried .. => .info
  | .claimSkipped .. => .debug
  | .eventCommitted .. => .debug
  | .changesCommitted .. => .info
  | .ambiguousPartner .. => .error
  | .callFailed .. => .error

/-- The message of a log event; a failed call has none. -/
def message : LogEvent → Option String
  | .inputCreated .. => some "input relation created"
  | .inputUnchanged .. => some "input relation unchanged"
  | .upsertRetried .. => some "lost insert race, retrying upsert batch"
  | .claimSkipped .. => some "relation changed since selection, skipping claim"
  | .eventCommitted .. => some "relation event committed"
  | .changesCommitted .. => some "relation changes committed"
  | .ambiguousPartner .. => some "ambiguous sharing ledger entry"
  | .callFailed .. => none

/-- The named fields of a log event. -/
def fields : LogEvent → List (String × LogValue)
  | .inputCreated externalId relationType =>
    [("external_id", .text externalId.text), ("relation_type", .text relationType.name)]
  | .inputUnchanged externalId => [("external_id", .text externalId.text)]
  | .upsertRetried externalId attempt =>
    [("external_id", .text externalId.text), ("attempt", .number attempt)]
  | .claimSkipped externalId reason =>
    [("external_id", .text externalId.text), ("reason", .text reason)]
  | .eventCommitted eventType relationId =>
    [("event_type", .text eventType), ("relation_id", .text relationId.text)]
  | .changesCommitted count => [("event_count", .number count)]
  | .ambiguousPartner tenant externalId count =>
    [("tenant", .text tenant.text), ("external_id", .text externalId.text),
      ("count", .number count)]
  | .callFailed error => [("error", .text error.message)]

end LogEvent

end PartnerRelations
