/-
# `Json.Report` — how outcomes are reported

A failure is reported by its kind and its text; a failure of the store that ended
a call keeps the store's kind behind a point.  Events, envelopes, tasks, changes
and configurations are reported with what follows from them beside their own
parts.
-/
import PartnerRelations.Config
import PartnerRelations.Json.Exchange
import PartnerRelations.Service.Error

namespace PartnerRelations

/-! ## Failures -/

/-- A failure with a kind and a text. -/
class Failure (ε : Type) where
  kind : ε → String
  message : ε → String

/-- The parts of a reported failure. -/
def Failure.report {ε : Type} [Failure ε] (e : ε) : List (String × Json) :=
  [("error", .str (kind e)), ("message", .str (message e))]

instance : Failure DomainError where
  message := DomainError.message
  kind
    | .validation _ => "Validation"
    | .invariantViolation _ => "InvariantViolation"
    | .invalidId _ => "InvalidId"
    | .notFound => "NotFound"
    | .conflict _ => "Conflict"

instance : Failure StoreError where
  message := StoreError.message
  kind
    | .duplicateExternalId _ _ => "DuplicateExternalId"
    | .concurrency _ => "Concurrency"
    | .corrupt _ => "Corrupt"
    | .backend _ => "Backend"

instance : Failure LedgerError where
  message := LedgerError.message
  kind
    | .ambiguous _ _ _ => "Ambiguous"
    | .store error => Failure.kind error

instance : Failure RelationError where
  message := RelationError.message
  kind
    | .alreadyExists _ => "AlreadyExists"
    | .notFound _ => "NotFound"
    | .sourceNotFound _ => "SourceNotFound"
    | .targetNotFound _ => "TargetNotFound"
    | .invalidRelation _ => "InvalidRelation"
    | .ambiguousReference _ _ => "AmbiguousReference"
    | .invalidTransition _ => "InvalidTransition"
    | .conflict _ => "Conflict"
    | .publish _ => "Publish"
    | .store error => "Store." ++ Failure.kind error

instance : Failure ConfigError where
  message := ConfigError.message
  kind
    | .invalidValue _ _ _ => "InvalidValue"
    | .emptyPages | .defaultAboveMax _ _ | .noConnections => "Inconsistent"

/-! ## Outcomes -/

/-- An event with what its type says about it. -/
def RelationEvent.report (e : RelationEvent) : Json := .obj
  [("eventType", .str e.eventType), ("version", .int e.formVersion),
   ("occurredAt", toJson e.occurredAt), ("payload", toJson e)]

/-- An envelope without its own identifier. -/
def RelationEnvelope.report (e : RelationEnvelope) : Json := .obj
  [("tenant", toJson e.tenant), ("aggregateId", toJson e.aggregateId),
   ("aggregateType", toJson e.aggregateType), ("sequenceNumber", toJson e.sequenceNumber),
   ("eventType", .str e.payload.eventType), ("payload", toJson e.payload)]

/-- A claimed relation, and whether it can be promoted at once. -/
def RelationSharingTask.report (t : RelationSharingTask) : Json := .obj
  [("task", toJson t), ("isResolvable", .bool t.isResolvable)]

/-- The version that a write expects. -/
def ExpectedVersion.report : ExpectedVersion → Json
  | .any => .str ExpectedVersion.any.text
  | .exact version => .int version

/-- A change with what it writes. -/
def RelationChange.report (c : RelationChange) : Json :=
  let change (kind : String) (more : List (String × Json)) : Json :=
    .obj (("kind", .str kind) :: ("relationId", toJson c.relationId) :: more)
  match c with
  | .insert relation => change "Insert" [("relation", relation.toJson)]
  | .update relation expected =>
    change "Update" [("relation", relation.toJson), ("expected", expected.report)]
  | .delete _ expected => change "Delete" [("expected", expected.report)]

/-- A configuration with the settings that follow from it.  The backend is known
once it is open, and only the one in memory is open at once. -/
def GateConfig.report (c : GateConfig) : Json :=
  let log := c.logSettings
  let settings := c.settings
  .obj
    [("databaseUrl", toJson c.databaseUrl), ("dbMaxConnections", toJson c.dbMaxConnections),
     ("maxPageSize", toJson c.maxPageSize), ("defaultPageSize", toJson c.defaultPageSize),
     ("upsertRetries", toJson c.upsertRetries), ("logFormat", toJson c.logFormat),
     ("logSettings", .obj
       [("format", toJson log.format), ("defaultFilter", .str log.defaultFilter)]),
     ("settings", .obj
       [("maxPageSize", toJson settings.maxPageSize),
        ("defaultPageSize", toJson settings.defaultPageSize),
        ("upsertRetries", toJson settings.upsertRetries)]),
     ("backend", match c.backend with
        | .inMemory => .str Backend.inMemory.name
        | .postgres => .null)]

end PartnerRelations
