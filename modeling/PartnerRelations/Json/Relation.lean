/-
# `Json.Relation` — JSON forms of relations, their parts and their events

Names of fields are written with inner capitals, but those of a sharing state
and of an envelope with underscores.  An event is an object with one field,
which is named for the kind of event.
-/
import PartnerRelations.Event.Envelope
import PartnerRelations.Json.Form
import PartnerRelations.Relation.Basic

namespace PartnerRelations

instance : JsonForm RelationStage where
  toJson s := .obj
    [("relationId", toJson s.relationId), ("stage", toJson s.stage),
     ("relationType", toJson s.relationType), ("source", toJson s.source),
     ("target", toJson s.target), ("createdAt", toJson s.createdAt),
     ("updatedAt", toJson s.updatedAt)]
  ofJson? j := do
    return { relationId := ← j.required "relationId", stage := ← j.required "stage"
             relationType := ← j.required "relationType", source := ← j.required "source"
             target := ← j.required "target", createdAt := ← j.required "createdAt"
             updatedAt := ← j.required "updatedAt" }

instance : JsonForm RelationOutput where
  toJson o := .obj
    [("relationType", toJson o.relationType), ("sourceBpnl", toJson o.sourceBpnl),
     ("targetBpnl", toJson o.targetBpnl), ("updatedAt", toJson o.updatedAt)]
  ofJson? j := do
    return { relationType := ← j.required "relationType", sourceBpnl := ← j.required "sourceBpnl"
             targetBpnl := ← j.required "targetBpnl", updatedAt := ← j.required "updatedAt" }

instance : JsonForm RelationSharingState where
  toJson s := .obj
    [("state_type", toJson s.stateType), ("relation_type", toJson s.relationType),
     ("error_message", toJson s.errorMessage), ("updated_at", toJson s.updatedAt)]
  ofJson? j := do
    return { stateType := ← j.required "state_type", relationType := ← j.required "relation_type"
             errorMessage := ← j.optional "error_message", updatedAt := ← j.required "updated_at" }

instance : JsonForm ResolvedPartner where
  toJson p := .obj [("id", toJson p.id), ("externalId", toJson p.externalId)]
  ofJson? j := do return { id := ← j.required "id", externalId := ← j.required "externalId" }

instance : JsonForm SharingStateRecord where
  toJson r := .obj
    [("id", toJson r.id), ("tenant", toJson r.tenant), ("externalId", toJson r.externalId),
     ("sharingStateType", toJson r.sharingStateType), ("bpnl", toJson r.bpnl),
     ("updatedAt", toJson r.updatedAt)]
  ofJson? j := do
    return { id := ← j.required "id", tenant := ← j.required "tenant"
             externalId := ← j.required "externalId"
             sharingStateType := ← j.required "sharingStateType", bpnl := ← j.optional "bpnl"
             updatedAt := ← j.required "updatedAt" }

/-! ## Events -/

namespace RelationEvent

/-- The field that an event of this kind is written under. -/
def tag : RelationEvent → String
  | .inputCreated .. => "InputRelationCreated"
  | .inputUpdated .. => "InputRelationUpdated"
  | .sharingReset .. => "SharingStateReset"
  | .sharingStarted .. => "SharingStarted"
  | .sharingFailed .. => "SharingFailed"
  | .outputPublished .. => "OutputPublished"
  | .deleted .. => "RelationDeleted"

/-- The fields of an event. -/
def body : RelationEvent → Json
  | .inputCreated relationId externalId relationType source target occurredAt => .obj
    [("relationId", toJson relationId), ("externalId", toJson externalId),
     ("relationType", toJson relationType), ("source", toJson source),
     ("target", toJson target), ("occurredAt", toJson occurredAt)]
  | .inputUpdated relationId relationType source target occurredAt => .obj
    [("relationId", toJson relationId), ("relationType", toJson relationType),
     ("source", toJson source), ("target", toJson target), ("occurredAt", toJson occurredAt)]
  | .sharingReset relationId relationType occurredAt => .obj
    [("relationId", toJson relationId), ("relationType", toJson relationType),
     ("occurredAt", toJson occurredAt)]
  | .sharingStarted relationId occurredAt => .obj
    [("relationId", toJson relationId), ("occurredAt", toJson occurredAt)]
  | .sharingFailed relationId message occurredAt => .obj
    [("relationId", toJson relationId), ("message", toJson message),
     ("occurredAt", toJson occurredAt)]
  | .outputPublished relationId output => .obj
    [("relationId", toJson relationId), ("output", toJson output)]
  | .deleted relationId occurredAt => .obj
    [("relationId", toJson relationId), ("occurredAt", toJson occurredAt)]

/-- The event of a kind with the given fields. -/
def ofBody? (tag : String) (j : Json) : Option RelationEvent := do
  match tag with
  | "InputRelationCreated" =>
    return .inputCreated (← j.required "relationId") (← j.required "externalId")
      (← j.required "relationType") (← j.required "source") (← j.required "target")
      (← j.required "occurredAt")
  | "InputRelationUpdated" =>
    return .inputUpdated (← j.required "relationId") (← j.required "relationType")
      (← j.required "source") (← j.required "target") (← j.required "occurredAt")
  | "SharingStateReset" =>
    return .sharingReset (← j.required "relationId") (← j.required "relationType")
      (← j.required "occurredAt")
  | "SharingStarted" =>
    return .sharingStarted (← j.required "relationId") (← j.required "occurredAt")
  | "SharingFailed" =>
    return .sharingFailed (← j.required "relationId") (← j.required "message")
      (← j.required "occurredAt")
  | "OutputPublished" =>
    return .outputPublished (← j.required "relationId") (← j.required "output")
  | "RelationDeleted" => return .deleted (← j.required "relationId") (← j.required "occurredAt")
  | _ => none

end RelationEvent

instance : JsonForm RelationEvent where
  toJson e := .obj [(e.tag, e.body)]
  ofJson?
    | .obj [(tag, body)] => RelationEvent.ofBody? tag body
    | _ => none

instance {ε : Type} [JsonForm ε] : JsonForm (EventEnvelope ε) where
  toJson e := .obj
    [("event_id", toJson e.eventId), ("tenant", toJson e.tenant),
     ("aggregate_id", toJson e.aggregateId), ("aggregate_type", toJson e.aggregateType),
     ("sequence_number", toJson e.sequenceNumber), ("payload", toJson e.payload)]
  ofJson? j := do
    return { eventId := ← j.required "event_id", tenant := ← j.required "tenant"
             aggregateId := ← j.required "aggregate_id"
             aggregateType := ← j.required "aggregate_type"
             sequenceNumber := ← j.required "sequence_number", payload := ← j.required "payload" }

/-! ## Relations and commands

The stored form of a relation is written with the facts that are read off it.
A command names its kind in the field `type`. -/

instance : JsonForm RelationSnapshot where
  toJson s := .obj
    [("id", toJson s.id), ("tenant", toJson s.tenant), ("externalId", toJson s.externalId),
     ("input", toJson s.input), ("sharingState", toJson s.sharingState),
     ("output", toJson s.output), ("createdAt", toJson s.createdAt),
     ("updatedAt", toJson s.updatedAt), ("version", toJson s.version)]
  ofJson? j := do
    return { id := ← j.required "id", tenant := ← j.required "tenant"
             externalId := ← j.required "externalId", input := ← j.optional "input"
             sharingState := ← j.optional "sharingState", output := ← j.optional "output"
             createdAt := ← j.required "createdAt", updatedAt := ← j.required "updatedAt"
             version := ← j.required "version" }

/-- A relation as it is shown: its stored form, and whether it exists, was deleted,
and failed to be shared. -/
def Relation.toJson (r : Relation) : Json :=
  match JsonForm.toJson r.snapshot with
  | .obj fields => .obj (fields ++
      [("isCreated", .bool r.isCreated), ("isDeleted", .bool r.deleted),
       ("isInErrorState", .bool r.isInErrorState)])
  | j => j

/-- Read a command. -/
def RelationCommand.ofJson? (j : Json) : Option RelationCommand := do
  let at_ ← j.required "occurredAt"
  match ← (j.required "type" : Option String) with
  | "CreateInputRelation" =>
    return .createInput (← j.required "relationType") (← j.required "source")
      (← j.required "target") at_
  | "UpdateInputRelation" =>
    return .updateInput (← j.required "relationType") (← j.required "source")
      (← j.required "target") at_
  | "PublishOutput" =>
    return .publishOutput (← j.required "relationType") (← j.required "sourceBpnl")
      (← j.required "targetBpnl") at_
  | "StartSharing" => return .startSharing at_
  | "FailSharing" => return .failSharing (← j.required "message") at_
  | "DeleteRelation" => return .delete at_
  | _ => none

end PartnerRelations
