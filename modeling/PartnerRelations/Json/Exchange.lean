/-
# `Json.Exchange` — JSON forms of requests, filters, views and pages

What callers submit and what they get back.
-/
import PartnerRelations.Json.Relation
import PartnerRelations.Page
import PartnerRelations.Service.Request

namespace PartnerRelations

/-! ## Pages -/

instance : JsonForm PageRequest where
  toJson r := .obj [("page", toJson r.page), ("size", toJson r.size)]
  ofJson? j := do return { page := ← j.required "page", size := ← j.required "size" }

instance {α : Type} [JsonForm α] : JsonForm (Page α) where
  toJson p := .obj
    [("totalElements", toJson p.totalElements), ("totalPages", toJson p.totalPages),
     ("page", toJson p.page), ("contentSize", toJson p.contentSize),
     ("content", toJson p.content)]
  ofJson? j := do
    return { totalElements := ← j.required "totalElements", totalPages := ← j.required "totalPages"
             page := ← j.required "page", contentSize := ← j.required "contentSize"
             content := ← j.required "content" }

/-! ## Views -/

instance : JsonForm InputRelation where
  toJson r := .obj
    [("externalId", toJson r.externalId), ("relationType", toJson r.relationType),
     ("sourceExternalId", toJson r.sourceExternalId),
     ("targetExternalId", toJson r.targetExternalId), ("createdAt", toJson r.createdAt),
     ("updatedAt", toJson r.updatedAt)]
  ofJson? j := do
    return { externalId := ← j.required "externalId", relationType := ← j.required "relationType"
             sourceExternalId := ← j.required "sourceExternalId"
             targetExternalId := ← j.required "targetExternalId"
             createdAt := ← j.required "createdAt", updatedAt := ← j.required "updatedAt" }

instance : JsonForm OutputRelation where
  toJson r := .obj
    [("externalId", toJson r.externalId), ("relationType", toJson r.relationType),
     ("sourceBpnl", toJson r.sourceBpnl), ("targetBpnl", toJson r.targetBpnl),
     ("updatedAt", toJson r.updatedAt)]
  ofJson? j := do
    return { externalId := ← j.required "externalId", relationType := ← j.required "relationType"
             sourceBpnl := ← j.required "sourceBpnl", targetBpnl := ← j.required "targetBpnl"
             updatedAt := ← j.required "updatedAt" }

instance : JsonForm RelationSharingStateView where
  toJson s := .obj
    [("externalId", toJson s.externalId), ("relationType", toJson s.relationType),
     ("sharingStateType", toJson s.sharingStateType), ("errorMessage", toJson s.errorMessage),
     ("updatedAt", toJson s.updatedAt)]
  ofJson? j := do
    return { externalId := ← j.required "externalId", relationType := ← j.required "relationType"
             sharingStateType := ← j.required "sharingStateType"
             errorMessage := ← j.optional "errorMessage", updatedAt := ← j.required "updatedAt" }

instance : JsonForm PartnerReference where
  toJson p := .obj [("externalId", toJson p.externalId), ("bpnl", toJson p.bpnl)]
  ofJson? j := do return { externalId := ← j.required "externalId", bpnl := ← j.optional "bpnl" }

instance : JsonForm RelationSharingTask where
  toJson t := .obj
    [("tenant", toJson t.tenant), ("externalId", toJson t.externalId),
     ("relationType", toJson t.relationType), ("source", toJson t.source),
     ("target", toJson t.target)]
  ofJson? j := do
    return { tenant := ← j.required "tenant", externalId := ← j.required "externalId"
             relationType := ← j.required "relationType", source := ← j.required "source"
             target := ← j.required "target" }

/-! ## Filters -/

instance : JsonForm InputRelationFilter where
  toJson f := .obj
    [("externalIds", toJson f.externalIds), ("relationTypes", toJson f.relationTypes),
     ("sourceExternalIds", toJson f.sourceExternalIds),
     ("targetExternalIds", toJson f.targetExternalIds), ("updatedAfter", toJson f.updatedAfter)]
  ofJson? j := do
    return { externalIds := ← j.listed "externalIds", relationTypes := ← j.listed "relationTypes"
             sourceExternalIds := ← j.listed "sourceExternalIds"
             targetExternalIds := ← j.listed "targetExternalIds"
             updatedAfter := ← j.optional "updatedAfter" }

instance : JsonForm OutputRelationFilter where
  toJson f := .obj
    [("externalIds", toJson f.externalIds), ("relationTypes", toJson f.relationTypes),
     ("sourceBpnls", toJson f.sourceBpnls), ("targetBpnls", toJson f.targetBpnls),
     ("updatedAfter", toJson f.updatedAfter)]
  ofJson? j := do
    return { externalIds := ← j.listed "externalIds", relationTypes := ← j.listed "relationTypes"
             sourceBpnls := ← j.listed "sourceBpnls", targetBpnls := ← j.listed "targetBpnls"
             updatedAfter := ← j.optional "updatedAfter" }

instance : JsonForm SharingStateFilter where
  toJson f := .obj
    [("externalIds", toJson f.externalIds), ("stateTypes", toJson f.stateTypes)]
  ofJson? j := do
    return { externalIds := ← j.listed "externalIds", stateTypes := ← j.listed "stateTypes" }

/-! ## Requests -/

instance : JsonForm NewInputRelation where
  toJson r := .obj
    [("externalId", toJson r.externalId), ("relationType", toJson r.relationType),
     ("sourceExternalId", toJson r.sourceExternalId),
     ("targetExternalId", toJson r.targetExternalId)]
  ofJson? j := do
    return { externalId := ← j.optional "externalId", relationType := ← j.required "relationType"
             sourceExternalId := ← j.required "sourceExternalId"
             targetExternalId := ← j.required "targetExternalId" }

instance : JsonForm InputRelationUpsert where
  toJson r := .obj
    [("externalId", toJson r.externalId), ("relationType", toJson r.relationType),
     ("sourceExternalId", toJson r.sourceExternalId),
     ("targetExternalId", toJson r.targetExternalId)]
  ofJson? j := do
    return { externalId := ← j.required "externalId", relationType := ← j.required "relationType"
             sourceExternalId := ← j.required "sourceExternalId"
             targetExternalId := ← j.required "targetExternalId" }

instance : JsonForm OutputRelationUpsert where
  toJson r := .obj
    [("tenant", toJson r.tenant), ("externalId", toJson r.externalId),
     ("relationType", toJson r.relationType), ("sourceBpnl", toJson r.sourceBpnl),
     ("targetBpnl", toJson r.targetBpnl)]
  ofJson? j := do
    return { tenant := ← j.required "tenant", externalId := ← j.required "externalId"
             relationType := ← j.required "relationType", sourceBpnl := ← j.required "sourceBpnl"
             targetBpnl := ← j.required "targetBpnl" }

instance : JsonForm SharingErrorReport where
  toJson r := .obj
    [("tenant", toJson r.tenant), ("externalId", toJson r.externalId),
     ("message", toJson r.message)]
  ofJson? j := do
    return { tenant := ← j.required "tenant", externalId := ← j.required "externalId"
             message := ← j.required "message" }

/-! ## Reports -/

/-- A log event as its level and its fields, the message among them. -/
def LogEvent.toJson (e : LogEvent) : Json :=
  let message := e.message.toList.map fun m => ("message", Json.str m)
  let fields := e.fields.map fun (name, value) =>
    (name, match value with
      | .text s => Json.str s
      | .number n => Json.int n)
  .obj [("level", .str e.level.name), ("fields", .obj (message ++ fields))]

end PartnerRelations
