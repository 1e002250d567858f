/-
# `Sql.Statement` — what is sent to the database

Every statement with its arguments, and three readings of it: the name of the
operation that it belongs to, its text, and its parameters in the order of their
places in the text.
-/
import PartnerRelations.Page
import PartnerRelations.Relation.Filter
import PartnerRelations.Sql.Column
import PartnerRelations.Sql.Schema
import PartnerRelations.Store.Change

namespace PartnerRelations.Sql

/-- A statement and its arguments. -/
inductive Statement where
  | migrate
  | upsertPartner (record : SharingStateRecord)
  | partnerRecords (tenant : TenantBpnl) (externalId : ExternalId)
  | partnerRecordsByIds (ids : List SharingStateId)
  | findByKey (key : RelationKey)
  | findStage (id : RelationId) (stage : StageType)
  | findInState (state : RelationSharingStateType) (limit : Nat)
  | insertRelation (relation : Relation)
  | updateRelation (relation : Relation) (expected : ExpectedVersion)
  | deleteRelation (id : RelationId) (expected : ExpectedVersion)
  | writeStage (stage : RelationStage)
  /-- Remove the input stage of a relation. -/
  | deleteStage (id : RelationId)
  | countInputs (tenant : TenantBpnl) (filter : InputRelationFilter)
  | searchInputs (tenant : TenantBpnl) (filter : InputRelationFilter) (page : PageRequest)
  | countOutputs (tenant : TenantBpnl) (filter : OutputRelationFilter)
  | searchOutputs (tenant : TenantBpnl) (filter : OutputRelationFilter) (page : PageRequest)
  | countSharingStates (tenant : TenantBpnl) (filter : SharingStateFilter)
  | searchSharingStates (tenant : TenantBpnl) (filter : SharingStateFilter) (page : PageRequest)
deriving DecidableEq, Repr

/-! ## Pieces of text -/

/-- Names one after the other. -/
def listed (items : List String) : String :=
  ", ".intercalate items

/-- Names of columns of the table that goes by the letter `table`. -/
def qualified (table : String) (columns : List String) : List String :=
  columns.map fun column => s!"{table}.{column}"

/-- The places of the first `count` parameters. -/
def places (count : Nat) : String :=
  listed ((List.range count).map fun k => s!"${k + 1}")

/-- Assign to columns the parameters from place `start` on. -/
def assignments (start : Nat) (columns : List String) : String :=
  listed (columns.zipIdx.map fun (column, k) => s!"{column} = ${k + start}")

/-- Assign to columns what the refused row has there. -/
def replacements (columns : List String) : String :=
  listed (columns.map fun column => s!"{column} = EXCLUDED.{column}")

/-- The columns of a relation and of its input stage, joined. -/
def joinedColumns : String :=
  let stage := joinedStageColumns.map fun (column, joined) =>
    if column = joined then s!"s.{column}" else s!"s.{column} AS {joined}"
  listed (qualified "r" (names relationColumns) ++ stage)

/-- Relations, each with its input stage if it has one. -/
def joinedRelations : String :=
  s!"SELECT {joinedColumns} FROM relations r
    LEFT JOIN relation_stages s ON s.relation_id = r.id AND s.stage = 'Input'"

/-- The inputs that a search wants. -/
def wantedInputs : String :=
  "FROM relations r
    JOIN relation_stages s ON s.relation_id = r.id AND s.stage = 'Input'
    JOIN sharing_states src ON src.id = s.source_id
    JOIN sharing_states tgt ON tgt.id = s.target_id
    WHERE r.tenant_bpnl = $1
        AND (cardinality($2::text[]) = 0 OR r.external_id = ANY($2))
        AND (cardinality($3::text[]) = 0 OR s.relation_type = ANY($3))
        AND (cardinality($4::text[]) = 0 OR src.external_id = ANY($4))
        AND (cardinality($5::text[]) = 0 OR tgt.external_id = ANY($5))
        AND ($6::timestamptz IS NULL OR s.updated_at >= $6)"

/-- The outputs that a search wants. -/
def wantedOutputs : String :=
  "FROM relations r
    WHERE r.tenant_bpnl = $1
        AND r.output_relation_type IS NOT NULL
        AND (cardinality($2::text[]) = 0 OR r.external_id = ANY($2))
        AND (cardinality($3::text[]) = 0 OR r.output_relation_type = ANY($3))
        AND (cardinality($4::text[]) = 0 OR r.output_source_bpnl = ANY($4))
        AND (cardinality($5::text[]) = 0 OR r.output_target_bpnl = ANY($5))
        AND ($6::timestamptz IS NULL OR r.output_updated_at >= $6)"

/-- The sharing states that a search wants. -/
def wantedSharingStates : String :=
  "FROM relations r
    WHERE r.tenant_bpnl = $1
        AND r.sharing_state_type IS NOT NULL
        AND (cardinality($2::text[]) = 0 OR r.external_id = ANY($2))
        AND (cardinality($3::text[]) = 0 OR r.sharing_state_type = ANY($3))"

/-- The order of searches. -/
def inCreationOrder : String :=
  "ORDER BY r.created_at ASC, r.id ASC"

namespace Statement

/-! ## The three readings -/

/-- The operation that a statement belongs to, as failures name it. -/
def operation : Statement → String
  | migrate => "migrate"
  | upsertPartner _ => "upsert_sharing_state"
  | partnerRecords _ _ => "find_partner_records"
  | partnerRecordsByIds _ => "find_partner_records_by_ids"
  | findByKey _ => "find_by_external_id"
  | findStage _ _ => "find_stage"
  | findInState _ _ => "find_by_sharing_state"
  | insertRelation _ => "insert_relation"
  | updateRelation _ _ => "update_relation"
  | deleteRelation _ _ => "delete_relation"
  | writeStage _ => "write_stage"
  | deleteStage _ => "delete_stage"
  | countInputs _ _ => "count_input"
  | searchInputs _ _ _ => "search_input"
  | countOutputs _ _ => "count_output"
  | searchOutputs _ _ _ => "search_output"
  | countSharingStates _ _ => "count_sharing_states"
  | searchSharingStates _ _ _ => "search_sharing_states"

/-- The text of a statement. -/
def sql : Statement → String
  | migrate => schema
  | upsertPartner _ =>
    s!"INSERT INTO sharing_states ({listed (names partnerColumns)})
    VALUES ({places partnerColumns.length})
    ON CONFLICT (id) DO UPDATE SET {replacements (names partnerState)}"
  | partnerRecords _ _ =>
    s!"SELECT {listed (names partnerColumns)} FROM sharing_states
    WHERE tenant_bpnl = $1 AND external_id = $2"
  | partnerRecordsByIds _ =>
    s!"SELECT {listed (names partnerColumns)} FROM sharing_states WHERE id = ANY($1)"
  | findByKey _ => s!"{joinedRelations} WHERE r.tenant_bpnl = $1 AND r.external_id = $2"
  | findStage _ _ =>
    s!"SELECT {listed (names stageColumns)} FROM relation_stages
    WHERE relation_id = $1 AND stage = $2"
  | findInState _ _ =>
    s!"{joinedRelations} WHERE r.sharing_state_type = $1
    ORDER BY r.sharing_updated_at ASC, r.created_at ASC, r.id ASC LIMIT $2"
  | insertRelation _ =>
    s!"INSERT INTO relations (
        {listed (names relationColumns)}
    ) VALUES ({places relationColumns.length})"
  | updateRelation _ _ =>
    let last := updatedRelationColumns.length + 2
    s!"UPDATE relations SET {assignments 2 (names updatedRelationColumns)}
    WHERE id = $1 AND (${last}::bigint IS NULL OR version = ${last})"
  | deleteRelation _ _ =>
    "DELETE FROM relations WHERE id = $1 AND ($2::bigint IS NULL OR version = $2)"
  | writeStage _ =>
    s!"INSERT INTO relation_stages ({listed (names stageColumns)})
    VALUES ({places stageColumns.length})
    ON CONFLICT (relation_id, stage) DO UPDATE SET {replacements (names replacedStageColumns)}"
  | deleteStage _ => "DELETE FROM relation_stages WHERE relation_id = $1 AND stage = 'Input'"
  | countInputs _ _ => s!"SELECT COUNT(*) AS total {wantedInputs}"
  | searchInputs _ _ _ =>
    s!"SELECT r.external_id, s.relation_type, src.external_id AS source_external_id,
    tgt.external_id AS target_external_id, s.created_at, s.updated_at
    {wantedInputs} {inCreationOrder} LIMIT $7 OFFSET $8"
  | countOutputs _ _ => s!"SELECT COUNT(*) AS total {wantedOutputs}"
  | searchOutputs _ _ _ =>
    s!"SELECT r.external_id, r.output_relation_type, r.output_source_bpnl, r.output_target_bpnl,
    r.output_updated_at {wantedOutputs} {inCreationOrder} LIMIT $7 OFFSET $8"
  | countSharingStates _ _ => s!"SELECT COUNT(*) AS total {wantedSharingStates}"
  | searchSharingStates _ _ _ =>
    s!"SELECT r.external_id, r.sharing_state_type, r.sharing_relation_type,
    r.sharing_error_message, r.sharing_updated_at
    {wantedSharingStates} {inCreationOrder} LIMIT $4 OFFSET $5"

/-- A value as a parameter. -/
def value {α : Type} [ColumnType α] (a : α) : Param :=
  .cell (Sql.cell a)

/-- The version that a write expects, NULL for any. -/
def expectedVersion : ExpectedVersion → Param
  | .any => .cell none
  | .exact version => value (word version)

/-- How many rows a page has, and how many come before it. -/
def pageParams (page : PageRequest) : List Param :=
  [value (word page.limit.toNat), value (word page.offset.toNat)]

/-- What a search of inputs wants. -/
def inputParams (tenant : TenantBpnl) (filter : InputRelationFilter) : List Param :=
  [value tenant.text,
   .texts (filter.externalIds.map (·.text)),
   .texts (filter.relationTypes.map (·.name)),
   .texts (filter.sourceExternalIds.map (·.text)),
   .texts (filter.targetExternalIds.map (·.text)),
   .cell (nullable filter.updatedAfter)]

/-- What a search of outputs wants. -/
def outputParams (tenant : TenantBpnl) (filter : OutputRelationFilter) : List Param :=
  [value tenant.text,
   .texts (filter.externalIds.map (·.text)),
   .texts (filter.relationTypes.map (·.name)),
   .texts (filter.sourceBpnls.map (·.text)),
   .texts (filter.targetBpnls.map (·.text)),
   .cell (nullable filter.updatedAfter)]

/-- What a search of sharing states wants. -/
def sharingStateParams (tenant : TenantBpnl) (filter : SharingStateFilter) : List Param :=
  [value tenant.text,
   .texts (filter.externalIds.map (·.text)),
   .texts (filter.stateTypes.map (·.name))]

/-- The parameters of a statement. -/
def params : Statement → List Param
  | migrate => []
  | upsertPartner record => paramsOf partnerColumns record
  | partnerRecords tenant externalId => [value tenant.text, value externalId.text]
  | partnerRecordsByIds ids => [.uuids (ids.map (·.uuid))]
  | findByKey key => [value key.tenant.text, value key.externalId.text]
  | findStage id stage => [value id.uuid, value stage.name]
  | findInState state limit => [value state.name, value (word limit)]
  | insertRelation relation => paramsOf relationColumns relation
  | updateRelation relation expected =>
    value relation.id.uuid :: paramsOf updatedRelationColumns relation
      ++ [expectedVersion expected]
  | deleteRelation id expected => [value id.uuid, expectedVersion expected]
  | writeStage stage => paramsOf stageColumns stage
  | deleteStage id => [value id.uuid]
  | countInputs tenant filter => inputParams tenant filter
  | searchInputs tenant filter page => inputParams tenant filter ++ pageParams page
  | countOutputs tenant filter => outputParams tenant filter
  | searchOutputs tenant filter page => outputParams tenant filter ++ pageParams page
  | countSharingStates tenant filter => sharingStateParams tenant filter
  | searchSharingStates tenant filter page => sharingStateParams tenant filter ++ pageParams page

end Statement

end PartnerRelations.Sql
