/-
# `Service.Input` — creating, updating and deleting inputs

An input names its two ends by the tenant's names for two partners.  The names
have to differ, and the ledger has to know exactly one record for each; the
source is looked up before the target.  An upsert that finds its name taken by
the time it commits starts over, and then sees the relation that took it.
-/
import PartnerRelations.Service.Batch
import PartnerRelations.Service.Settings

namespace PartnerRelations

namespace Service

/-! ## Resolving the ends -/

/-- Refuse one name for both ends. -/
def ensureDistinct (source target : ExternalId) : Call Unit :=
  if source = target then
    throw (.invalidRelation s!"source and target '{source.text}' must differ")
  else return ()

/-- The one ledger record of a partner, if there is one. -/
def lookup (tenant : TenantBpnl) (externalId : ExternalId) :
    Dialogue (Except LedgerError (Option SharingStateRecord)) := do
  match ← Query.ask (.partnerRecords tenant externalId) with
  | .error error => return .error (.store error)
  | .ok records =>
    match Ledger.only tenant externalId records with
    | .ok found => return .ok found
    | .error error =>
      Query.ask (.log (.ambiguousPartner tenant externalId records.length))
      return .error error

/-- The partner of a name; `missing` is the failure when the ledger does not know
it. -/
def resolve (tenant : TenantBpnl) (missing : ExternalId → RelationError)
    (externalId : ExternalId) : Call ResolvedPartner := do
  match ← Call.orFail .ofLedger (lookup tenant externalId) with
  | some record => return record.resolved
  | none => throw (missing externalId)

/-- The two partners of an input. -/
def resolveEnds (tenant : TenantBpnl) (source target : ExternalId) :
    Call (ResolvedPartner × ResolvedPartner) := do
  ensureDistinct source target
  let source ← resolve tenant .sourceNotFound source
  let target ← resolve tenant .targetNotFound target
  return (source, target)

/-! ## One entry -/

/-- Create a relation under a name that the unit of work sees as free. -/
def createEntry (tenant : TenantBpnl) : Entry InputRelationUpsert := fun at_ u request => do
  let (source, target) ← resolveEnds tenant request.sourceExternalId request.targetExternalId
  let id ← Call.freshId .relation
  let outcome ← Call.execute u request.externalId (.empty ⟨id⟩ tenant request.externalId)
    (.createInput request.relationType source target at_)
  Call.log (.inputCreated request.externalId request.relationType)
  return outcome

/-- Update a relation that is there. -/
def updateEntry (existing : Relation) : Entry InputRelationUpsert := fun at_ u request => do
  let (source, target) ←
    resolveEnds existing.tenant request.sourceExternalId request.targetExternalId
  let (relation, u) ← Call.execute u request.externalId existing
    (.updateInput request.relationType source target at_)
  if relation.version = existing.version then
    Call.log (.inputUnchanged request.externalId)
  return (relation, u)

/-- A new relation needs a free name, or is given one. -/
def newEntry (tenant : TenantBpnl) : Entry NewInputRelation := fun at_ u request => do
  let (externalId, u) ← match request.externalId with
    | some externalId => do
      match ← Call.load u ⟨tenant, externalId⟩ with
      | (some _, _) => throw (.alreadyExists externalId)
      | (none, u) => pure (externalId, u)
    | none => do
      let id ← Call.freshId .externalId
      pure (Key.ofUuid .externalId id, u)
  createEntry tenant at_ u
    ⟨externalId, request.relationType, request.sourceExternalId, request.targetExternalId⟩

/-- An upsert creates what is not there and updates what is. -/
def upsertEntry (tenant : TenantBpnl) : Entry InputRelationUpsert := fun at_ u request => do
  match ← Call.load u ⟨tenant, request.externalId⟩ with
  | (some existing, u) => updateEntry existing at_ u request
  | (none, u) => createEntry tenant at_ u request

/-- An update needs the relation to be there. -/
def existingEntry (tenant : TenantBpnl) : Entry InputRelationUpsert := fun at_ u request => do
  let (existing, u) ← Call.loadExisting u ⟨tenant, request.externalId⟩
  updateEntry existing at_ u request

/-- A deletion needs the relation to be there. -/
def deleteEntry (tenant : TenantBpnl) : Entry ExternalId := fun at_ u externalId => do
  let (relation, u) ← Call.loadExisting u ⟨tenant, externalId⟩
  Call.execute u externalId relation (.delete at_)

/-! ## The calls -/

/-- Create new relations, all or none. -/
def create (tenant : TenantBpnl) (requests : List NewInputRelation) : Call (List Relation) :=
  .reported (.batch (newEntry tenant) requests)

/-- Update relations that are there, all or none. -/
def update (tenant : TenantBpnl) (requests : List InputRelationUpsert) : Call (List Relation) :=
  .reported (.batch (existingEntry tenant) requests)

/-- Delete a relation. -/
def delete (tenant : TenantBpnl) (externalId : ExternalId) : Call Unit :=
  .reported do
    let _ ← Call.batch (deleteEntry tenant) [externalId]

/-- Try a batch of upserts, again for as long as its names are taken under it and
`retries` are left; `attempt` counts the tries that lost. -/
def upsertAttempts (tenant : TenantBpnl) (requests : List InputRelationUpsert) :
    (retries attempt : Nat) → Call (List Relation)
  | 0, _ => .batch (upsertEntry tenant) requests
  | retries + 1, attempt => ExceptT.mk do
    match ← (Call.batch (upsertEntry tenant) requests).run with
    | .error (.alreadyExists externalId) =>
      Query.ask (.log (.upsertRetried externalId (attempt + 1)))
      (upsertAttempts tenant requests retries (attempt + 1)).run
    | outcome => return outcome

/-- Create or update relations by name, all or none. -/
def upsert (settings : ServiceSettings) (tenant : TenantBpnl)
    (requests : List InputRelationUpsert) : Call (List Relation) :=
  .reported (upsertAttempts tenant requests settings.upsertRetries.toNat 0)

end Service

end PartnerRelations
