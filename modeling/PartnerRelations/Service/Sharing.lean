/-
# `Service.Sharing` — claiming, promoting and failing relations

A claim selects the relations that wait longest, builds their tasks from the
ledger, and then commits each relation by itself: a relation that somebody else
changed since is skipped, and any other failure ends the claim after the events
so far are published.  Promotions and failure reports are batches.
-/
import PartnerRelations.Service.Batch

namespace PartnerRelations

namespace Service

/-! ## Batches -/

/-- A promotion needs two different legal entities and the relation to be there. -/
def outputEntry : Entry OutputRelationUpsert := fun at_ u request => do
  if request.sourceBpnl = request.targetBpnl then
    throw (.invalidRelation s!"source and target BPNL '{request.sourceBpnl.text}' must differ")
  let (relation, u) ← Call.loadExisting u ⟨request.tenant, request.externalId⟩
  Call.execute u request.externalId relation
    (.publishOutput request.relationType request.sourceBpnl request.targetBpnl at_)

/-- A report needs the relation to be there. -/
def reportEntry : Entry SharingErrorReport := fun at_ u report => do
  let (relation, u) ← Call.loadExisting u ⟨report.tenant, report.externalId⟩
  Call.execute u report.externalId relation (.failSharing report.message at_)

/-- Promote relations, all or none. -/
def upsertOutputs (requests : List OutputRelationUpsert) : Call (List Relation) :=
  .reported (.batch outputEntry requests)

/-- Record failures to share relations, all or none. -/
def reportErrors (reports : List SharingErrorReport) : Call (List Relation) :=
  .reported (.batch reportEntry reports)

/-! ## Claims -/

/-- A relation that is about to be claimed, in a unit of work of its own. -/
structure Claim where
  relation : Relation
  unit : UnitOfWork

/-- Start the sharing of each candidate, without committing anything. -/
def startEach (at_ : Instant) : List Relation → Call (List Claim)
  | [] => return []
  | candidate :: rest => do
    let (relation, unit) ← Call.execute (UnitOfWork.empty.attach candidate) candidate.externalId
      candidate (.startSharing at_)
    let claims ← startEach at_ rest
    return ⟨relation, unit⟩ :: claims

/-- The partner that one end of a relation refers to. -/
def reference (records : Ledger) (relation : Relation) (id : SharingStateId) :
    Except RelationError PartnerReference :=
  match records.last? id with
  | some record => .ok (.ofRecord record)
  | none => .error (.store (.corrupt
      s!"sharing state {id.text} referenced by relation '{relation.externalId.text}' is missing"))

/-- The task of a relation whose ends are among the given records. -/
def task (records : Ledger) (relation : Relation) : Except RelationError RelationSharingTask :=
  match relation.input with
  | none => .error (.notFound relation.externalId)
  | some stage => do
    let source ← reference records relation stage.source
    let target ← reference records relation stage.target
    return { tenant := relation.tenant, externalId := relation.externalId
             relationType := stage.relationType, source, target }

/-- The ends of the relations' input stages, in order. -/
def endIds (relations : List Relation) : List SharingStateId :=
  (relations.filterMap Relation.input).flatMap fun stage => [stage.source, stage.target]

/-- The tasks of relations, their ends looked up in the ledger at once. -/
def tasks (relations : List Relation) : Call (List RelationSharingTask) := do
  let records ← Call.orFail .ofStore (Query.ask (.partnerRecordsByIds (endIds relations)))
  Call.ofExcept (relations.mapM (task records))

/-- Commit claims one by one.  `events` and `claimed` hold what the claims before
led to. -/
def commitEach (events : List RelationEnvelope) (claimed : List RelationSharingTask) :
    List (Claim × RelationSharingTask) → Call (List RelationSharingTask)
  | [] => do
    Call.publish events
    return claimed
  | (claim, task) :: rest => do
    match ← ExceptT.lift claim.unit.commit with
    | .ok committed => commitEach (events ++ committed) (claimed ++ [task]) rest
    | .error (.concurrency reason) =>
      Call.log (.claimSkipped claim.relation.externalId reason)
      commitEach events claimed rest
    | .error error =>
      Call.publish events
      throw (.ofStore error)

/-- Claim at most `limit` relations for sharing, those that wait longest. -/
def claim (limit : Nat) : Call (List RelationSharingTask) :=
  .reported do
    if limit = 0 then return []
    let at_ ← Call.now
    let candidates ← Call.orFail .ofStore (Query.ask (.findInState .initial limit))
    let claims ← startEach at_ candidates
    let tasks ← tasks (claims.map Claim.relation)
    commitEach [] [] (claims.zip tasks)

end Service

end PartnerRelations
