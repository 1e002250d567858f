/-
# `Sql.Store` — relations and the ledger in a database

Every operation of the store and of the ledger as a session.  A commit writes
all its changes in one transaction: each change is one statement on the relation,
and for a relation that stays one on its input stage.  The first statement that
fails ends the transaction, and so does a relation that was to be updated or
deleted and was not found at its expected version.  Of the refusals only that of
an inserted relation's name is told from the others.

A search counts first and then fetches its page.
-/
import PartnerRelations.Service.Request
import PartnerRelations.Sql.Session

namespace PartnerRelations.Sql

/-! ## Connecting -/

/-- Open the first connection. -/
def connect : Operation Unit := do
  let _ ← Operation.request "connect" .connect

/-- Create the tables that are missing. -/
def migrate : Operation Unit := do
  let _ ← Operation.execute .migrate

/-- Open a database and bring it to the state that the other operations need. -/
def prepare : Operation Unit := do
  connect
  migrate

/-! ## The ledger -/

/-- Write a partner's record in place of the one with its identifier. -/
def upsertPartner (record : SharingStateRecord) : Operation Unit := do
  let _ ← Operation.execute (.upsertPartner record)

/-- The records of a partner. -/
def partnerRecords (tenant : TenantBpnl) (externalId : ExternalId) :
    Operation (List SharingStateRecord) := do
  Operation.ofRead ((← Operation.rows (.partnerRecords tenant externalId)).mapM readPartner)

/-- The records with one of the given identifiers; without any, nothing is asked. -/
def partnerRecordsByIds (ids : List SharingStateId) : Operation (List SharingStateRecord) := do
  if ids.isEmpty then return []
  Operation.ofRead ((← Operation.rows (.partnerRecordsByIds ids)).mapM readPartner)

/-! ## Reading relations -/

/-- The relation under a name. -/
def find (key : RelationKey) : Operation (Option Relation) := do
  Operation.ofRead ((← Operation.rows (.findByKey key)).head?.mapM readRelation)

/-- A stage of a relation. -/
def findStage (id : RelationId) (stage : StageType) : Operation (Option RelationStage) := do
  Operation.ofRead ((← Operation.rows (.findStage id stage)).head?.mapM readStage)

/-- At most `limit` relations in a sharing state, those that wait longest. -/
def findInState (state : RelationSharingStateType) (limit : Nat) : Operation (List Relation) := do
  Operation.ofRead ((← Operation.rows (.findInState state limit)).mapM readRelation)

/-- A page of what `search` finds, after `count` has said how much that is.  A
count below zero is taken for zero. -/
def searched {α : Type} (page : PageRequest) (count search : Statement) (read : Row → Read α) :
    Operation (Page α) := do
  let total ← Operation.ofRead ((← Operation.firstRow count).required Int "total")
  let content ← Operation.ofRead ((← Operation.rows search).mapM read)
  return .ofContent page total.toNat content

/-- A page of a tenant's inputs. -/
def searchInputs (tenant : TenantBpnl) (filter : InputRelationFilter) (page : PageRequest) :
    Operation (Page InputRelation) :=
  searched page (.countInputs tenant filter) (.searchInputs tenant filter page) readInput

/-- A page of a tenant's outputs. -/
def searchOutputs (tenant : TenantBpnl) (filter : OutputRelationFilter) (page : PageRequest) :
    Operation (Page OutputRelation) :=
  searched page (.countOutputs tenant filter) (.searchOutputs tenant filter page) readOutputView

/-- A page of a tenant's sharing states. -/
def searchSharingStates (tenant : TenantBpnl) (filter : SharingStateFilter) (page : PageRequest) :
    Operation (Page RelationSharingStateView) :=
  searched page (.countSharingStates tenant filter) (.searchSharingStates tenant filter page)
    readSharingStateView

/-! ## Writing relations -/

/-- The statement that leaves a relation's input stage as the relation has it. -/
def stageStatement (relation : Relation) : Statement :=
  match relation.input with
  | some stage => .writeStage stage
  | none => .deleteStage relation.id

/-- The statements of a change. -/
def statements : RelationChange → List Statement
  | .insert relation => [.insertRelation relation, stageStatement relation]
  | .update relation expected => [.updateRelation relation expected, stageStatement relation]
  | .delete id expected => [.deleteRelation id expected]

/-- The code of a refusal because a row's key is taken. -/
def uniqueViolation : String := "23505"

/-- A write that found no row to change is a failure. -/
def ensureFound (id : RelationId) (expected : ExpectedVersion) (outcome : Outcome) :
    Except StoreError Unit :=
  if outcome.affected = 0 then
    .error (.concurrency s!"relation {id.text}: expected {expected.text}")
  else .ok ()

/-- Whether a statement of a transaction went through. -/
def Statement.judge : Statement → Reply → Except StoreError Unit
  | s, .error fault =>
    match s, fault with
    | insertRelation relation, .refused code _ =>
      if code = uniqueViolation then
        .error (.duplicateExternalId relation.tenant relation.externalId)
      else .error (fault.error s.operation)
    | _, _ => .error (fault.error s.operation)
  | updateRelation relation expected, .ok outcome => ensureFound relation.id expected outcome
  | deleteRelation id expected, .ok outcome => ensureFound id expected outcome
  | _, .ok _ => .ok ()

/-- The connection was lost. -/
def Reply.isLost : Reply → Bool
  | .error .lost => true
  | _ => false

/-- End a transaction that failed after `reply`.  It is rolled back unless the
connection is gone, and the transaction with it. -/
def abandon (reply : Reply) (error : StoreError) : Session (Except StoreError Unit) := do
  if !reply.isLost then
    let _ ← Program.call .rollback
  return .error error

/-- Carry out the statements of a transaction one after the other, and then commit
it. -/
def carryOut : List Statement → Session (Except StoreError Unit)
  | [] => do
    let reply ← Program.call .commit
    match reply with
    | .ok _ => return .ok ()
    | .error fault => abandon reply (fault.error "commit_transaction")
  | s :: rest => do
    let reply ← Program.call (.execute s)
    match s.judge reply with
    | .ok () => carryOut rest
    | .error error => abandon reply error

/-- Make a batch of changes, all or none; without changes, nothing is asked. -/
def commit (changes : List RelationChange) : Session (Except StoreError Unit) := do
  if changes.isEmpty then return .ok ()
  match ← Program.call .begin with
  | .ok _ => carryOut (changes.flatMap statements)
  | .error fault => return .error (fault.error "begin_transaction")

/-! ## Answering queries -/

/-- The session that answers a query; none for what no store answers. -/
def answer? : (q : Query) → Option (Session q.Answer)
  | .findByKey key => some (find key).run
  | .findInState state limit => some (findInState state limit).run
  | .commit changes => some (commit changes)
  | .searchInput tenant filter page => some (searchInputs tenant filter page).run
  | .searchOutput tenant filter page => some (searchOutputs tenant filter page).run
  | .searchSharingStates tenant filter page => some (searchSharingStates tenant filter page).run
  | .partnerRecords tenant externalId => some (partnerRecords tenant externalId).run
  | .partnerRecordsByIds ids => some (partnerRecordsByIds ids).run
  | .now | .freshId _ | .publish _ | .log _ => none

end PartnerRelations.Sql
