/-
# `Service.Request` — what is asked of the service, and what it asks

The first part holds the records that callers submit.  The second part is the
service's own side: every collaborator of a call is reached by a `Query`, and
`Query.Answer` is the type of the answer.  The store, the ledger and the bus may
answer with a failure; time, fresh identifiers and the log always answer.
-/
import PartnerRelations.Event.Envelope
import PartnerRelations.Log.Event
import PartnerRelations.Page
import PartnerRelations.Program
import PartnerRelations.Relation.Filter

namespace PartnerRelations

/-! ## Submitted records -/

/-- A new relation of a tenant; without a name it is given one. -/
structure NewInputRelation where
  externalId : Option ExternalId
  relationType : RelationType
  sourceExternalId : ExternalId
  targetExternalId : ExternalId
deriving DecidableEq, Repr

/-- The wanted input of a named relation. -/
structure InputRelationUpsert where
  externalId : ExternalId
  relationType : RelationType
  sourceExternalId : ExternalId
  targetExternalId : ExternalId
deriving DecidableEq, Repr

/-- The promotion of a relation. -/
structure OutputRelationUpsert where
  tenant : TenantBpnl
  externalId : ExternalId
  relationType : RelationType
  sourceBpnl : Bpnl
  targetBpnl : Bpnl
deriving DecidableEq, Repr

/-- A failure to share a relation. -/
structure SharingErrorReport where
  tenant : TenantBpnl
  externalId : ExternalId
  message : String
deriving DecidableEq, Repr

/-! ## Queries to collaborators -/

/-- What a fresh identifier is for. -/
inductive IdUse where
  | relation
  | externalId
  | event
deriving DecidableEq, Repr

/-- One step of a call that somebody else takes. -/
inductive Query where
  | now
  | freshId (use : IdUse)
  | findByKey (key : RelationKey)
  | findInState (state : RelationSharingStateType) (limit : Nat)
  | commit (changes : List RelationChange)
  | searchInput (tenant : TenantBpnl) (filter : InputRelationFilter) (page : PageRequest)
  | searchOutput (tenant : TenantBpnl) (filter : OutputRelationFilter) (page : PageRequest)
  | searchSharingStates (tenant : TenantBpnl) (filter : SharingStateFilter) (page : PageRequest)
  | partnerRecords (tenant : TenantBpnl) (externalId : ExternalId)
  | partnerRecordsByIds (ids : List SharingStateId)
  | publish (envelope : RelationEnvelope)
  | log (event : LogEvent)
deriving Repr

/-- What a step answers.  A bus that fails says why. -/
@[reducible] def Query.Answer : Query → Type
  | .now => Instant
  | .freshId _ => Uuid
  | .findByKey _ => Except StoreError (Option Relation)
  | .findInState _ _ => Except StoreError (List Relation)
  | .commit _ => Except StoreError Unit
  | .searchInput _ _ _ => Except StoreError (Page InputRelation)
  | .searchOutput _ _ _ => Except StoreError (Page OutputRelation)
  | .searchSharingStates _ _ _ => Except StoreError (Page RelationSharingStateView)
  | .partnerRecords _ _ => Except StoreError (List SharingStateRecord)
  | .partnerRecordsByIds _ => Except StoreError (List SharingStateRecord)
  | .publish _ => Except String Unit
  | .log _ => Unit

/-- A computation that may take steps of a call. -/
abbrev Dialogue := Program Query.Answer

/-- Take one step. -/
def Query.ask (q : Query) : Dialogue q.Answer :=
  Program.call q

/-- A dialogue that may fail as a call fails. -/
abbrev Call := ExceptT RelationError Dialogue

namespace Call

/-- A step whose failure becomes the call's. -/
def orFail {ε α : Type} (wrap : ε → RelationError) (p : Dialogue (Except ε α)) : Call α :=
  ExceptT.mk do return (← p).mapError wrap

/-- A decision that was made without asking anybody. -/
def ofExcept {α : Type} (e : Except RelationError α) : Call α :=
  ExceptT.mk (return e)

/-- The present moment. -/
def now : Call Instant :=
  ExceptT.lift (Query.ask .now)

/-- A fresh identifier. -/
def freshId (use : IdUse) : Call Uuid :=
  ExceptT.lift (Query.ask (.freshId use))

/-- Report something. -/
def log (event : LogEvent) : Call Unit :=
  ExceptT.lift (Query.ask (.log event))

/-- Report the failure of a call. -/
def reported {α : Type} (c : Call α) : Call α :=
  ExceptT.mk do
    let outcome ← c.run
    match outcome with
    | .ok _ => pure ()
    | .error error => Query.ask (.log (.callFailed error))
    return outcome

end Call

end PartnerRelations
