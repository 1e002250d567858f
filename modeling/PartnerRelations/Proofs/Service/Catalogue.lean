/-
# `Proofs.Service.Catalogue` — the calls of the service as data

A statement about all calls ranges over a type.  `BatchKind` are the five calls
that take a list of entries, each with what it does with one entry; `WriteCall`
adds the deletion, which handles one; `ServiceCall` adds claims and reads.
`call` is the dialogue that the service holds, and is the service's own
definition case by case.
-/
import PartnerRelations.Service.Find
import PartnerRelations.Service.Input
import PartnerRelations.Service.Sharing

namespace PartnerRelations

/-- The calls that take a batch of entries. -/
inductive BatchKind where
  | create (tenant : TenantBpnl)
  | upsert (settings : ServiceSettings) (tenant : TenantBpnl)
  | update (tenant : TenantBpnl)
  | output
  | report

namespace BatchKind

/-- The entries of a batch. -/
@[reducible] def Request : BatchKind → Type
  | .create _ => NewInputRelation
  | .upsert _ _ => InputRelationUpsert
  | .update _ => InputRelationUpsert
  | .output => OutputRelationUpsert
  | .report => SharingErrorReport

/-- The handling of one entry. -/
def entry : (kind : BatchKind) → Entry kind.Request
  | .create tenant => Service.newEntry tenant
  | .upsert _ tenant => Service.upsertEntry tenant
  | .update tenant => Service.existingEntry tenant
  | .output => Service.outputEntry
  | .report => Service.reportEntry

/-- The whole call. -/
def call : (kind : BatchKind) → List kind.Request → Call (List Relation)
  | .create tenant, requests => Service.create tenant requests
  | .upsert settings tenant, requests => Service.upsert settings tenant requests
  | .update tenant, requests => Service.update tenant requests
  | .output, requests => Service.upsertOutputs requests
  | .report, requests => Service.reportErrors requests

/-- How often the call starts over when its names are taken under it. -/
def retries : BatchKind → Nat
  | .upsert settings _ => settings.upsertRetries.toNat
  | _ => 0

/-- The name that an entry gives for its relation, if it gives one. -/
def named : (kind : BatchKind) → kind.Request → Option ExternalId
  | .create _, request => request.externalId
  | .upsert _ _, request => some request.externalId
  | .update _, request => some request.externalId
  | .output, request => some request.externalId
  | .report, request => some request.externalId

/-- The tenant whose relation an entry is about. -/
def tenant : (kind : BatchKind) → kind.Request → TenantBpnl
  | .create tenant, _ => tenant
  | .upsert _ tenant, _ => tenant
  | .update tenant, _ => tenant
  | .output, request => request.tenant
  | .report, request => request.tenant

end BatchKind

/-- The calls that handle entries in one unit of work. -/
inductive WriteCall where
  | batch (kind : BatchKind) (requests : List kind.Request)
  | delete (tenant : TenantBpnl) (externalId : ExternalId)

namespace WriteCall

/-- What a call returns. -/
@[reducible] def Result : WriteCall → Type
  | .batch _ _ => List Relation
  | .delete _ _ => Unit

/-- The whole call. -/
def call : (c : WriteCall) → Call c.Result
  | .batch kind requests => kind.call requests
  | .delete tenant externalId => Service.delete tenant externalId

/-- The part of a call before its commit: the entries, one after the other in
one unit of work. -/
def handling : WriteCall → Instant → Call (List Relation × UnitOfWork)
  | .batch kind requests, at_ => Call.handleEach kind.entry at_ .empty requests
  | .delete tenant externalId, at_ =>
    Call.handleEach (Service.deleteEntry tenant) at_ .empty [externalId]

/-- The names that the entries give. -/
def named : WriteCall → List ExternalId
  | .batch kind requests => requests.filterMap kind.named
  | .delete _ externalId => [externalId]

end WriteCall

/-- All calls of the service. -/
inductive ServiceCall where
  | write (c : WriteCall)
  | claim (limit : Nat)
  | find (tenant : TenantBpnl) (externalId : ExternalId)
  | findInputs (settings : ServiceSettings) (tenant : TenantBpnl) (filter : InputRelationFilter)
      (page : PageRequest)
  | findOutputs (settings : ServiceSettings) (tenant : TenantBpnl) (filter : OutputRelationFilter)
      (page : PageRequest)
  | findSharingStates (settings : ServiceSettings) (tenant : TenantBpnl)
      (filter : SharingStateFilter) (page : PageRequest)

namespace ServiceCall

/-- What a call returns. -/
@[reducible] def Result : ServiceCall → Type
  | .write c => c.Result
  | .claim _ => List RelationSharingTask
  | .find _ _ => Option Relation
  | .findInputs _ _ _ _ => Page InputRelation
  | .findOutputs _ _ _ _ => Page OutputRelation
  | .findSharingStates _ _ _ _ => Page RelationSharingStateView

/-- The whole call. -/
def call : (c : ServiceCall) → Call c.Result
  | .write c => c.call
  | .claim limit => Service.claim limit
  | .find tenant externalId => Service.find tenant externalId
  | .findInputs settings tenant filter page => Service.findInputs settings tenant filter page
  | .findOutputs settings tenant filter page => Service.findOutputs settings tenant filter page
  | .findSharingStates settings tenant filter page =>
    Service.findSharingStates settings tenant filter page

/-- The names that the call gives to relations. -/
def named : ServiceCall → List ExternalId
  | .write c => c.named
  | _ => []

end ServiceCall

end PartnerRelations
