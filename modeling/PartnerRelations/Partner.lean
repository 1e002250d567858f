/-
# `Partner` — business partners in the sharing ledger

The ledger says of each business partner of a tenant how far the partner has
come in being resolved, and under which number once it is.  Relations refer to a
partner by the identifier of its record.
-/
import PartnerRelations.Enumeration
import PartnerRelations.Instant.Basic
import PartnerRelations.Key

namespace PartnerRelations

/-- How far a business partner has come in being resolved. -/
inductive SharingStateType where
  | initial
  | ready
  | pending
  | success
  | error
deriving DecidableEq, Repr

/-- The name of a partner's state. -/
def SharingStateType.name : SharingStateType → String
  | .initial => "Initial"
  | .ready => "Ready"
  | .pending => "Pending"
  | .success => "Success"
  | .error => "Error"

instance : Enumeration SharingStateType where
  all := [.initial, .ready, .pending, .success, .error]
  name := SharingStateType.name
  noun := "sharing state type"

/-- A partner after its name was resolved: the record that stages refer to. -/
structure ResolvedPartner where
  id : SharingStateId
  externalId : ExternalId
deriving DecidableEq, Repr

/-- The ledger's record of one business partner. -/
structure SharingStateRecord where
  id : SharingStateId
  tenant : TenantBpnl
  externalId : ExternalId
  sharingStateType : SharingStateType
  /-- Known once the partner is resolved. -/
  bpnl : Option Bpnl
  updatedAt : Instant
deriving DecidableEq, Repr

namespace SharingStateRecord

/-- A record of a partner that nothing is known of yet. -/
def fresh (id : SharingStateId) (tenant : TenantBpnl) (externalId : ExternalId)
    (updatedAt : Instant) : SharingStateRecord :=
  ⟨id, tenant, externalId, .initial, none, updatedAt⟩

/-- The record once the partner's number is known. -/
def withBpnl (r : SharingStateRecord) (bpnl : Bpnl) : SharingStateRecord :=
  { r with bpnl := some bpnl, sharingStateType := .success }

/-- The partner that the record resolves a name to. -/
def resolved (r : SharingStateRecord) : ResolvedPartner :=
  ⟨r.id, r.externalId⟩

/-- The record is that of the named partner. -/
def names (r : SharingStateRecord) (tenant : TenantBpnl) (externalId : ExternalId) : Bool :=
  decide (r.tenant = tenant) && decide (r.externalId = externalId)

/-- Ordered by identifier, then by tenant, then by name. -/
def sortsBefore (a b : SharingStateRecord) : Bool :=
  decide (a.id.uuid.val < b.id.uuid.val) ||
    (decide (a.id = b.id) && (decide (a.tenant.text < b.tenant.text) ||
      (decide (a.tenant = b.tenant) && decide (a.externalId.text ≤ b.externalId.text))))

end SharingStateRecord

end PartnerRelations
