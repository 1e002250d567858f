/-
# `Store.Ledger` — the sharing ledger in memory

The records in the order they came.  An insert keeps whatever is there, so a
partner may come to have several records; an upsert replaces the first record of
the same partner, identifier included.  Looking a partner up finds at most one
record, and more than one is an error.
-/
import PartnerRelations.Store.Change

namespace PartnerRelations

/-- Why a partner could not be looked up. -/
inductive LedgerError where
  /-- There are several records of the partner. -/
  | ambiguous (tenant : TenantBpnl) (externalId : ExternalId) (count : Nat)
  | store (error : StoreError)
deriving DecidableEq, Repr

/-- The text shown for a failed look-up. -/
def LedgerError.message : LedgerError → String
  | .ambiguous tenant externalId count =>
    s!"{count} sharing states found for business partner '{externalId.text}' of tenant '{tenant.text}'"
  | .store error => error.message

/-- The records of all tenants, oldest first. -/
abbrev Ledger := List SharingStateRecord

namespace Ledger

/-- Add a record. -/
def insert (l : Ledger) (record : SharingStateRecord) : Ledger :=
  l ++ [record]

/-- Put a record in place of the first one of the same partner, or add it. -/
def upsert (record : SharingStateRecord) : Ledger → Ledger
  | [] => [record]
  | r :: rest =>
    if r.names record.tenant record.externalId then record :: rest else r :: upsert record rest

/-- The records of a partner. -/
def ofPartner (l : Ledger) (tenant : TenantBpnl) (externalId : ExternalId) : Ledger :=
  l.filter (·.names tenant externalId)

/-- The records with one of the given identifiers. -/
def withIds (l : Ledger) (ids : List SharingStateId) : Ledger :=
  l.filter fun r => decide (r.id ∈ ids)

/-- The last record with an identifier. -/
def last? (l : Ledger) (id : SharingStateId) : Option SharingStateRecord :=
  l.reverse.find? fun r => r.id = id

/-- The name of the partner with an identifier. -/
def externalId? (l : Ledger) (id : SharingStateId) : Option ExternalId :=
  (l.last? id).map (·.externalId)

/-- The one record among those found for a partner, if any was found. -/
def only (tenant : TenantBpnl) (externalId : ExternalId) :
    List SharingStateRecord → Except LedgerError (Option SharingStateRecord)
  | [] => .ok none
  | [record] => .ok (some record)
  | records => .error (.ambiguous tenant externalId records.length)

end Ledger

end PartnerRelations
