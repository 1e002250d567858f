/-
# `Service.Error` — why a call failed

The failures of calls on relations, and how failures of the domain, the store and
the ledger become failures of a call.  Every failure ends the call it happened
in.
-/
import PartnerRelations.Store.Ledger

namespace PartnerRelations

/-- Why a call on relations failed. -/
inductive RelationError where
  /-- The tenant has a relation of this name. -/
  | alreadyExists (externalId : ExternalId)
  | notFound (externalId : ExternalId)
  /-- The ledger does not know the source. -/
  | sourceNotFound (externalId : ExternalId)
  /-- The ledger does not know the target. -/
  | targetNotFound (externalId : ExternalId)
  | invalidRelation (reason : String)
  /-- The ledger has several records of a partner. -/
  | ambiguousReference (externalId : ExternalId) (count : Nat)
  | invalidTransition (reason : String)
  /-- Another writer changed the relation. -/
  | conflict (reason : String)
  /-- The change is stored, but was not published to the end. -/
  | publish (reason : String)
  | store (error : StoreError)
deriving DecidableEq, Repr

namespace RelationError

/-- The text shown for a failed call. -/
def message : RelationError → String
  | .alreadyExists externalId => s!"relation '{externalId.text}' already exists"
  | .notFound externalId => s!"relation '{externalId.text}' not found"
  | .sourceNotFound externalId => s!"source business partner '{externalId.text}' not found"
  | .targetNotFound externalId => s!"target business partner '{externalId.text}' not found"
  | .invalidRelation reason => s!"invalid relation: {reason}"
  | .ambiguousReference externalId count =>
    s!"business partner '{externalId.text}' is ambiguous ({count} sharing states)"
  | .invalidTransition reason => s!"invalid sharing state transition: {reason}"
  | .conflict reason => s!"concurrent modification: {reason}"
  | .publish reason => s!"relation change publication failed: {reason}"
  | .store error => error.message

/-- The failure of a call on the named relation that a refusal leads to. -/
def ofDomain (externalId : ExternalId) : DomainError → RelationError
  | .validation reason => .invalidRelation reason
  | .invalidId reason => .invalidRelation reason
  | .notFound => .notFound externalId
  | .conflict reason => .invalidTransition reason
  | .invariantViolation reason =>
    .store (.corrupt s!"relation '{externalId.text}': {reason}")

/-- The failure of a call that a store's failure leads to. -/
def ofStore : StoreError → RelationError
  | .duplicateExternalId _ externalId => .alreadyExists externalId
  | .concurrency reason => .conflict reason
  | error => .store error

/-- The failure of a call that a failed look-up leads to. -/
def ofLedger : LedgerError → RelationError
  | .ambiguous _ externalId count => .ambiguousReference externalId count
  | .store error => ofStore error

end RelationError

end PartnerRelations
