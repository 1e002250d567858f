/-
# `Store.Search` — ordered reads over the relations in memory

A search looks at one tenant's relations in the order they were created,
relations of one moment by identifier.  A claim looks at the relations of all
tenants in one sharing state, the oldest state first.
-/
import PartnerRelations.Page
import PartnerRelations.Relation.Filter
import PartnerRelations.Store.Ledger
import PartnerRelations.Store.Tables

namespace PartnerRelations

namespace Relation

/-- Created before the other, or at the same moment with a lower identifier. -/
def createdBefore (a b : Relation) : Bool :=
  decide (a.createdAt < b.createdAt) ||
    (decide (a.createdAt = b.createdAt) && decide (a.id.uuid.val ≤ b.id.uuid.val))

/-- The moment that a relation came into its sharing state, before all moments
when it has none. -/
def stateSince (r : Relation) : Option Int :=
  r.sharingState.map (·.updatedAt.rank)

/-- Longer in its sharing state than the other; for the same time, created before. -/
def waitsBefore (a b : Relation) : Bool :=
  match a.stateSince, b.stateSince with
  | none, none => a.createdBefore b
  | none, some _ => true
  | some _, none => false
  | some s, some t => decide (s < t) || (decide (s = t) && a.createdBefore b)

end Relation

namespace Tables

/-- A tenant's relations in the order of their creation. -/
def ofTenant (t : Tables) (tenant : TenantBpnl) : List Relation :=
  (t.relations.values.filter fun r => r.tenant = tenant).mergeSort Relation.createdBefore

/-- At most `limit` relations in a sharing state, those that wait longest. -/
def inState (t : Tables) (state : RelationSharingStateType) (limit : Nat) : List Relation :=
  ((t.relations.values.filter fun r => r.sharingState.any fun s => s.stateType = state).mergeSort
    Relation.waitsBefore).take limit

/-- The view of an input stage whose two ends are in the ledger. -/
def inputView? (ledger : Ledger) (r : Relation) : Option InputRelation := do
  let stage ← r.input
  let source ← ledger.externalId? stage.source
  let target ← ledger.externalId? stage.target
  InputRelation.ofRelation? r source target

/-- A page of a tenant's inputs. -/
def searchInput (t : Tables) (ledger : Ledger) (tenant : TenantBpnl) (filter : InputRelationFilter)
    (page : PageRequest) : Page InputRelation :=
  .ofSorted page (((t.ofTenant tenant).filterMap (inputView? ledger)).filter filter.admits)

/-- A page of a tenant's outputs. -/
def searchOutput (t : Tables) (tenant : TenantBpnl) (filter : OutputRelationFilter)
    (page : PageRequest) : Page OutputRelation :=
  .ofSorted page (((t.ofTenant tenant).filterMap OutputRelation.ofRelation?).filter filter.admits)

/-- A page of a tenant's sharing states. -/
def searchSharingStates (t : Tables) (tenant : TenantBpnl) (filter : SharingStateFilter)
    (page : PageRequest) : Page RelationSharingStateView :=
  .ofSorted page
    (((t.ofTenant tenant).filterMap RelationSharingStateView.ofRelation?).filter filter.admits)

end Tables

end PartnerRelations
