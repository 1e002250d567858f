/-
# `Service.Find` — reading relations

A point read by name, and the three searches, whose page sizes are brought
within the service's bound.
-/
import PartnerRelations.Service.Request
import PartnerRelations.Service.Settings

namespace PartnerRelations

namespace Service

/-- The relation under a name. -/
def find (tenant : TenantBpnl) (externalId : ExternalId) : Call (Option Relation) :=
  .orFail .ofStore (Query.ask (.findByKey ⟨tenant, externalId⟩))

/-- A page of a tenant's inputs. -/
def findInputs (settings : ServiceSettings) (tenant : TenantBpnl) (filter : InputRelationFilter)
    (page : PageRequest) : Call (Page InputRelation) :=
  .reported (.orFail .ofStore
    (Query.ask (.searchInput tenant filter (page.clamped settings.maxPageSize))))

/-- A page of a tenant's outputs. -/
def findOutputs (settings : ServiceSettings) (tenant : TenantBpnl) (filter : OutputRelationFilter)
    (page : PageRequest) : Call (Page OutputRelation) :=
  .reported (.orFail .ofStore
    (Query.ask (.searchOutput tenant filter (page.clamped settings.maxPageSize))))

/-- A page of a tenant's sharing states. -/
def findSharingStates (settings : ServiceSettings) (tenant : TenantBpnl)
    (filter : SharingStateFilter) (page : PageRequest) : Call (Page RelationSharingStateView) :=
  .reported (.orFail .ofStore
    (Query.ask (.searchSharingStates tenant filter (page.clamped settings.maxPageSize))))

end Service

end PartnerRelations
