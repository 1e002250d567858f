/-
# `Service.Settings` — the tunables of the service

Page sizes have a default and an upper bound; an upsert that loses an insert race
starts over a bounded number of times.
-/
import PartnerRelations.Page

namespace PartnerRelations

/-- The tunables of the service. -/
structure ServiceSettings where
  maxPageSize : UInt32
  defaultPageSize : UInt32
  /-- How often a batch of upserts may start over. -/
  upsertRetries : UInt32
deriving DecidableEq, Repr

namespace ServiceSettings

/-- Pages of 50, at most 1000, and one retry. -/
def standard : ServiceSettings := ⟨1000, 50, 1⟩

/-- A page request, its size defaulted and brought within bounds. -/
def pageRequest (s : ServiceSettings) (page size : Option UInt32) : PageRequest :=
  (PageRequest.mk (page.getD 0) (size.getD s.defaultPageSize)).clamped s.maxPageSize

end ServiceSettings

end PartnerRelations
