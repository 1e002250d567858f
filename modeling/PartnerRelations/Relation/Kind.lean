/-
# `Relation.Kind` — the kinds of relation a tenant can assert

Read as source, kind, target: "source is managed by target".
-/
import PartnerRelations.Enumeration

namespace PartnerRelations

/-- What a relation says of its source and its target. -/
inductive RelationType where
  | isAlternativeHeadquarterFor
  | isManagedBy
  | isOwnedBy
deriving DecidableEq, Repr

/-- The name of a kind of relation. -/
def RelationType.name : RelationType → String
  | .isAlternativeHeadquarterFor => "IsAlternativeHeadquarterFor"
  | .isManagedBy => "IsManagedBy"
  | .isOwnedBy => "IsOwnedBy"

instance : Enumeration RelationType where
  all := [.isAlternativeHeadquarterFor, .isManagedBy, .isOwnedBy]
  name := RelationType.name
  noun := "relation type"

end PartnerRelations
