/-
# `Relation.Filter` — filters of searches

An empty list of allowed values allows any value, and so does an absent bound.
The bound on times is inclusive.
-/
import PartnerRelations.Relation.View

namespace PartnerRelations

/-- The value is allowed: the list is empty or holds it. -/
def allows {α : Type} [DecidableEq α] (allowed : List α) (value : α) : Bool :=
  allowed.isEmpty || decide (value ∈ allowed)

/-- The moment is not before the bound, if there is one. -/
def atOrAfter (bound : Option Instant) (moment : Instant) : Bool :=
  bound.all fun b => decide (b ≤ moment)

/-- Which inputs a search wants. -/
structure InputRelationFilter where
  externalIds : List ExternalId
  relationTypes : List RelationType
  sourceExternalIds : List ExternalId
  targetExternalIds : List ExternalId
  updatedAfter : Option Instant
deriving DecidableEq, Repr

instance : Inhabited InputRelationFilter := ⟨⟨[], [], [], [], none⟩⟩

/-- The filter lets the input through. -/
def InputRelationFilter.admits (f : InputRelationFilter) (view : InputRelation) : Bool :=
  allows f.externalIds view.externalId && allows f.relationTypes view.relationType
    && allows f.sourceExternalIds view.sourceExternalId
    && allows f.targetExternalIds view.targetExternalId
    && atOrAfter f.updatedAfter view.updatedAt

/-- Which outputs a search wants. -/
structure OutputRelationFilter where
  externalIds : List ExternalId
  relationTypes : List RelationType
  sourceBpnls : List Bpnl
  targetBpnls : List Bpnl
  updatedAfter : Option Instant
deriving DecidableEq, Repr

instance : Inhabited OutputRelationFilter := ⟨⟨[], [], [], [], none⟩⟩

/-- The filter lets the output through. -/
def OutputRelationFilter.admits (f : OutputRelationFilter) (view : OutputRelation) : Bool :=
  allows f.externalIds view.externalId && allows f.relationTypes view.relationType
    && allows f.sourceBpnls view.sourceBpnl && allows f.targetBpnls view.targetBpnl
    && atOrAfter f.updatedAfter view.updatedAt

/-- Which sharing states a search wants. -/
structure SharingStateFilter where
  externalIds : List ExternalId
  stateTypes : List RelationSharingStateType
deriving DecidableEq, Repr

instance : Inhabited SharingStateFilter := ⟨⟨[], []⟩⟩

/-- The filter lets the sharing state through. -/
def SharingStateFilter.admits (f : SharingStateFilter) (view : RelationSharingStateView) : Bool :=
  allows f.externalIds view.externalId && allows f.stateTypes view.sharingStateType

end PartnerRelations
