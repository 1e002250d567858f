/-
# `Relation.Stage` — the stages of a relation and its output

The input stage is what the tenant asserted, with its two ends resolved to
ledger records.  The output is the published snapshot, its ends named by the
numbers of resolved legal entities.  `RelationStage.values` is the part of a
stage that decides whether an update changes anything.
-/
import PartnerRelations.Partner
import PartnerRelations.Relation.Kind

namespace PartnerRelations

/-- Which stage of a relation a record holds. -/
inductive StageType where
  | input
  | output
deriving DecidableEq, Repr

/-- The name of a stage. -/
def StageType.name : StageType → String
  | .input => "Input"
  | .output => "Output"

instance : Enumeration StageType where
  all := [.input, .output]
  name := StageType.name
  noun := "stage"

/-- One stage of one relation. -/
structure RelationStage where
  relationId : RelationId
  stage : StageType
  relationType : RelationType
  source : SharingStateId
  target : SharingStateId
  createdAt : Instant
  updatedAt : Instant
deriving DecidableEq, Repr

/-- What an update can change about a stage. -/
structure StageValues where
  relationType : RelationType
  source : SharingStateId
  target : SharingStateId
deriving DecidableEq, Repr

/-- The values of a stage. -/
def RelationStage.values (s : RelationStage) : StageValues :=
  ⟨s.relationType, s.source, s.target⟩

/-- The published snapshot of a relation. -/
structure RelationOutput where
  relationType : RelationType
  sourceBpnl : Bpnl
  targetBpnl : Bpnl
  updatedAt : Instant
deriving DecidableEq, Repr

end PartnerRelations
