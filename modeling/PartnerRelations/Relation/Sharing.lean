/-
# `Relation.Sharing` — the sharing lifecycle of a relation

A relation starts in `initial`, is claimed into `pending`, and ends in `success`
when its output is published or in `error` when a failure is reported.  A change
of the input, or a retry after an error, brings it back to `initial`.  Only the
relation itself moves its state; `canMoveTo` is the table of moves and
`ensureMove` refuses the rest.
-/
import PartnerRelations.Instant.Basic
import PartnerRelations.Relation.Kind

namespace PartnerRelations

/-- How far a relation has come in the sharing process. -/
inductive RelationSharingStateType where
  /-- Submitted, or submitted again, and not yet claimed. -/
  | initial
  /-- Claimed, and waiting for resolved identifiers. -/
  | pending
  /-- Promoted to an output. -/
  | success
  /-- Failed; there is a message. -/
  | error
deriving DecidableEq, Repr

namespace RelationSharingStateType

/-- The name of a state. -/
def name : RelationSharingStateType → String
  | .initial => "Initial"
  | .pending => "Pending"
  | .success => "Success"
  | .error => "Error"

/-- The table of moves: to `initial` and `success` from anywhere, to `pending`
from `initial` only, to `error` from `initial` and `pending`. -/
def canMoveTo : RelationSharingStateType → RelationSharingStateType → Bool
  | _, .initial => true
  | _, .success => true
  | from_, .pending => from_ = .initial
  | from_, .error => from_ = .initial || from_ = .pending

end RelationSharingStateType

instance : Enumeration RelationSharingStateType where
  all := [.initial, .pending, .success, .error]
  name := RelationSharingStateType.name
  noun := "relation sharing state"

/-- The sharing state of one relation. -/
structure RelationSharingState where
  stateType : RelationSharingStateType
  /-- The kind of relation that the state was last set up for. -/
  relationType : RelationType
  errorMessage : Option String
  updatedAt : Instant
deriving DecidableEq, Repr

namespace RelationSharingState

/-- A fresh state. -/
def initial (relationType : RelationType) (at_ : Instant) : RelationSharingState :=
  ⟨.initial, relationType, none, at_⟩

/-- The state after a failure. -/
def isError (s : RelationSharingState) : Bool :=
  s.stateType = .error

/-- Refuse a move that the table does not hold. -/
def ensureMove (s : RelationSharingState) (next : RelationSharingStateType) :
    Except DomainError Unit :=
  if s.stateType.canMoveTo next then .ok ()
  else .error (.conflict
    s!"sharing state cannot move from {s.stateType.name} to {next.name}")

/-- Claimed at a moment. -/
def pendingAt (s : RelationSharingState) (at_ : Instant) : RelationSharingState :=
  { s with stateType := .pending, errorMessage := none, updatedAt := at_ }

/-- Promoted at a moment. -/
def successAt (s : RelationSharingState) (at_ : Instant) : RelationSharingState :=
  { s with stateType := .success, errorMessage := none, updatedAt := at_ }

/-- Failed at a moment. -/
def errorAt (s : RelationSharingState) (message : String) (at_ : Instant) :
    RelationSharingState :=
  { s with stateType := .error, errorMessage := some message, updatedAt := at_ }

end RelationSharingState

end PartnerRelations
