/-
# `UnitOfWork` — the relations that one call touches

A unit of work remembers every relation it has read or changed, in the order
they were first touched, so that later entries of a batch see what earlier ones
did.  Its `changes` are computed at the end from three facts per relation: the
version it had when it was loaded, whether anything happened to it, and whether
it is deleted now.  `commit` makes them in one store commit and hands the events
back for publication.
-/
import PartnerRelations.Service.Request

namespace PartnerRelations

/-- A relation in a unit of work. -/
structure Tracked where
  /-- The version in the store; none for a relation that is new. -/
  persisted : Option Nat
  relation : Relation
  /-- Something happened to the relation in this unit. -/
  dirty : Bool
deriving DecidableEq, Repr

/-- The change that a tracked relation calls for. -/
def Tracked.change? (t : Tracked) : Option RelationChange :=
  if t.dirty then
    match t.persisted, t.relation.deleted with
    | none, false => some (.insert t.relation)
    | none, true => none
    | some version, false => some (.update t.relation (.exact version))
    | some version, true => some (.delete t.relation.id (.exact version))
  else none

/-- The relations touched so far, oldest touch first, and the events so far. -/
structure UnitOfWork where
  tracked : List Tracked
  events : List RelationEnvelope
deriving DecidableEq, Repr

namespace UnitOfWork

/-- A unit that has touched nothing. -/
def empty : UnitOfWork := ⟨[], []⟩

/-- What is remembered under a name. -/
def find? (u : UnitOfWork) (key : RelationKey) : Option Tracked :=
  u.tracked.find? fun t => t.relation.key = key

/-- Remember a relation as the store has it, unless its name is known already. -/
def attach (u : UnitOfWork) (relation : Relation) : UnitOfWork :=
  match u.find? relation.key with
  | some _ => u
  | none => { u with tracked := u.tracked ++ [⟨some relation.version, relation, false⟩] }

/-- The relation under a name as this unit sees it: its own version if it has
touched the relation, else the store's, which it then remembers. -/
def load (u : UnitOfWork) (key : RelationKey) :
    Dialogue (Except StoreError (Option Relation × UnitOfWork)) :=
  match u.find? key with
  | some t => return .ok (if t.relation.isCreated then some t.relation else none, u)
  | none => do
    match ← Query.ask (.findByKey key) with
    | .error error => return .error error
    | .ok none => return .ok (none, u)
    | .ok (some relation) => return .ok (some relation, u.attach relation)

/-- Remember a relation after something may have happened to it.  A relation
that was not known is new. -/
def track (u : UnitOfWork) (relation : Relation) (happened : Bool) : UnitOfWork :=
  match u.find? relation.key with
  | some _ =>
    { u with tracked := u.tracked.map fun t =>
        if t.relation.key = relation.key then
          { t with relation := relation, dirty := t.dirty || happened }
        else t }
  | none => { u with tracked := u.tracked ++ [⟨none, relation, happened⟩] }

/-- Put events of a relation into envelopes, numbered on from `version`. -/
def envelop (relation : Relation) : Nat → List RelationEvent → Dialogue (List RelationEnvelope)
  | _, [] => return []
  | version, event :: rest => do
    let eventId ← Query.ask (.freshId .event)
    let envelopes ← envelop relation (version + 1) rest
    return { eventId, tenant := relation.tenant, aggregateId := relation.id
             aggregateType := relationAggregateType
             sequenceNumber := version + 1, payload := event } :: envelopes

/-- Give a command to a relation and remember the outcome.  A refused command
leaves the unit as it was. -/
def execute (u : UnitOfWork) (relation : Relation) (command : RelationCommand) :
    Dialogue (Except DomainError (Relation × UnitOfWork)) :=
  match relation.handle command with
  | .error error => return .error error
  | .ok events => do
    let envelopes ← envelop relation relation.version events
    let relation := relation.applyAll events
    let u := u.track relation !events.isEmpty
    return .ok (relation, { u with events := u.events ++ envelopes })

/-- The changes to make, in the order the relations were first touched. -/
def changes (u : UnitOfWork) : List RelationChange :=
  u.tracked.filterMap Tracked.change?

/-- Make all changes at once, if there are any, and hand the events back. -/
def commit (u : UnitOfWork) : Dialogue (Except StoreError (List RelationEnvelope)) :=
  if u.changes.isEmpty then return .ok u.events
  else do
    match ← Query.ask (.commit u.changes) with
    | .error error => return .error error
    | .ok () => return .ok u.events

end UnitOfWork

end PartnerRelations
