/-
# `Service.Batch` — batches of requests in one unit of work

Every call that changes relations, claims apart, takes its entries one after the
other in one unit of work, makes all changes in one commit and then publishes
the events.  `batch` is that frame, and an `Entry` is what one call does with one
of its entries.  A failure anywhere before the commit leaves nothing behind.
-/
import PartnerRelations.UnitOfWork

namespace PartnerRelations

/-- The handling of one entry at a moment: the relation it led to, and the unit
of work after it. -/
abbrev Entry (ρ : Type) := Instant → UnitOfWork → ρ → Call (Relation × UnitOfWork)

namespace Call

/-- Publish envelopes until one fails. -/
def publishEach : List RelationEnvelope → Call Unit
  | [] => return ()
  | envelope :: rest => do
    orFail .publish (Query.ask (.publish envelope))
    publishEach rest

/-- Publish committed events, if there are any. -/
def publish (events : List RelationEnvelope) : Call Unit := do
  if events.isEmpty then return ()
  events.forM fun envelope =>
    log (.eventCommitted envelope.payload.eventType envelope.aggregateId)
  publishEach events
  log (.changesCommitted events.length)

/-- Make the changes of a unit of work, then publish its events. -/
def finish (u : UnitOfWork) : Call Unit := do
  let events ← orFail .ofStore u.commit
  publish events

/-- The relation under a name, as the unit of work sees it. -/
def load (u : UnitOfWork) (key : RelationKey) : Call (Option Relation × UnitOfWork) :=
  orFail .ofStore (u.load key)

/-- The relation under a name; it has to be there. -/
def loadExisting (u : UnitOfWork) (key : RelationKey) : Call (Relation × UnitOfWork) := do
  match ← load u key with
  | (some relation, u) => return (relation, u)
  | (none, _) => throw (.notFound key.externalId)

/-- Give a command to a relation; a refusal is the call's failure on that name. -/
def execute (u : UnitOfWork) (externalId : ExternalId) (relation : Relation)
    (command : RelationCommand) : Call (Relation × UnitOfWork) :=
  orFail (.ofDomain externalId) (u.execute relation command)

/-- Handle the entries in order, each in the unit of work that the one before
left. -/
def handleEach {ρ : Type} (entry : Entry ρ) (at_ : Instant) :
    UnitOfWork → List ρ → Call (List Relation × UnitOfWork)
  | u, [] => return ([], u)
  | u, request :: rest => do
    let (relation, u) ← entry at_ u request
    let (relations, u) ← handleEach entry at_ u rest
    return (relation :: relations, u)

/-- Handle a batch: all entries, one commit, then publication. -/
def batch {ρ : Type} (entry : Entry ρ) (requests : List ρ) : Call (List Relation) := do
  let at_ ← now
  let (relations, u) ← handleEach entry at_ .empty requests
  finish u
  return relations

end Call

end PartnerRelations
