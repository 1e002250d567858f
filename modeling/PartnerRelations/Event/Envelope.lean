/-
# `Event.Envelope` — events on their way to subscribers

An envelope says whose event it carries and which version of the relation the
event led to, so that the events of one relation can be put in order.
-/
import PartnerRelations.Relation.Event

namespace PartnerRelations

/-- An event with its origin. -/
structure EventEnvelope (ε : Type) where
  eventId : Uuid
  tenant : TenantBpnl
  aggregateId : RelationId
  aggregateType : String
  /-- The version reached by applying the event. -/
  sequenceNumber : Nat
  payload : ε
deriving DecidableEq, Repr

/-- The type of aggregate that relations are. -/
def relationAggregateType : String := "relations.relation"

/-- An envelope of an event of a relation. -/
abbrev RelationEnvelope := EventEnvelope RelationEvent

end PartnerRelations
