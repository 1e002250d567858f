/-
# `World` — the service's surroundings in memory

A clock, a store, a ledger, everything published so far and everything reported
so far, and a supply of identifiers.  `World.answer` says how each query of a
call is answered and what it leaves behind, so that a call run from a world has
an outcome and a world after it.  Nothing here fails but what the store refuses.
-/
import PartnerRelations.Service.Request
import PartnerRelations.Store.Search

namespace PartnerRelations

/-- The state that calls work on. -/
structure World where
  clock : Instant
  tables : Tables
  ledger : Ledger
  /-- How many identifiers were drawn from the supply. -/
  drawn : Nat
  /-- What a subscription made at the start has received, oldest first. -/
  published : List RelationEnvelope
  /-- What was reported, oldest first. -/
  reports : List LogEvent

namespace World

/-- A world at a moment in which nothing has happened. -/
def start (clock : Instant) : World :=
  { clock, tables := .empty, ledger := [], drawn := 0, published := [], reports := [] }

/-- Answer one query; `supply` is the sequence of fresh identifiers. -/
def answer (supply : Nat → Uuid) (w : World) : (q : Query) → q.Answer × World
  | .now => (w.clock, w)
  | .freshId _ => (supply w.drawn, { w with drawn := w.drawn + 1 })
  | .findByKey key => (.ok (w.tables.find? key), w)
  | .findInState state limit => (.ok (w.tables.inState state limit), w)
  | .commit changes =>
    match w.tables.commit changes with
    | .ok tables => (.ok (), { w with tables })
    | .error error => (.error error, w)
  | .searchInput tenant filter page =>
    (.ok (w.tables.searchInput w.ledger tenant filter page), w)
  | .searchOutput tenant filter page => (.ok (w.tables.searchOutput tenant filter page), w)
  | .searchSharingStates tenant filter page =>
    (.ok (w.tables.searchSharingStates tenant filter page), w)
  | .partnerRecords tenant externalId => (.ok (w.ledger.ofPartner tenant externalId), w)
  | .partnerRecordsByIds ids => (.ok (w.ledger.withIds ids), w)
  | .publish envelope => (.ok (), { w with published := w.published ++ [envelope] })
  | .log event => ((), { w with reports := w.reports ++ [event] })

/-- Run a dialogue to its end with nobody else at work. -/
def run {α : Type} (supply : Nat → Uuid) (p : Dialogue α) (w : World) : α × World :=
  match p with
  | .done a => (a, w)
  | .ask q next =>
    let (x, w) := w.answer supply q
    run supply (next x) w

end World

end PartnerRelations
