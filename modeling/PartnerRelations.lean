/-
# `PartnerRelations` — relations between business partners, and what holds of them

Tenants assert relations between business partners: one partner manages another, or owns it.
The service keeps each under its tenant and external identifier, hands it out to be shared, and
takes back what became of it.

The program, from the bottom up:

    Text, Key, Uuid, Instant, Version, Page    the values that relations are made of
    Relation, Partner                          a relation with its commands and events; a record
                                               of the sharing ledger
    Event, Store, Log                          bus, store, ledger and log, all in memory
    Sql                                        store and ledger in a database
    UnitOfWork, Service                        the relations that a call touches; the calls
    Json, Config                               values as JSON; the configuration
    World                                      the surroundings of a call, as one state

What is proved of it, under `Proofs`:

    Key, Json, Config        texts and the values that are read from them
    Relation                 one relation under any commands
    Store, UnitOfWork        what a commit does to the tables
    Program, Service         one call, whatever it is told
    World                    calls one after the other
    Concurrent               calls side by side, in every interleaving
    Event                    what subscribers receive
    Sql                      statements, rows, and the two stores compared
-/
import PartnerRelations.Instant.Shift
import PartnerRelations.Json.Report
import PartnerRelations.Proofs.Concurrent.Claiming
import PartnerRelations.Proofs.Concurrent.Deletion
import PartnerRelations.Proofs.Concurrent.Isolation
import PartnerRelations.Proofs.Concurrent.Listing
import PartnerRelations.Proofs.Concurrent.Reference
import PartnerRelations.Proofs.Concurrent.Replay
import PartnerRelations.Proofs.Concurrent.Upserting
import PartnerRelations.Proofs.Config.Lookup
import PartnerRelations.Proofs.Event.Delivery
import PartnerRelations.Proofs.Json.RoundTrip
import PartnerRelations.Proofs.Key
import PartnerRelations.Proofs.Relation.Coherence
import PartnerRelations.Proofs.Relation.Effect
import PartnerRelations.Proofs.Service.OneByOne
import PartnerRelations.Proofs.Service.Outcome
import PartnerRelations.Proofs.Service.Permuted
import PartnerRelations.Proofs.Service.Repeat
import PartnerRelations.Proofs.Service.Selection
import PartnerRelations.Proofs.Service.Verdict
import PartnerRelations.Proofs.Sql.Ledger
import PartnerRelations.Proofs.Sql.RelationRow
import PartnerRelations.Proofs.Sql.RelationTable
import PartnerRelations.Proofs.Sql.Transaction
import PartnerRelations.Proofs.Store.Register
import PartnerRelations.Proofs.UnitOfWork.Session
import PartnerRelations.Proofs.World.Claims
