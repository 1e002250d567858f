/-
# `Sql.Session` — talking to a database

A session is a program that asks a database: for a connection, for statements to
be carried out, and for a transaction to begin and to end.  The database may
refuse with a code and a message, the connection may be lost before an answer,
and there may be no connections any more.  `Fault.error` says which failure of
the store each of these is.
-/
import PartnerRelations.Program
import PartnerRelations.Sql.Row
import PartnerRelations.Sql.Statement

namespace PartnerRelations.Sql

/-- What is asked of a database. -/
inductive Request where
  | connect
  | begin
  | commit
  | rollback
  | execute (statement : Statement)
deriving DecidableEq, Repr

/-- What a database did. -/
structure Outcome where
  rows : List Row
  /-- How many rows were written. -/
  affected : Nat
deriving DecidableEq, Repr

/-- Why a database did not do what it was asked. -/
inductive Fault where
  | refused (code message : String)
  /-- The connection was lost before an answer. -/
  | lost
  /-- No connection is handed out any more. -/
  | closed
deriving DecidableEq, Repr

/-- The failure of the store when an operation meets a fault. -/
def Fault.error (operation : String) : Fault → StoreError
  | refused code message => .backend s!"database error in {operation} ({code}): {message}"
  | lost => .backend s!"sqlx error in {operation}"
  | closed => .backend s!"connection pool closed in {operation}"

/-- A database's answer. -/
abbrev Reply := Except Fault Outcome

/-- A computation that may ask a database. -/
abbrev Session := Program fun _ : Request => Reply

/-- A session that may fail as a store fails. -/
abbrev Operation := ExceptT StoreError Session

namespace Operation

/-- Ask for something on behalf of the named operation. -/
def request (name : String) (r : Request) : Operation Outcome :=
  ExceptT.mk do return (← Program.call r).mapError (Fault.error name)

/-- Carry out a statement. -/
def execute (s : Statement) : Operation Outcome :=
  request s.operation (.execute s)

/-- The rows that a statement finds. -/
def rows (s : Statement) : Operation (List Row) := do
  return (← execute s).rows

/-- The first row that a statement finds. -/
def firstRow (s : Statement) : Operation Row := do
  match ← rows s with
  | row :: _ => return row
  | [] => throw (.backend s!"unexpected row not found in {s.operation}")

/-- What was read from rows. -/
def ofRead {α : Type} (e : Read α) : Operation α :=
  ExceptT.mk (return e)

end Operation

end PartnerRelations.Sql
