/-
# `Proofs.Sql.PartnerTable` — what the ledger's statements do to their table

A database is not part of this library.  For the table of partners the meaning of the
statements is short, and it is given here:

    upsertPartner         the row of the record; where a row has its identifier, that row with
                          the record's cells in the columns of `partnerState`
    partnerRecords        the rows with a tenant and an external identifier
    partnerRecordsByIds   the rows with one of some identifiers

The text of the first one names the columns of `partnerState` as those that are replaced,
and both are written from the same list.  `Operation.on` carries out an operation of the
store against such a table.  No request fails here, so what an operation comes to is its
reading of the rows: writing succeeds, and what was written is read back
(`readPartner_rowOf`).
-/
import PartnerRelations.Proofs.Names
import PartnerRelations.Sql.Store

namespace PartnerRelations

theorem Program.run_bind {ρ α β : Type} {answer : ρ → Type} {m : Type → Type} [Monad m] [LawfulMonad m]
    (respond : (request : ρ) → m (answer request)) (p : Program answer α)
    (f : α → Program answer β) :
    (p.bind f).run respond = p.run respond >>= fun a => (f a).run respond := by
  induction p with
  | done a => simp [Program.run]
  | ask request next ih => simp [Program.run, ih]

namespace Sql

/-- The rows of the table of partners, in the order in which they came. -/
abbrev PartnerTable := List Row

/-- The row with the cells of `other` in some columns. -/
def Row.overwrite (columns : List String) (row other : Row) : Row :=
  row.map fun (column, value) =>
    (column, if column ∈ columns then (other.lookup column).getD value else value)

namespace PartnerTable

/-- Add a row; where a row has its identifier, overwrite some columns of that one. -/
def upsert (columns : List String) (row : Row) : PartnerTable → PartnerTable
  | [] => [row]
  | first :: rest =>
    if first.lookup "id" = row.lookup "id" then first.overwrite columns row :: rest
    else first :: upsert columns row rest

/-- The rows of a partner. -/
def ofPartner (table : PartnerTable) (tenant : TenantBpnl) (externalId : ExternalId) :
    PartnerTable :=
  table.filter fun row =>
    decide (row.lookup "tenant_bpnl" = some (cell tenant.text)) &&
      decide (row.lookup "external_id" = some (cell externalId.text))

/-- The rows with one of the given identifiers. -/
def withIds (table : PartnerTable) (ids : List SharingStateId) : PartnerTable :=
  table.filter fun row => ids.any fun id => decide (row.lookup "id" = some (cell id.uuid))

/-- What a statement finds in the table and makes of it.  Statements about other tables
find nothing in this one and leave it alone. -/
def execute (table : PartnerTable) : Statement → Outcome × PartnerTable
  | .upsertPartner record =>
    (⟨[], 1⟩, table.upsert (names partnerState) (rowOf partnerColumns record))
  | .partnerRecords tenant externalId => (⟨table.ofPartner tenant externalId, 0⟩, table)
  | .partnerRecordsByIds ids => (⟨table.withIds ids, 0⟩, table)
  | _ => (⟨[], 0⟩, table)

/-- Answer a request. -/
def answer : Request → StateM PartnerTable Reply
  | .execute s => fun table => ((.ok (table.execute s).1), (table.execute s).2)
  | .connect | .begin | .commit | .rollback => fun table => (.ok ⟨[], 0⟩, table)

end PartnerTable

namespace Operation

variable {α β : Type} {table : PartnerTable}

/-- What an operation comes to on a table, and the table after it. -/
def on (operation : Operation α) (table : PartnerTable) : Except StoreError α × PartnerTable :=
  (Program.run PartnerTable.answer operation.run).run table

/-- What comes after an operation that succeeded starts from the table it left. -/
theorem on_bind_ok {operation : Operation α} {f : α → Operation β} {a : α} {table' : PartnerTable}
    (h : operation.on table = (.ok a, table')) : (operation >>= f).on table = (f a).on table' := by
  have hrun : (operation >>= f).on table =
      let (x, table) := operation.on table
      (Program.run PartnerTable.answer (ExceptT.bindCont f x)).run table :=
    congrFun (Program.run_bind PartnerTable.answer operation.run (ExceptT.bindCont f)) table
  rw [hrun, h]
  rfl

end Operation

/-! ## Reading what was written -/

theorem cell_injective {α : Type} [ColumnType α] {a b : α} (h : cell a = cell b) : a = b := by
  have hvalue : ColumnType.ofValue? (ColumnType.toValue a) =
      (ColumnType.ofValue? (ColumnType.toValue b) : Option α) :=
    congrArg ColumnType.ofValue? (Option.some.inj h)
  rw [ColumnType.ofValue?_toValue, ColumnType.ofValue?_toValue] at hvalue
  exact Option.some.inj hvalue

namespace Row

variable {α : Type} [ColumnType α] {row : Row} {column : String}

theorem optional_of_lookup {a : Option α} (h : row.lookup column = some (nullable a)) :
    row.optional α column = .ok a := by
  cases a with
  | none => simp [optional, h, nullable]
  | some a => simp [optional, h, nullable, ColumnType.ofValue?_toValue]

theorem required_of_lookup {a : α} (h : row.lookup column = some (cell a)) :
    row.required α column = .ok a := by
  rw [required, optional_of_lookup (a := some a) h]
  rfl

theorem key_of_lookup {kind : KeyKind} {k : Key kind}
    (h : row.lookup column = some (cell k.text)) : row.key kind column = .ok k := by
  simp only [key, required_of_lookup h, bind, Except.bind, Key.parse_text]
  rfl

end Row

theorem readName_name {α : Type} [Enumeration α] [Enumeration.Lawful α] (a : α) :
    readName (Enumeration.name a) = .ok a :=
  congrArg orCorrupt (Enumeration.parse_name a)

/-- A partner's number is read as it was written, also if there is none. -/
theorem mapM_parse_bpnl (bpnl : Option Bpnl) :
    ((bpnl.map (·.text)).mapM fun text => orCorrupt (Key.parse .bpnl text)) = .ok bpnl := by
  cases bpnl with
  | none => rfl
  | some bpnl => simp only [Option.map_some, Option.mapM_some, Key.parse_text]; rfl

variable {table : PartnerTable} {record : SharingStateRecord}

/-- A record is read from its row. -/
theorem readPartner_rowOf (record : SharingStateRecord) :
    readPartner (rowOf partnerColumns record) = .ok record := by
  rw [readPartner, Row.required_of_lookup (a := record.sharingStateType.name) rfl,
    Row.optional_of_lookup (a := record.bpnl.map (·.text)) rfl,
    Row.required_of_lookup (a := record.id.uuid) rfl, Row.key_of_lookup (k := record.tenant) rfl,
    Row.key_of_lookup (k := record.externalId) rfl,
    Row.required_of_lookup (a := record.updatedAt) rfl]
  have hname : readName record.sharingStateType.name = .ok record.sharingStateType :=
    readName_name record.sharingStateType
  simp only [bind, Except.bind, hname, mapM_parse_bpnl]
  rfl

theorem on_upsertPartner : (upsertPartner record).on table =
    (.ok (), table.upsert (names partnerState) (rowOf partnerColumns record)) := rfl

theorem on_partnerRecords {tenant : TenantBpnl} {externalId : ExternalId} :
    (partnerRecords tenant externalId).on table =
      ((table.ofPartner tenant externalId).mapM readPartner, table) := rfl

end Sql

end PartnerRelations
