/-
# `Proofs.Sql.RelationRow` — a relation and its row

A relation is written as two rows, one of its own and one of its input stage, and it is read
from the two joined.  `joinedRow r` is that row: its cells are the parameters of the statements
that write `r`.

    readRelation_eq_ok          a row is read as `r` if and only if it holds what `r` says
    relation_rows_round_trip    a relation is read from its row; and a row that is read as a
                                relation is that relation's row, once it is put in order

Putting a row in order (`Row.canonical`) takes out of it what reading looks past: the blanks
around a key, and whatever the columns of an absent part hold besides the one that tells of it.
Nothing else is lost in either direction.  The relation has to be `Storable`, as every relation
is that was read; a number in a row has the bits of its type (`Row.fits`).
-/
import PartnerRelations.Proofs.Relation.Keeping
import PartnerRelations.Proofs.Sql.PartnerTable

namespace PartnerRelations

namespace Relation

variable {r : Relation}

theorem restore_snapshot (h : r.isCreated = true) : restore r.snapshot = r := by
  obtain ⟨hcreated, hdeleted⟩ := isCreated_iff.1 h
  cases r
  cases hcreated
  cases hdeleted
  rfl

end Relation

namespace Sql

/-! ## The row of a relation -/

/-- The cell that a parameter stands for. -/
def Param.toCell : Param → Cell
  | .cell c => c
  | _ => none

/-- Columns with the cells of parameters, in order. -/
def given (columns : List String) (params : List Param) : Row :=
  columns.zip (params.map Param.toCell)

/-- The row of a relation. -/
def relationRow (r : Relation) : Row :=
  given (names relationColumns) (Statement.insertRelation r).params

/-- The row of a stage. -/
def stageRow (stage : RelationStage) : Row :=
  given (names stageColumns) (Statement.writeStage stage).params

/-- What the row of a stage adds to that of its relation; NULL everywhere without one. -/
def joinedStage (stage : Option Row) : Row :=
  joinedStageColumns.map fun (column, joined) => (joined, (stage.bind (·.lookup column)).getD none)

/-- The row of a relation, joined to that of its input stage. -/
def joinedRow (r : Relation) : Row :=
  relationRow r ++ joinedStage (r.input.map stageRow)

/-- A relation that its row can hold. -/
structure Storable (r : Relation) : Prop extends r.Rooted where
  version : r.version ≤ maxWord

/-! ## Reading a column -/

/-- Every value that is read was written. -/
class ColumnType.Exact (α : Type) [ColumnType α] : Prop where
  toValue_of_ofValue? {v : Value} {a : α} : ofValue? v = some a → v = toValue a

instance : ColumnType.Exact String where
  toValue_of_ofValue? {v _} h := by cases v <;> cases h; rfl

instance : ColumnType.Exact Int where
  toValue_of_ofValue? {v _} h := by cases v <;> cases h; rfl

instance : ColumnType.Exact Uuid where
  toValue_of_ofValue? {v _} h := by cases v <;> cases h; rfl

instance : ColumnType.Exact Instant where
  toValue_of_ofValue? {v _} h := by cases v <;> cases h; rfl

namespace Row

/-- The row has a cell in a column. -/
def Has (row : Row) (column : String) (c : Cell) : Prop :=
  row.lookup column = some c

/-- The row has a key in a column, with blanks around it or none. -/
def HasKey {kind : KeyKind} (row : Row) (column : String) (k : Key kind) : Prop :=
  ∃ text, row.Has column (cell text) ∧ Text.trim text = k.text

variable {row : Row} {column : String}

theorem Has.key {kind : KeyKind} {k : Key kind} (h : row.Has column (cell k.text)) :
    row.HasKey column k :=
  ⟨k.text, h, k.trimmed⟩

theorem Has.ne_null {α : Type} [ColumnType α] {a : α} (h : row.Has column (cell a)) :
    row.lookup column ≠ some none := by
  intro hnull
  cases h.symm.trans hnull

section Exact

variable {α : Type} [ColumnType α] [ColumnType.Exact α]

theorem optional_eq_ok {a : Option α} :
    row.optional α column = .ok a ↔ row.Has column (nullable a) := by
  refine ⟨fun h => ?_, optional_of_lookup⟩
  unfold optional at h
  split at h
  · cases h
  · next hlookup =>
    cases h
    exact hlookup
  · next value hlookup =>
    split at h
    · next a' hvalue =>
      cases h
      rw [ColumnType.Exact.toValue_of_ofValue? hvalue] at hlookup
      exact hlookup
    · cases h

theorem required_eq_ok {a : α} : row.required α column = .ok a ↔ row.Has column (cell a) := by
  refine ⟨fun h => ?_, required_of_lookup⟩
  obtain ⟨_ | a', hoptional, hreturned⟩ := Relation.bind_eq_ok.1 h
  · cases hreturned
  · cases hreturned
    exact optional_eq_ok.1 hoptional

end Exact

end Row

theorem orCorrupt_eq_ok {α : Type} {e : Except DomainError α} {a : α} :
    orCorrupt e = .ok a ↔ e = .ok a :=
  Relation.mapError_eq_ok

theorem Row.key_eq_ok {row : Row} {column : String} {kind : KeyKind} {k : Key kind} :
    row.key kind column = .ok k ↔ row.HasKey column k := by
  simp only [Row.key, Relation.bind_eq_ok, required_eq_ok, orCorrupt_eq_ok, Key.parse_eq_ok,
    HasKey]

theorem readName_eq_ok {α : Type} [Enumeration α] [Enumeration.Lawful α] {s : String} {a : α} :
    readName s = .ok a ↔ s = Enumeration.name a := by
  refine ⟨fun h => ?_, fun h => h ▸ readName_name a⟩
  unfold readName at h
  rw [orCorrupt_eq_ok, Enumeration.parse] at h
  split at h
  · next hfound =>
    cases h
    exact Enumeration.ofName?_eq_some.1 hfound
  · cases h

theorem readVersion_eq_ok {version : Int} {n : Nat} : readVersion version = .ok n ↔ version = n := by
  unfold readVersion
  split
  · exact iff_of_false nofun (by omega)
  · rw [Except.ok.injEq]
    omega

/-! ## Reading a part that may be absent -/

namespace Row

/-- The row holds an input stage of the relation with an identifier, or tells of none. -/
def HoldsStage (row : Row) (id : RelationId) : Option RelationStage → Prop
  | none => row.Has "stage_relation_type" none
  | some stage =>
    row.Has "stage_relation_type" (cell stage.relationType.name) ∧
    row.Has "source_id" (cell stage.source.uuid) ∧
    row.Has "target_id" (cell stage.target.uuid) ∧
    row.Has "stage_created_at" (cell stage.createdAt) ∧
    row.Has "stage_updated_at" (cell stage.updatedAt) ∧ stage.InputOf id

/-- The row holds a sharing state, or tells of none. -/
def HoldsSharingState (row : Row) : Option RelationSharingState → Prop
  | none => row.Has "sharing_state_type" none
  | some state =>
    row.Has "sharing_state_type" (cell state.stateType.name) ∧
    row.Has "sharing_relation_type" (cell state.relationType.name) ∧
    row.Has "sharing_error_message" (nullable state.errorMessage) ∧
    row.Has "sharing_updated_at" (cell state.updatedAt)

/-- The row holds an output, or tells of none. -/
def HoldsOutput (row : Row) : Option RelationOutput → Prop
  | none => row.Has "output_relation_type" none
  | some output =>
    row.Has "output_relation_type" (cell output.relationType.name) ∧
    row.HasKey "output_source_bpnl" output.sourceBpnl ∧
    row.HasKey "output_target_bpnl" output.targetBpnl ∧
    row.Has "output_updated_at" (cell output.updatedAt)

/-- The row holds a relation. -/
structure Holds (row : Row) (r : Relation) : Prop where
  live : r.isCreated = true
  id : row.Has "id" (cell r.id.uuid)
  tenant : row.HasKey "tenant_bpnl" r.tenant
  externalId : row.HasKey "external_id" r.externalId
  version : row.Has "version" (cell (r.version : Int))
  sharingState : row.HoldsSharingState r.sharingState
  output : row.HoldsOutput r.output
  createdAt : row.Has "created_at" (cell r.createdAt)
  updatedAt : row.Has "updated_at" (cell r.updatedAt)
  input : row.HoldsStage r.id r.input

end Row

variable {row : Row} {r : Relation}

theorem readJoinedStage_eq_ok {id : RelationId} {stage : Option RelationStage} :
    readJoinedStage row id = .ok stage ↔ row.HoldsStage id stage := by
  simp only [readJoinedStage, Relation.bind_eq_ok, Row.optional_eq_ok]
  constructor
  · rintro ⟨_ | relationType, htells, h⟩
    · cases h
      exact htells
    · simp only [Relation.bind_eq_ok, readName_eq_ok, Row.required_eq_ok] at h
      obtain ⟨_, rfl, _, hsource, _, htarget, _, hcreated, _, hupdated, ⟨⟩⟩ := h
      exact ⟨htells, hsource, htarget, hcreated, hupdated, ⟨rfl, rfl⟩⟩
  · intro h
    cases stage with
    | none => exact ⟨none, h, rfl⟩
    | some stage =>
      obtain ⟨htells, hsource, htarget, hcreated, hupdated, ⟨rfl, hkind⟩⟩ := h
      refine ⟨some _, htells, ?_⟩
      simp only [Relation.bind_eq_ok, readName_eq_ok, Row.required_eq_ok]
      refine ⟨_, rfl, _, hsource, _, htarget, _, hcreated, _, hupdated, ?_⟩
      rw [← hkind]
      rfl

theorem readSharingState_eq_ok {state : Option RelationSharingState} :
    readSharingState row = .ok state ↔ row.HoldsSharingState state := by
  simp only [readSharingState, Relation.bind_eq_ok, Row.optional_eq_ok]
  constructor
  · rintro ⟨_ | stateType, htells, h⟩
    · cases h
      exact htells
    · simp only [Relation.bind_eq_ok, readName_eq_ok, Row.required_eq_ok, Row.optional_eq_ok] at h
      obtain ⟨_, htype, _, rfl, _, rfl, message, hmessage, _, hupdated, ⟨⟩⟩ := h
      exact ⟨htells, htype, hmessage, hupdated⟩
  · intro h
    cases state with
    | none => exact ⟨none, h, rfl⟩
    | some state =>
      obtain ⟨htells, htype, hmessage, hupdated⟩ := h
      refine ⟨some _, htells, ?_⟩
      simp only [Relation.bind_eq_ok, readName_eq_ok, Row.required_eq_ok, Row.optional_eq_ok]
      exact ⟨_, htype, _, rfl, _, rfl, _, hmessage, _, hupdated, rfl⟩

theorem readOutput_eq_ok {output : Option RelationOutput} :
    readOutput row = .ok output ↔ row.HoldsOutput output := by
  simp only [readOutput, Relation.bind_eq_ok, Row.optional_eq_ok]
  constructor
  · rintro ⟨_ | relationType, htells, h⟩
    · cases h
      exact htells
    · simp only [Relation.bind_eq_ok, readName_eq_ok, Row.key_eq_ok, Row.required_eq_ok] at h
      obtain ⟨_, rfl, _, hsource, _, htarget, _, hupdated, ⟨⟩⟩ := h
      exact ⟨htells, hsource, htarget, hupdated⟩
  · intro h
    cases output with
    | none => exact ⟨none, h, rfl⟩
    | some output =>
      obtain ⟨htells, hsource, htarget, hupdated⟩ := h
      refine ⟨some _, htells, ?_⟩
      simp only [Relation.bind_eq_ok, readName_eq_ok, Row.key_eq_ok, Row.required_eq_ok]
      exact ⟨_, rfl, _, hsource, _, htarget, _, hupdated, rfl⟩

/-- A row is read as the relation that it holds. -/
theorem readRelation_eq_ok : readRelation row = .ok r ↔ row.Holds r := by
  simp only [readRelation, Relation.bind_eq_ok, Row.required_eq_ok, Row.key_eq_ok,
    readJoinedStage_eq_ok, readSharingState_eq_ok, readOutput_eq_ok, readVersion_eq_ok]
  constructor
  · rintro ⟨_, hid, _, hinput, _, hstate, _, houtput, _, hversion, _, htenant, _, hname,
      _, hcreated, _, hupdated, _, rfl, ⟨⟩⟩
    exact ⟨rfl, hid, htenant, hname, hversion, hstate, houtput, hcreated, hupdated, hinput⟩
  · intro h
    exact ⟨_, h.id, _, h.input, _, h.sharingState, _, h.output, _, h.version, _, h.tenant,
      _, h.externalId, _, h.createdAt, _, h.updatedAt, _, rfl,
      congrArg Except.ok (Relation.restore_snapshot h.live)⟩

/-! ## Rows in order -/

/-- The columns that hold keys. -/
def keyColumns : List String :=
  ["tenant_bpnl", "external_id", "output_source_bpnl", "output_target_bpnl"]

/-- The columns of a sharing state; the first one tells whether there is one. -/
def sharingStateColumns : List String :=
  ["sharing_state_type", "sharing_relation_type", "sharing_error_message", "sharing_updated_at"]

/-- The columns of an output; the first one tells whether there is one. -/
def outputColumns : List String :=
  ["output_relation_type", "output_source_bpnl", "output_target_bpnl", "output_updated_at"]

/-- The columns of an input stage; the first one tells whether there is one. -/
def inputColumns : List String :=
  joinedStageColumns.map (·.2)

/-- A text without the blanks around it, any other value as it is. -/
def Value.trimmed : Value → Value
  | .text s => .text (Text.trim s)
  | v => v

/-- A number has the bits of its type. -/
def Value.fits : Value → Bool
  | .int4 n => decide (-0x80000000 ≤ n) && decide (n < 0x80000000)
  | .int8 n => decide (-(maxWord + 1 : Int) ≤ n) && decide (n ≤ maxWord)
  | _ => true

namespace Row

/-- The cell of a column, without blanks around a key. -/
def tidy (row : Row) (column : String) : Cell :=
  if column ∈ keyColumns then (row.lookup column).join.map Value.trimmed
  else (row.lookup column).join

/-- Columns that hold something in every row. -/
def whole (row : Row) (columns : List String) : Row :=
  columns.map fun column => (column, row.tidy column)

/-- Columns that hold nothing if the first of them does not. -/
def part (row : Row) (columns : List String) : Row :=
  let absent := columns.head?.all fun tells => row.lookup tells = some none
  columns.map fun column => (column, if absent then none else row.tidy column)

/-- The row with the columns of a relation and of its input stage in their order, without
blanks around keys and with nothing in the columns of an absent part. -/
def canonical (row : Row) : Row :=
  row.whole ["id", "tenant_bpnl", "external_id", "version"] ++
    row.part sharingStateColumns ++ row.part outputColumns ++
    row.whole ["created_at", "updated_at"] ++ row.part inputColumns

/-- The numbers of a row have the bits of their types. -/
def fits (row : Row) : Bool :=
  row.all fun (_, c) => c.all Value.fits

variable {column : String} {c : Cell}

theorem fits_of_has {value : Value} (hfits : row.fits = true)
    (h : row.Has column (some value)) : value.fits = true := by
  obtain ⟨before, after, rfl, -⟩ := List.lookup_eq_some_iff.1 h
  exact List.all_eq_true.1 hfits (column, some value) (by simp)

theorem tidy_of_has (h : row.Has column c) (hcolumn : column ∉ keyColumns) :
    row.tidy column = c := by
  rw [tidy, if_neg hcolumn, h, Option.join_some]

theorem tidy_of_hasKey {kind : KeyKind} {k : Key kind} (h : row.HasKey column k)
    (hcolumn : column ∈ keyColumns) : row.tidy column = cell k.text := by
  obtain ⟨text, h, htrim⟩ := h
  rw [tidy, if_pos hcolumn, h, Option.join_some, ← htrim]
  rfl

theorem part_of_null {tells : String} {rest : List String} (h : row.Has tells none) :
    row.part (tells :: rest) = (tells :: rest).map fun column => (column, none) := by
  have htells : row.lookup tells = some none := h
  simp [part, htells]

theorem part_of_cell {α : Type} [ColumnType α] {a : α} {tells : String} {rest : List String}
    (h : row.Has tells (cell a)) : row.part (tells :: rest) = row.whole (tells :: rest) := by
  simp [part, whole, h.ne_null]

theorem part_of_holdsSharingState {state : Option RelationSharingState}
    (h : row.HoldsSharingState state) : row.part sharingStateColumns =
      [("sharing_state_type", nullable (state.map (·.stateType.name))),
       ("sharing_relation_type", nullable (state.map (·.relationType.name))),
       ("sharing_error_message", nullable (state.bind (·.errorMessage))),
       ("sharing_updated_at", nullable (state.map (·.updatedAt)))] := by
  cases state with
  | none => exact part_of_null h
  | some state =>
    obtain ⟨htells, htype, hmessage, hupdated⟩ := h
    refine (part_of_cell htells).trans ?_
    simp only [whole, List.map, tidy_of_has htells (by decide), tidy_of_has htype (by decide),
      tidy_of_has hmessage (by decide), tidy_of_has hupdated (by decide)]
    rfl

theorem part_of_holdsOutput {output : Option RelationOutput} (h : row.HoldsOutput output) :
    row.part outputColumns =
      [("output_relation_type", nullable (output.map (·.relationType.name))),
       ("output_source_bpnl", nullable (output.map (·.sourceBpnl.text))),
       ("output_target_bpnl", nullable (output.map (·.targetBpnl.text))),
       ("output_updated_at", nullable (output.map (·.updatedAt)))] := by
  cases output with
  | none => exact part_of_null h
  | some output =>
    obtain ⟨htells, hsource, htarget, hupdated⟩ := h
    refine (part_of_cell htells).trans ?_
    simp only [whole, List.map, tidy_of_has htells (by decide), tidy_of_hasKey hsource (by decide),
      tidy_of_hasKey htarget (by decide), tidy_of_has hupdated (by decide)]
    rfl

theorem part_of_holdsStage {id : RelationId} {stage : Option RelationStage}
    (h : row.HoldsStage id stage) : row.part inputColumns = joinedStage (stage.map stageRow) := by
  cases stage with
  | none => exact part_of_null h
  | some stage =>
    obtain ⟨htells, hsource, htarget, hcreated, hupdated, -⟩ := h
    refine (part_of_cell htells).trans ?_
    simp only [whole, List.map, tidy_of_has htells (by decide), tidy_of_has hsource (by decide),
      tidy_of_has htarget (by decide), tidy_of_has hcreated (by decide),
      tidy_of_has hupdated (by decide)]
    rfl

end Row

/-! ## There and back -/

theorem word_of_le {n : Nat} (h : n ≤ maxWord) : word n = n :=
  if_pos h

/-- A row holds the relation that it was written for. -/
theorem holds_joinedRow (h : Storable r) : (joinedRow r).Holds r := by
  obtain ⟨⟨live, input⟩, version⟩ := h
  have hversion : (joinedRow r).Has "version" (cell (word r.version)) := rfl
  rw [word_of_le version] at hversion
  refine ⟨live, rfl, Row.Has.key rfl, Row.Has.key rfl, hversion, ?_, ?_, rfl, rfl, ?_⟩
  · rcases r with ⟨_, _, _, _, _ | state⟩
    · exact rfl
    · exact ⟨rfl, rfl, rfl, rfl⟩
  · rcases r with ⟨_, _, _, _, _, _ | output⟩
    · exact rfl
    · exact ⟨rfl, Row.Has.key rfl, Row.Has.key rfl, rfl⟩
  · rcases r with ⟨_, _, _, _ | stage⟩
    · exact rfl
    · exact ⟨rfl, rfl, rfl, rfl, rfl, input stage rfl⟩

/-- What a row holds can be stored. -/
theorem storable_of_holds (hfits : row.fits = true) (h : row.Holds r) : Storable r where
  live := h.live
  input stage hstage := by
    have hinput := h.input
    rw [Option.mem_def.1 hstage] at hinput
    obtain ⟨-, -, -, -, -, hof⟩ := hinput
    exact hof
  version := by
    have hversion : (Value.int8 r.version).fits = true := Row.fits_of_has hfits h.version
    rw [Value.fits, Bool.and_eq_true, decide_eq_true_eq, decide_eq_true_eq] at hversion
    exact Int.ofNat_le.1 hversion.2

/-- What a row holds has that row, in order. -/
theorem joinedRow_of_holds (hfits : row.fits = true) (h : row.Holds r) : joinedRow r = row.canonical := by
  have hfirst : row.whole ["id", "tenant_bpnl", "external_id", "version"] =
      [("id", cell r.id.uuid), ("tenant_bpnl", cell r.tenant.text),
       ("external_id", cell r.externalId.text), ("version", cell (word r.version))] := by
    rw [word_of_le (storable_of_holds hfits h).version]
    simp only [Row.whole, List.map, Row.tidy_of_has h.id (by decide),
      Row.tidy_of_hasKey h.tenant (by decide), Row.tidy_of_hasKey h.externalId (by decide),
      Row.tidy_of_has h.version (by decide)]
  have hlast : row.whole ["created_at", "updated_at"] =
      [("created_at", cell r.createdAt), ("updated_at", cell r.updatedAt)] := by
    simp only [Row.whole, List.map, Row.tidy_of_has h.createdAt (by decide),
      Row.tidy_of_has h.updatedAt (by decide)]
  rw [Row.canonical, hfirst, hlast, Row.part_of_holdsSharingState h.sharingState,
    Row.part_of_holdsOutput h.output, Row.part_of_holdsStage h.input]
  rfl

/-- A relation is read from its row as it was written, and a row that is read as a relation is
the row of that relation once it is put in order. -/
theorem relation_rows_round_trip :
    (∀ r : Relation, Storable r → readRelation (joinedRow r) = .ok r) ∧
      ∀ (row : Row) (r : Relation), row.fits = true → readRelation row = .ok r →
        Storable r ∧ joinedRow r = row.canonical := by
  refine ⟨fun r h => readRelation_eq_ok.2 (holds_joinedRow h), fun row r hfits h => ?_⟩
  have hholds := readRelation_eq_ok.1 h
  exact ⟨storable_of_holds hfits hholds, joinedRow_of_holds hfits hholds⟩

private abbrev rowTenant : TenantBpnl := ⟨"T22", by cbv, by decide⟩

/-- A relation that waits to be shared. -/
def waitingRelation (n : Nat) : Relation :=
  .restore { id := ⟨.ofNat n⟩, tenant := rowTenant, externalId := .ofUuid .externalId (.ofNat n)
             input := some ⟨⟨.ofNat n⟩, .input, .isManagedBy, ⟨.ofNat 1⟩, ⟨.ofNat 2⟩, .epoch, .epoch⟩
             sharingState := some (.initial .isManagedBy .epoch), output := none
             createdAt := .epoch, updatedAt := .epoch, version := 1 }

/-- The row of one from the last column to the first, with blanks around the tenant and with the source
of an output that is not there. -/
def untidyRow : Row :=
  Row.overwrite ["tenant_bpnl", "output_source_bpnl"] (joinedRow (waitingRelation 22)).reverse
    [("tenant_bpnl", cell " T22 "), ("output_source_bpnl", cell "B1")]

theorem untidyRow_in_order :
    (Storable (waitingRelation 22) ∧
      readRelation (joinedRow (waitingRelation 22)) = .ok (waitingRelation 22)) ∧
    (untidyRow.fits = true ∧ readRelation untidyRow = .ok (waitingRelation 22)) ∧
      joinedRow (waitingRelation 22) = untidyRow.canonical :=
  have hread : readRelation untidyRow = .ok (waitingRelation 22) := readRelation_eq_ok.2
    ⟨rfl, rfl, ⟨" T22 ", rfl, by cbv⟩, Row.Has.key rfl, rfl, ⟨rfl, rfl, rfl, rfl⟩, rfl, rfl, rfl,
      ⟨rfl, rfl, rfl, rfl, rfl, ⟨rfl, rfl⟩⟩⟩
  have hfits : untidyRow.fits = true := by decide
  have hstored := relation_rows_round_trip.2 untidyRow (waitingRelation 22) hfits hread
  ⟨⟨hstored.1, relation_rows_round_trip.1 _ hstored.1⟩, ⟨hfits, hread⟩, hstored.2⟩

end Sql

end PartnerRelations
