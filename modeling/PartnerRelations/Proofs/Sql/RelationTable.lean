/-
# `Proofs.Sql.RelationTable` — what statements do to the tables of relations

A database is not part of this library.  For the tables of relations and of their stages the
meaning of the statements is short, and it is given here.  It is read off the texts: a row
gets the statement's parameters under the listed columns, in their order, and an update
assigns its parameters to the columns of its list and leaves the others.

    insertRelation    one more row
    updateRelation    the row with the identifier, if it has the version, gets new cells in the
                      columns of `updatedRelationColumns`
    deleteRelation    that row goes, and with it the rows of its stages
    writeStage        one more row; where the relation has a row of that stage, that one gets
                      new cells in the columns of `replacedStageColumns`
    deleteStage       the row of the relation's input stage goes
    findByKey         the rows of a name, each joined to the row of its input stage

A transaction works on tables of its own, which take the place of the others when it is
committed (`Database.answer`).  Constraints are no part of this meaning, so no statement is
refused, and what a commit makes of the tables is what its statements make of them one after
the other (`after_commit`).

The rest says what single changes make of tables that know nothing of a relation.

    after_insert            inserting it adds its rows
    after_find              it is found again by its name, as it was inserted
    after_update            updating it to what it has become replaces its rows
    after_delete            deleting it leaves the tables as they were
    update_writes_enough    so an update leaves what an insertion would have left, although it
                            writes less: commands change nothing that it does not write
-/
import PartnerRelations.Proofs.Sql.RelationRow
import PartnerRelations.Proofs.Sql.Transaction

namespace PartnerRelations.Sql

/-- The cell at a place of a statement, counted from one. -/
def Statement.place (s : Statement) (k : Nat) : Cell :=
  (s.params[k - 1]?.map Param.toCell).getD none

/-- The rows of relations and those of stages, in the order in which they came. -/
structure RelationTables where
  relations : List Row
  stages : List Row

namespace RelationTables

/-! ## Statements -/

/-- Add a row; where a row has the same cells in the columns of the key, overwrite some columns
of that one. -/
def upsert (key columns : List String) (row : Row) : List Row → List Row
  | [] => [row]
  | first :: rest =>
    if ∀ column ∈ key, first.lookup column = row.lookup column then
      first.overwrite columns row :: rest
    else first :: upsert key columns row rest

/-- The row of the relation with an identifier, if it has to have a version, then that one. -/
def isAt (id version : Cell) (row : Row) : Bool :=
  decide (row.lookup "id" = some id) &&
    (decide (version = none) || decide (row.lookup "version" = some version))

/-- A row of the relation with an identifier. -/
def isOf (id : Cell) (row : Row) : Bool :=
  decide (row.lookup "relation_id" = some id)

/-- The row of a relation's input stage. -/
def isInputOf (id : Cell) (row : Row) : Bool :=
  isOf id row && decide (row.lookup "stage" = some (cell "Input"))

/-- The row of a relation with a name. -/
def isNamed (tenant externalId : Cell) (row : Row) : Bool :=
  decide (row.lookup "tenant_bpnl" = some tenant) &&
    decide (row.lookup "external_id" = some externalId)

/-- A relation's row, joined to each row of its input stage; without one, to nothing. -/
def joins (stages : List Row) (row : Row) : List Row :=
  match stages.filter (isInputOf (row.lookup "id").join) with
  | [] => [row ++ joinedStage none]
  | found => found.map fun stage => row ++ joinedStage (some stage)

/-- What a statement finds in the tables and makes of them.  Statements about other tables, and
other questions about these, find nothing and leave them alone. -/
def execute (t : RelationTables) (s : Statement) : Outcome × RelationTables :=
  match s with
  | .insertRelation _ =>
    (⟨[], 1⟩, ⟨t.relations ++ [given (names relationColumns) s.params], t.stages⟩)
  | .updateRelation _ _ =>
    let columns := names updatedRelationColumns
    let sought := isAt (s.place 1) (s.place (columns.length + 2))
    let change (row : Row) :=
      if sought row then row.overwrite columns (given columns (s.params.drop 1)) else row
    (⟨[], t.relations.countP sought⟩, ⟨t.relations.map change, t.stages⟩)
  | .deleteRelation _ _ =>
    let sought := isAt (s.place 1) (s.place 2)
    let orphaned (row : Row) := (t.relations.filter sought).any fun relation =>
      isOf (relation.lookup "id").join row
    (⟨[], t.relations.countP sought⟩,
      ⟨t.relations.filter (!sought ·), t.stages.filter (!orphaned ·)⟩)
  | .writeStage _ =>
    (⟨[], 1⟩, ⟨t.relations, upsert (names stageIdentity) (names replacedStageColumns)
      (given (names stageColumns) s.params) t.stages⟩)
  | .deleteStage _ =>
    let sought := isInputOf (s.place 1)
    (⟨[], t.stages.countP sought⟩, ⟨t.relations, t.stages.filter (!sought ·)⟩)
  | .findByKey _ =>
    (⟨(t.relations.filter (isNamed (s.place 1) (s.place 2))).flatMap (joins t.stages), 0⟩, t)
  | _ => (⟨[], 0⟩, t)

end RelationTables

/-! ## Transactions -/

/-- The tables, and what an open transaction has made of them. -/
structure Database where
  tables : RelationTables
  working : Option RelationTables

/-- Answer a request. -/
def Database.answer : Request → StateM Database Reply
  | .connect => fun d => (.ok ⟨[], 0⟩, d)
  | .begin => fun d => (.ok ⟨[], 0⟩, ⟨d.tables, some d.tables⟩)
  | .commit => fun d => (.ok ⟨[], 0⟩, ⟨d.working.getD d.tables, none⟩)
  | .rollback => fun d => (.ok ⟨[], 0⟩, ⟨d.tables, none⟩)
  | .execute s => fun d =>
    match d.working with
    | some t => (.ok (t.execute s).1, ⟨d.tables, some (t.execute s).2⟩)
    | none => (.ok (d.tables.execute s).1, ⟨(d.tables.execute s).2, none⟩)

namespace RelationTables

/-- What a session comes to on the tables, and the tables after it. -/
def after {α : Type} (t : RelationTables) (session : Session α) : α × RelationTables :=
  let (a, d) := (Program.run Database.answer session).run ⟨t, none⟩
  (a, d.tables)

/-- The tables after statements one after the other, unless one of them does not go through. -/
def carry : List Statement → RelationTables → Except StoreError RelationTables
  | [], t => .ok t
  | s :: rest, t => do
    s.judge (.ok (t.execute s).1)
    carry rest (t.execute s).2

/-- The first statement is carried out, and judged by what it found. -/
theorem run_carryOut_cons (s : Statement) (rest : List Statement) (t working : RelationTables) :
    (Program.run Database.answer (carryOut (s :: rest))).run ⟨t, some working⟩ =
      (Program.run Database.answer
        (match s.judge (.ok (working.execute s).1) with
        | .ok () => carryOut rest
        | .error e => abandon (.ok (working.execute s).1) e)).run
          ⟨t, some (working.execute s).2⟩ := rfl

theorem run_carryOut (todo : List Statement) (t working : RelationTables) :
    (Program.run Database.answer (carryOut todo)).run ⟨t, some working⟩ =
      match carry todo working with
      | .ok t' => (.ok (), ⟨t', none⟩)
      | .error e => (.error e, ⟨t, none⟩) := by
  induction todo generalizing working with
  | nil => rfl
  | cons s rest ih =>
    rw [run_carryOut_cons, carry]
    cases s.judge (.ok (working.execute s).1) with
    | ok => exact ih _
    | error e => rfl

/-- A commit makes of the tables what its statements make of them, or it leaves them alone. -/
theorem after_commit (t : RelationTables) (changes : List RelationChange) :
    t.after (commit changes) =
      match carry (changes.flatMap statements) t with
      | .ok t' => (.ok (), t')
      | .error e => (.error e, t) := by
  cases changes with
  | nil => rfl
  | cons change rest =>
    have hbegin : t.after (commit (change :: rest)) =
        let (outcome, d) := (Program.run Database.answer
          (carryOut ((change :: rest).flatMap statements))).run ⟨t, some t⟩
        (outcome, d.tables) := rfl
    rw [hbegin, run_carryOut]
    cases carry ((change :: rest).flatMap statements) t <;> rfl

/-! ## One relation among others -/

/-- No row is one of the relation with an identifier. -/
structure Lacks (t : RelationTables) (id : RelationId) : Prop where
  relations : ∀ row ∈ t.relations, row.lookup "id" ≠ some (cell id.uuid)
  stages : ∀ row ∈ t.stages, row.lookup "relation_id" ≠ some (cell id.uuid)

/-- The tables with the rows of a relation. -/
def add (t : RelationTables) (r : Relation) : RelationTables :=
  ⟨t.relations ++ [relationRow r], t.stages ++ (r.input.map stageRow).toList⟩

variable {t : RelationTables} {r : Relation} {stage : RelationStage} {id : RelationId}

/-! A statement is about the last rows, and about no other. -/

section Own

variable {p : Row → Bool} {rows own : List Row}

theorem filter_own (hothers : ∀ row ∈ rows, p row = false) (hown : ∀ row ∈ own, p row = true) :
    (rows ++ own).filter p = own := by
  have hnone : rows.filter p = [] :=
    List.filter_eq_nil_iff.2 fun row hrow => by simp [hothers row hrow]
  rw [List.filter_append, hnone, List.nil_append, List.filter_eq_self.2 hown]

theorem filter_others (hothers : ∀ row ∈ rows, p row = false) (hown : ∀ row ∈ own, p row = true) :
    (rows ++ own).filter (!p ·) = rows := by
  have hleft : rows.filter (!p ·) = rows :=
    List.filter_eq_self.2 fun row hrow => by rw [hothers row hrow, Bool.not_false]
  have hgone : own.filter (!p ·) = [] :=
    List.filter_eq_nil_iff.2 fun row hrow => by simp [hown row hrow]
  rw [List.filter_append, hleft, hgone, List.append_nil]

theorem countP_own (hothers : ∀ row ∈ rows, p row = false) (hown : ∀ row ∈ own, p row = true) :
    (rows ++ own).countP p = own.length := by
  rw [List.countP_eq_length_filter, filter_own hothers hown]

theorem map_own {f : Row → Row} (hothers : ∀ row ∈ rows, p row = false)
    (hown : ∀ row ∈ own, p row = true) :
    (rows ++ own).map (fun row => if p row then f row else row) = rows ++ own.map f := by
  have hleft : rows.map (fun row => if p row then f row else row) = rows.map id :=
    List.map_congr_left fun row hrow => by simp [hothers row hrow]
  have hright : own.map (fun row => if p row then f row else row) = own.map f :=
    List.map_congr_left fun row hrow => if_pos (hown row hrow)
  rw [List.map_append, hleft, hright, List.map_id]

end Own

/-- A row is added behind rows with other keys. -/
theorem upsert_append {key columns : List String} {row : Row} {rows rest : List Row}
    (h : ∀ other ∈ rows, ¬∀ column ∈ key, other.lookup column = row.lookup column) :
    upsert key columns row (rows ++ rest) = rows ++ upsert key columns row rest := by
  induction rows with
  | nil => rfl
  | cons first rows ih =>
    obtain ⟨hfirst, hrows⟩ := List.forall_mem_cons.1 h
    rw [List.cons_append, upsert, if_neg hfirst, ih hrows]
    rfl

namespace Lacks

theorem isAt_eq_false (h : t.Lacks id) (version : Cell) :
    ∀ row ∈ t.relations, isAt (cell id.uuid) version row = false := by
  intro row hrow
  rw [isAt, decide_eq_false (h.relations row hrow), Bool.false_and]

theorem isOf_eq_false (h : t.Lacks id) : ∀ row ∈ t.stages, isOf (cell id.uuid) row = false :=
  fun row hrow => decide_eq_false (h.stages row hrow)

theorem isInputOf_eq_false (h : t.Lacks id) :
    ∀ row ∈ t.stages, isInputOf (cell id.uuid) row = false := by
  intro row hrow
  rw [isInputOf, h.isOf_eq_false row hrow, Bool.false_and]

/-- A stage of the relation is written behind all others. -/
theorem upsert_stageRow (h : t.Lacks stage.relationId) (own : List Row) :
    upsert (names stageIdentity) (names replacedStageColumns) (stageRow stage) (t.stages ++ own) =
      t.stages ++
        upsert (names stageIdentity) (names replacedStageColumns) (stageRow stage) own := by
  refine upsert_append fun other hother hkey => ?_
  have hid : other.lookup "relation_id" = some (cell stage.relationId.uuid) :=
    hkey "relation_id" (by decide)
  exact h.stages other hother hid

end Lacks

/-! ### The rows of a relation -/

/-- The row of a relation is at its version. -/
theorem isAt_relationRow {expected : ExpectedVersion} (h : expected.admits r.version = true) :
    isAt (cell r.id.uuid) (Statement.expectedVersion expected).toCell (relationRow r) = true := by
  have hid : (relationRow r).lookup "id" = some (cell r.id.uuid) := rfl
  rw [isAt, decide_eq_true hid, Bool.true_and]
  cases expected with
  | any => rfl
  | exact version =>
    obtain rfl : version = r.version := by simpa [ExpectedVersion.admits] using h
    have hversion : (relationRow r).lookup "version" = some (cell (word r.version)) := rfl
    exact Bool.or_eq_true_iff.2 (.inr (decide_eq_true hversion))

/-- Writing a relation over an older state that it keeps gives its row. -/
theorem overwrite_relationRow {first : Relation} (h : first.Keeps r) (expected : ExpectedVersion) :
    (relationRow first).overwrite (names updatedRelationColumns)
        (given (names updatedRelationColumns)
          ((Statement.updateRelation r expected).params.drop 1)) = relationRow r := by
  have htenant : first.tenant = r.tenant := (congrArg RelationKey.tenant h.key).symm
  have hname : first.externalId = r.externalId := (congrArg RelationKey.externalId h.key).symm
  have hkept : { r with
      id := first.id, tenant := first.tenant, externalId := first.externalId
      createdAt := first.createdAt } = r := by rw [htenant, hname, ← h.id, ← h.createdAt]
  exact congrArg relationRow hkept

theorem isInputOf_stageRow (h : stage.InputOf id) :
    isInputOf (cell id.uuid) (stageRow stage) = true := by
  have hkind : (stageRow stage).lookup "stage" = some (cell stage.stage.name) := rfl
  rw [h.kind] at hkind
  rw [← h.owner]
  exact Bool.and_eq_true_iff.2 ⟨decide_eq_true rfl, decide_eq_true hkind⟩

theorem isInputOf_own {input : Option RelationStage} (h : ∀ stage ∈ input, stage.InputOf id) :
    ∀ row ∈ (input.map stageRow).toList, isInputOf (cell id.uuid) row = true := by
  intro row hrow
  obtain ⟨stage, hstage, rfl⟩ : ∃ stage, input = some stage ∧ stageRow stage = row := by
    simpa using hrow
  exact isInputOf_stageRow (h stage hstage)

/-- Writing a stage over an older state with its frame gives its row. -/
theorem upsert_older {first : RelationStage} (h : stage.frame = first.frame) :
    upsert (names stageIdentity) (names replacedStageColumns) (stageRow stage) [stageRow first] =
      [stageRow stage] := by
  cases first
  cases stage
  cases h
  refine if_pos fun column hcolumn => ?_
  rcases List.mem_cons.1 hcolumn with rfl | hcolumn
  · rfl
  · rw [List.mem_singleton.1 hcolumn]
    rfl

/-- No stage's statement has to find anything. -/
theorem carry_stageStatement (t : RelationTables) (r : Relation) :
    carry [stageStatement r] t = .ok (t.execute (stageStatement r)).2 := by
  unfold stageStatement
  cases r.input <;> rfl

/-- The statement on the stage leaves the relation's stage, whether there was an older state of
it or none. -/
theorem execute_stageStatement (h : t.Lacks r.id) (hr : ∀ stage ∈ r.input, stage.InputOf r.id)
    (older : Option RelationStage) (holder : ∀ first ∈ older, first.InputOf r.id)
    (hframe : ∀ first ∈ older, ∀ stage ∈ r.input, stage.frame = first.frame)
    (relations : List Row) :
    (execute ⟨relations, t.stages ++ (older.map stageRow).toList⟩ (stageStatement r)).2 =
      ⟨relations, t.stages ++ (r.input.map stageRow).toList⟩ := by
  unfold stageStatement
  cases hinput : r.input with
  | none =>
    have hrows : (t.stages ++ (older.map stageRow).toList).filter
        (!isInputOf (cell r.id.uuid) ·) = t.stages :=
      filter_others h.isInputOf_eq_false (isInputOf_own holder)
    rw [Option.map_none, Option.toList_none, List.append_nil]
    exact congrArg (RelationTables.mk relations) hrows
  | some stage =>
    have hlacks : t.Lacks stage.relationId := (hr stage hinput).owner ▸ h
    have hrows := hlacks.upsert_stageRow (older.map stageRow).toList
    cases older with
    | none => exact congrArg (RelationTables.mk relations) hrows
    | some first =>
      rw [Option.map_some, Option.toList_some, upsert_older (hframe first rfl stage hinput)] at hrows
      exact congrArg (RelationTables.mk relations) hrows

/-! ### Changes -/

/-- Inserting a relation adds its rows. -/
theorem after_insert (h : t.Lacks r.id) (hr : r.Rooted) :
    t.after (commit [.insert r]) = (.ok (), t.add r) := by
  have hcarry : carry ([RelationChange.insert r].flatMap statements) t =
      carry [stageStatement r] ⟨t.relations ++ [relationRow r], t.stages⟩ := rfl
  have hstage := execute_stageStatement h hr.input none nofun nofun (t.relations ++ [relationRow r])
  rw [Option.map_none, Option.toList_none, List.append_nil] at hstage
  rw [after_commit, hcarry, carry_stageStatement, hstage]
  rfl

/-- Updating a relation that was kept replaces its rows. -/
theorem after_update {first : Relation} {expected : ExpectedVersion} (h : t.Lacks first.id)
    (hfirst : first.Rooted) (hr : r.Rooted) (hkeeps : first.Keeps r)
    (hexpected : expected.admits first.version = true) :
    (t.add first).after (commit [.update r expected]) = (.ok (), t.add r) := by
  let sought := isAt (cell r.id.uuid) (Statement.expectedVersion expected).toCell
  let change (row : Row) := row.overwrite (names updatedRelationColumns)
    (given (names updatedRelationColumns) ((Statement.updateRelation r expected).params.drop 1))
  have hothers : ∀ row ∈ t.relations, sought row = false :=
    (hkeeps.id ▸ h).isAt_eq_false _
  have hown : ∀ row ∈ [relationRow first], sought row = true := by
    have hrow := isAt_relationRow hexpected
    rw [← hkeeps.id] at hrow
    simpa using hrow
  have hcarry : carry ([RelationChange.update r expected].flatMap statements) (t.add first) =
      ensureFound r.id expected ⟨[], (t.add first).relations.countP sought⟩ >>= fun _ =>
        carry [stageStatement r]
          ⟨(t.add first).relations.map fun row => if sought row then change row else row,
            (t.add first).stages⟩ := rfl
  have hcount : (t.add first).relations.countP sought = 1 := countP_own hothers hown
  have hrelations : ((t.add first).relations.map fun row =>
      if sought row then change row else row) = t.relations ++ [relationRow r] := by
    have hchange : change (relationRow first) = relationRow r :=
      overwrite_relationRow hkeeps expected
    rw [add, map_own hothers hown, List.map_singleton, hchange]
  have hframe : ∀ older ∈ first.input, ∀ stage ∈ r.input, stage.frame = older.frame := by
    intro older holder stage hstage
    obtain ⟨older', holder', hframe⟩ := hkeeps.exists_stage hstage
    rwa [Option.mem_unique holder holder']
  have hstage := execute_stageStatement (hkeeps.id ▸ h) hr.input first.input
    (hkeeps.id ▸ hfirst.input) hframe (t.relations ++ [relationRow r])
  have hcarried : carry ([RelationChange.update r expected].flatMap statements) (t.add first) =
      .ok (t.add r) := by
    rw [hcarry, hcount, hrelations, carry_stageStatement]
    exact congrArg Except.ok hstage
  rw [after_commit, hcarried]

/-- Deleting a relation at its version takes its rows away again. -/
theorem after_delete {expected : ExpectedVersion} (h : t.Lacks r.id) (hr : r.Rooted)
    (hexpected : expected.admits r.version = true) :
    (t.add r).after (commit [.delete r.id expected]) = (.ok (), t) := by
  let sought := isAt (cell r.id.uuid) (Statement.expectedVersion expected).toCell
  let orphaned (row : Row) := ((t.add r).relations.filter sought).any fun relation =>
    isOf (relation.lookup "id").join row
  have hothers : ∀ row ∈ t.relations, sought row = false := h.isAt_eq_false _
  have hown : ∀ row ∈ [relationRow r], sought row = true := by
    simpa using isAt_relationRow hexpected
  have hcarry : carry ([RelationChange.delete r.id expected].flatMap statements) (t.add r) =
      ensureFound r.id expected ⟨[], (t.add r).relations.countP sought⟩ >>= fun _ =>
        .ok ⟨(t.add r).relations.filter (!sought ·), (t.add r).stages.filter (!orphaned ·)⟩ := rfl
  have hcount : (t.add r).relations.countP sought = 1 := countP_own hothers hown
  have hrelations : (t.add r).relations.filter (!sought ·) = t.relations :=
    filter_others hothers hown
  have hsought : (t.add r).relations.filter sought = [relationRow r] := filter_own hothers hown
  have horphaned : orphaned = isOf (cell r.id.uuid) := by
    have hid : ((relationRow r).lookup "id").join = cell r.id.uuid := rfl
    funext row
    rw [← hid]
    simp [orphaned, hsought]
  have hstages : (t.add r).stages.filter (!orphaned ·) = t.stages := by
    rw [horphaned]
    exact filter_others h.isOf_eq_false fun row hrow =>
      (Bool.and_eq_true_iff.1 (isInputOf_own hr.input row hrow)).1
  rw [after_commit, hcarry, hcount, hrelations, hstages]
  rfl

/-- A relation whose rows were added is found by its name, if no other relation has it. -/
theorem after_find (h : t.Lacks r.id) (hr : Storable r)
    (hname : ∀ row ∈ t.relations,
      isNamed (cell r.tenant.text) (cell r.externalId.text) row = false) :
    (t.add r).after (find r.key).run = (.ok (some r), t.add r) := by
  have hfind : (t.add r).after (find r.key).run =
      ((((t.add r).relations.filter
          (isNamed (cell r.tenant.text) (cell r.externalId.text))).flatMap
            (joins (t.add r).stages)).head?.mapM readRelation, t.add r) := rfl
  have hfound : (t.add r).relations.filter
      (isNamed (cell r.tenant.text) (cell r.externalId.text)) = [relationRow r] := by
    have hown : isNamed (cell r.tenant.text) (cell r.externalId.text) (relationRow r) = true :=
      Bool.and_eq_true_iff.2 ⟨decide_eq_true rfl, decide_eq_true rfl⟩
    exact filter_own hname (by simpa using hown)
  have hjoins : joins (t.add r).stages (relationRow r) = [joinedRow r] := by
    have hid : ((relationRow r).lookup "id").join = cell r.id.uuid := rfl
    have hstages : (t.add r).stages.filter (isInputOf (cell r.id.uuid)) =
        (r.input.map stageRow).toList := filter_own h.isInputOf_eq_false (isInputOf_own hr.input)
    rw [joins, hid, hstages, joinedRow]
    cases r.input <;> rfl
  rw [hfind, hfound, List.flatMap_singleton, hjoins, List.head?_cons, Option.mapM_some,
    readRelation_eq_ok.2 (holds_joinedRow hr)]
  rfl

/-- An update writes enough.  Whatever a relation is told after it was inserted, except to be
deleted, updating it leaves the rows that inserting it as it is now would have left: what the
update does not write is what the relation keeps. -/
theorem update_writes_enough {commands : List RelationCommand} {expected : ExpectedVersion}
    (hlacks : t.Lacks r.id) (hr : r.Rooted)
    (hcommands : ∀ command ∈ commands, command.isDelete = false)
    (hexpected : expected.admits r.version = true) :
    let r' := (r.obeyAll commands).1
    r.Keeps r' ∧
      t.after (commit [.insert r]) = (.ok (), t.add r) ∧
      t.after (commit [.insert r']) = (.ok (), t.add r') ∧
      (t.add r).after (commit [.update r' expected]) = (.ok (), t.add r') := by
  intro r'
  have hkeeps : r.Keeps r' := (Relation.keeps_obeyAll hr.live hcommands).1
  have hr' : r'.Rooted := hr.obeyAll hcommands
  have hlacks' : t.Lacks r'.id := hkeeps.id ▸ hlacks
  exact ⟨hkeeps, after_insert hlacks hr, after_insert hlacks' hr',
    after_update hlacks hr hr' hkeeps hexpected⟩

/-- Tables with another relation. -/
def inhabitedTables : RelationTables :=
  add ⟨[], []⟩ (waitingRelation 24)

/-- Claimed, changed to another kind between other partners, and promoted; that it is created
again is refused. -/
def laterCommands : List RelationCommand :=
  let source : ResolvedPartner := ⟨⟨.ofNat 3⟩, ⟨"P31", by cbv, by decide⟩⟩
  let target : ResolvedPartner := ⟨⟨.ofNat 4⟩, ⟨"P32", by cbv, by decide⟩⟩
  let later : Instant := { Instant.epoch with day := 1 }
  [.startSharing later, .updateInput .isOwnedBy source target later,
    .createInput .isManagedBy source target later,
    .publishOutput .isOwnedBy ⟨"B3", by cbv, by decide⟩ ⟨"B4", by cbv, by decide⟩ later]

theorem laterCommands_written :
    let r := waitingRelation 23
    let r' := (r.obeyAll laterCommands).1
    (inhabitedTables.Lacks r.id ∧ r.Rooted ∧
      (∀ command ∈ laterCommands, command.isDelete = false) ∧ r'.version = 5) ∧
    (inhabitedTables.add r).after (commit [.update r' (.exact 1)]) =
      (.ok (), inhabitedTables.add r') := by
  have hlacks : inhabitedTables.Lacks (waitingRelation 23).id := ⟨by decide, by decide⟩
  have hr : (waitingRelation 23).Rooted := ⟨rfl, by rintro stage ⟨⟩; exact ⟨rfl, rfl⟩⟩
  have hcommands : ∀ command ∈ laterCommands, command.isDelete = false := by decide
  exact ⟨⟨hlacks, hr, hcommands, by rfl⟩, (update_writes_enough hlacks hr hcommands rfl).2.2.2⟩

end RelationTables

end PartnerRelations.Sql
