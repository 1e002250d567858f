/-
# `Proofs.Sql.Transaction` — what a commit says to its database

A batch of changes is one transaction.  Each change has its statements (`Makes`):

    insert    INSERT INTO relations, and then the stage
    update    UPDATE relations, and then the stage
    delete    DELETE FROM relations

where the stage is an upsert for a relation that has an input stage, and a deletion for one
that has none (`Stages`).  Whatever the database answers (`Transaction`):

    order       the statements of the changes are sent in order, each once
    failure     after the first exchange that fails nothing is sent but a rollback
    commit      is asked for only after every statement went through
    outcome     success if the commit was acknowledged, else what the first failure says

A statement went through if it was carried out and found the relation that it sought.
`Statement.Fails` says what every other answer means: that a name is taken, for a refused
insertion with the code of a taken key; that a relation changed, for an update or a deletion
that found nothing; and a fault of the database in every other case.

The database is any that answers and remembers (`Program.converse`), so nothing is assumed
of its answers.
-/
import Mathlib.Data.List.Forall2
import PartnerRelations.Proofs.Program.Conversation
import PartnerRelations.Sql.Store

namespace PartnerRelations.Sql

/-! ## The statements of a change -/

/-- The statement leaves the input stage of a relation as the relation has it. -/
inductive Stages (relation : Relation) : Statement → Prop where
  | written {stage : RelationStage} : relation.input = some stage →
      Stages relation (.writeStage stage)
  | removed : relation.input = none → Stages relation (.deleteStage relation.id)

/-- The statements make a change, carried out in order. -/
inductive Makes : RelationChange → List Statement → Prop where
  | insert {relation : Relation} {stage : Statement} : Stages relation stage →
      Makes (.insert relation) [.insertRelation relation, stage]
  | update {relation : Relation} {expected : ExpectedVersion} {stage : Statement} :
      Stages relation stage →
      Makes (.update relation expected) [.updateRelation relation expected, stage]
  | delete {id : RelationId} {expected : ExpectedVersion} :
      Makes (.delete id expected) [.deleteRelation id expected]

theorem stages_stageStatement (relation : Relation) :
    Stages relation (stageStatement relation) := by
  unfold stageStatement
  split
  · next h => exact .written h
  · next h => exact .removed h

theorem makes_statements (change : RelationChange) : Makes change (statements change) := by
  cases change with
  | insert relation => exact .insert (stages_stageStatement relation)
  | update relation => exact .update (stages_stageStatement relation)
  | delete => exact .delete

/-! ## Statements that go through and statements that fail -/

namespace Statement

variable {s : Statement} {reply : Reply} {e : StoreError} {u : Unit}

/-- The relation that a statement has to find, and the version that it expects there. -/
def sought? : Statement → Option (RelationId × ExpectedVersion)
  | updateRelation relation expected => some (relation.id, expected)
  | deleteRelation id expected => some (id, expected)
  | _ => none

/-- The statement was carried out, and found what it sought. -/
def WentThrough (s : Statement) (reply : Reply) : Prop :=
  ∃ outcome, reply = .ok outcome ∧ (s.sought?.isSome = true → outcome.affected ≠ 0)

/-- The statement inserts a relation, and is refused with the code of a unique violation. -/
def Taken (s : Statement) (reply : Reply) (relation : Relation) : Prop :=
  s = .insertRelation relation ∧ ∃ message, reply = .error (.refused "23505" message)

/-- The statement was carried out, and did not find what it sought. -/
def Missed (s : Statement) (reply : Reply) : Prop :=
  s.sought?.isSome = true ∧ ∃ outcome, reply = .ok outcome ∧ outcome.affected = 0

/-- The statement did not go through, and what is said of that. -/
inductive Fails (s : Statement) (reply : Reply) : StoreError → Prop where
  | taken {relation : Relation} : s.Taken reply relation →
      Fails s reply (.duplicateExternalId relation.tenant relation.externalId)
  | missed {id : RelationId} {expected : ExpectedVersion} : s.Missed reply →
      s.sought? = some (id, expected) →
      Fails s reply (.concurrency s!"relation {id.text}: expected {expected.text}")
  | broken {fault : Fault} : (∀ relation, ¬s.Taken reply relation) → reply = .error fault →
      Fails s reply (fault.error s.operation)

theorem wentThrough_or_fails (s : Statement) (reply : Reply) :
    s.WentThrough reply ∨ ∃ e, s.Fails reply e := by
  cases reply with
  | ok outcome =>
    by_cases hmissed : s.Missed (.ok outcome)
    · obtain ⟨sought, hsought⟩ := Option.isSome_iff_exists.1 hmissed.1
      exact .inr ⟨_, .missed hmissed hsought⟩
    · refine .inl ⟨outcome, rfl, fun hs h => ?_⟩
      exact hmissed ⟨hs, outcome, rfl, h⟩
  | error fault =>
    right
    by_cases htaken : ∃ relation, s.Taken (.error fault) relation
    · obtain ⟨relation, h⟩ := htaken
      exact ⟨_, .taken h⟩
    · exact ⟨_, .broken (not_exists.1 htaken) rfl⟩

theorem judge_of_wentThrough (h : s.WentThrough reply) : s.judge reply = .ok () := by
  obtain ⟨outcome, rfl, hfound⟩ := h
  cases s with
  | updateRelation => exact if_neg (hfound rfl)
  | deleteRelation => exact if_neg (hfound rfl)
  | _ => rfl

theorem judge_of_fails (h : s.Fails reply e) : s.judge reply = .error e := by
  cases h with
  | taken h =>
    obtain ⟨rfl, message, rfl⟩ := h
    rw [judge, uniqueViolation, if_pos rfl]
  | missed h hsought =>
    obtain ⟨-, outcome, rfl, hnone⟩ := h
    cases s with
    | updateRelation => cases hsought; exact if_pos hnone
    | deleteRelation => cases hsought; exact if_pos hnone
    | _ => cases hsought
  | @broken fault hother hreply =>
    subst hreply
    cases s with
    | insertRelation relation =>
      cases fault with
      | refused code message =>
        refine if_neg fun hcode => hother relation ⟨rfl, message, ?_⟩
        rw [hcode, uniqueViolation]
      | _ => rfl
    | _ => rfl

theorem judge_eq_error : s.judge reply = .error e ↔ s.Fails reply e := by
  refine ⟨fun h => ?_, judge_of_fails⟩
  obtain hwent | ⟨e', hfails⟩ := wentThrough_or_fails s reply
  · rw [judge_of_wentThrough hwent] at h
    cases h
  · rw [judge_of_fails hfails] at h
    cases h
    exact hfails

theorem WentThrough.not_fails (h : s.WentThrough reply) : ¬s.Fails reply e := by
  rw [← judge_eq_error, judge_of_wentThrough h]
  exact nofun

theorem Fails.unique {e' : StoreError} (h : s.Fails reply e) (h' : s.Fails reply e') : e' = e := by
  rw [← judge_eq_error, judge_of_fails h] at h'
  cases h'
  rfl

end Statement

/-! ## Talking to a database -/

theorem Fault.exists_backend (operation : String) (fault : Fault) :
    ∃ reason, fault.error operation = .backend reason := by
  cases fault <;> exact ⟨_, rfl⟩

/-- A request to a database with its answer. -/
abbrev Talk := Exchange fun _ : Request => Reply

namespace Talk

/-- An exchange that ends a transaction without success, and what is said of that. -/
inductive Fails : Talk → StoreError → Prop where
  | opening {fault : Fault} : Fails ⟨.begin, .error fault⟩ (fault.error "begin_transaction")
  | statement {s : Statement} {reply : Reply} {e : StoreError} : s.Fails reply e →
      Fails ⟨.execute s, reply⟩ e
  | closing {fault : Fault} : Fails ⟨.commit, .error fault⟩ (fault.error "commit_transaction")

/-- The statement that was sent. -/
def statement? (x : Talk) : Option Statement :=
  match x.request with
  | .execute s => some s
  | _ => none

variable {x : Talk} {e e' : StoreError}

theorem Fails.unique (h : x.Fails e) (h' : x.Fails e') : e' = e := by
  cases h with
  | opening => cases h'; rfl
  | closing => cases h'; rfl
  | statement h => cases h' with | statement h' => exact h.unique h'

/-- What is said of a failure tells its kind. -/
theorem Fails.kind (h : x.Fails e) :
    (∃ relation message, x = ⟨.execute (.insertRelation relation),
        .error (.refused "23505" message)⟩ ∧
      e = .duplicateExternalId relation.tenant relation.externalId) ∨
    (∃ s answer, x = ⟨.execute s, .ok answer⟩ ∧ s.sought?.isSome = true ∧ answer.affected = 0 ∧
      ∃ reason, e = .concurrency reason) ∨
    ∃ reason, e = .backend reason := by
  cases h with
  | opening => exact .inr (.inr (Fault.exists_backend ..))
  | closing => exact .inr (.inr (Fault.exists_backend ..))
  | statement h =>
    cases h with
    | taken h =>
      obtain ⟨rfl, message, rfl⟩ := h
      exact .inl ⟨_, message, rfl, rfl⟩
    | missed h _ =>
      obtain ⟨hsought, answer, rfl, hnone⟩ := h
      exact .inr (.inl ⟨_, answer, rfl, hsought, hnone, _, rfl⟩)
    | broken => exact .inr (.inr (Fault.exists_backend ..))

/-- Nothing is said of a rollback. -/
theorem not_fails_of_rollback (h : x.request = .rollback) : ¬x.Fails e := by
  intro hfails
  cases hfails <;> cases h

end Talk

/-- The statements that were sent, in order. -/
def executed (talk : List Talk) : List Statement :=
  talk.filterMap Talk.statement?

variable {talk closing : List Talk} {x : Talk} {outcome : Except StoreError Unit}
  {todo : List Statement} {s : Statement} {reply : Reply} {e : StoreError}

/-- Nothing follows but a rollback, or nothing at all. -/
def RolledBack (closing : List Talk) : Prop :=
  (closing.map (·.request)).Sublist [.rollback]

theorem rolledBack_nil : RolledBack [] :=
  List.nil_sublist _

theorem RolledBack.request_eq (h : RolledBack closing) (hx : x ∈ closing) :
    x.request = .rollback :=
  List.mem_singleton.1 (h.subset (List.mem_map_of_mem hx))

/-- The outcome is read off the talk: it is a success if a commit was acknowledged, and
otherwise what an exchange says that failed.  Nothing but a rollback follows such a one, and
what succeeds is not rolled back. -/
structure Decides (talk : List Talk) (outcome : Except StoreError Unit) : Prop where
  ends : talk.Pairwise fun x y => (∃ e, x.Fails e) → y.request = .rollback
  rollback : ∀ x ∈ talk, x.request = .rollback → ∃ e, outcome = .error e
  ok_iff : outcome = .ok () ↔ ∃ answer, ⟨.commit, .ok answer⟩ ∈ talk
  error_iff : ∀ e, outcome = .error e ↔ ∃ x ∈ talk, x.Fails e

/-- An exchange before the end that does not fail decides nothing. -/
theorem Decides.cons (h : Decides talk outcome) (hx : ∀ e, ¬x.Fails e)
    (hcommit : x.request ≠ .commit) (hrollback : x.request ≠ .rollback) :
    Decides (x :: talk) outcome where
  ends := List.pairwise_cons.2 ⟨fun _ _ ⟨e, hfails⟩ => absurd hfails (hx e), h.ends⟩
  rollback := List.forall_mem_cons.2 ⟨fun hx => absurd hx hrollback, h.rollback⟩
  ok_iff := by
    rw [h.ok_iff]
    refine exists_congr fun answer => ⟨List.mem_cons_of_mem x, fun hmem => ?_⟩
    rcases List.mem_cons.1 hmem with rfl | hmem
    · exact absurd rfl hcommit
    · exact hmem
  error_iff e := by
    simp only [h.error_iff, List.mem_cons, exists_eq_or_imp, hx e, false_or]

/-- An exchange that fails decides everything. -/
theorem decides_of_fails (hx : x.Fails e) (hend : RolledBack closing) :
    Decides (x :: closing) (.error e) where
  ends := by
    refine List.pairwise_cons.2 ⟨fun y hy _ => hend.request_eq hy, ?_⟩
    exact List.pairwise_of_forall_mem_list fun y _ z hz _ => hend.request_eq hz
  rollback _ _ _ := ⟨e, rfl⟩
  ok_iff := by
    refine iff_of_false nofun ?_
    rintro ⟨answer, hmem⟩
    rcases List.mem_cons.1 hmem with rfl | hmem
    · cases hx
    · cases hend.request_eq hmem
  error_iff e' := by
    have hclosing : ¬∃ y ∈ closing, y.Fails e' := fun ⟨y, hy, hfails⟩ =>
      Talk.not_fails_of_rollback (hend.request_eq hy) hfails
    simp only [List.mem_cons, exists_eq_or_imp, hclosing, or_false]
    constructor
    · rintro ⟨⟩
      exact hx
    · intro hx'
      rw [hx.unique hx']

theorem decides_commit (answer : Outcome) : Decides [⟨.commit, .ok answer⟩] (.ok ()) where
  ends := List.pairwise_singleton ..
  rollback x hx hrollback := by
    cases List.mem_singleton.1 hx
    cases hrollback
  ok_iff := iff_of_true rfl ⟨answer, List.mem_singleton_self _⟩
  error_iff e := by
    refine iff_of_false nofun ?_
    rintro ⟨x, hx, hfails⟩
    cases List.mem_singleton.1 hx
    cases hfails

/-! ## Carrying statements out -/

/-- A rollback is no statement. -/
theorem executed_of_rollback (hend : RolledBack closing) : executed closing = [] := by
  refine List.filterMap_eq_nil_iff.2 fun y hy => ?_
  rw [Talk.statement?, hend.request_eq hy]

/-- The statements are sent in order, and a commit is asked for only after all of them went
through.  Besides them there is nothing but a commit and a rollback, each at most once. -/
structure Sends (todo : List Statement) (talk : List Talk) : Prop where
  order : executed talk <+: todo
  nothingElse : ∃ closing, closing.Sublist [.commit, .rollback] ∧
    talk.map (·.request) = (executed talk).map .execute ++ closing
  commit : ∀ x ∈ talk, x.request = .commit → executed talk = todo ∧
    ∀ s reply, ⟨.execute s, reply⟩ ∈ talk → s.WentThrough reply

theorem Sends.cons (h : Sends todo talk) (hs : s.WentThrough reply) :
    Sends (s :: todo) (⟨.execute s, reply⟩ :: talk) where
  order := (List.prefix_cons_inj s).2 h.order
  nothingElse := by
    obtain ⟨closing, hclosing, hrequests⟩ := h.nothingElse
    refine ⟨closing, hclosing, ?_⟩
    rw [List.map_cons, hrequests]
    rfl
  commit x hx hcommit := by
    rcases List.mem_cons.1 hx with rfl | hx
    · cases hcommit
    · obtain ⟨hall, hwent⟩ := h.commit x hx hcommit
      refine ⟨congrArg (List.cons s) hall, fun s' reply' hmem => ?_⟩
      rcases List.mem_cons.1 hmem with heq | hmem
      · cases heq
        exact hs
      · exact hwent s' reply' hmem

/-- Where a statement fails, no commit is asked for. -/
theorem sends_failed (hend : RolledBack closing) :
    Sends (s :: todo) (⟨.execute s, reply⟩ :: closing) := by
  have hsent : executed (⟨.execute s, reply⟩ :: closing) = [s] :=
    congrArg (List.cons s) (executed_of_rollback hend)
  refine ⟨?order, ?nothingElse, ?commit⟩
  case order =>
    rw [hsent]
    exact ⟨todo, rfl⟩
  case nothingElse =>
    rw [hsent]
    exact ⟨closing.map (·.request), hend.cons _, rfl⟩
  case commit =>
    intro x hx hcommit
    rcases List.mem_cons.1 hx with rfl | hx
    · cases hcommit
    · cases (hend.request_eq hx).symm.trans hcommit

/-- After the last statement the commit is asked for. -/
theorem sends_commit (hend : RolledBack closing) : Sends [] (⟨.commit, reply⟩ :: closing) := by
  have hsent : executed (⟨.commit, reply⟩ :: closing) = [] :=
    (executed_of_rollback hend : executed closing = [])
  refine ⟨?order, ?nothingElse, ?commit⟩
  case order => exact hsent ▸ List.nil_prefix
  case nothingElse =>
    rw [hsent]
    exact ⟨.commit :: closing.map (·.request), hend.cons_cons _, rfl⟩
  case commit =>
    intro x _ _
    refine ⟨hsent, fun s' reply' hmem => ?_⟩
    rcases List.mem_cons.1 hmem with heq | hmem
    · cases heq
    · cases hend.request_eq hmem

theorem sends_nil : Sends todo [] where
  order := List.nil_prefix
  nothingElse := ⟨[], List.nil_sublist _, rfl⟩
  commit _ hx := by cases hx

/-- What ends a transaction that failed: a rollback, unless the connection is gone. -/
theorem conversation_abandon (h : (abandon reply e).Conversation talk outcome) :
    outcome = .error e ∧ RolledBack talk := by
  unfold abandon at h
  split at h
  · obtain ⟨told, rest, _, rfl, hrollback, hdone⟩ := Program.conversation_bind h
    cases hdone
    rw [Program.conversation_call hrollback]
    exact ⟨rfl, List.Sublist.refl _⟩
  · cases h
    exact ⟨rfl, rolledBack_nil⟩

/-- Carrying statements out sends them in order, and its outcome is read off the talk. -/
theorem conversation_carryOut (h : (carryOut todo).Conversation talk outcome) :
    Sends todo talk ∧ Decides talk outcome := by
  induction todo generalizing talk with
  | nil =>
    obtain ⟨told, rest, reply, rfl, hcommit, hrest⟩ := Program.conversation_bind h
    rw [Program.conversation_call hcommit]
    cases reply with
    | ok answer =>
      cases hrest
      exact ⟨sends_commit rolledBack_nil, decides_commit answer⟩
    | error fault =>
      obtain ⟨rfl, hend⟩ := conversation_abandon hrest
      exact ⟨sends_commit hend, decides_of_fails .closing hend⟩
  | cons s todo ih =>
    obtain ⟨told, rest, reply, rfl, hs, hrest⟩ := Program.conversation_bind h
    rw [Program.conversation_call hs]
    obtain hwent | ⟨e, hfails⟩ := s.wentThrough_or_fails reply
    · rw [Statement.judge_of_wentThrough hwent] at hrest
      obtain ⟨hsends, hdecides⟩ := ih hrest
      refine ⟨hsends.cons hwent, hdecides.cons ?_ nofun nofun⟩
      rintro e (_ | hfails)
      exact hwent.not_fails hfails
    · rw [Statement.judge_of_fails hfails] at hrest
      obtain ⟨rfl, hend⟩ := conversation_abandon hrest
      exact ⟨sends_failed hend, decides_of_fails (.statement hfails) hend⟩

/-! ## Transactions -/

/-- The talk of a transaction that is to carry statements out, and its outcome: the clauses on
the kind of a failure say which answers lead to it. -/
structure Transaction (todo : List Statement) (talk : List Talk)
    (outcome : Except StoreError Unit) : Prop extends Decides talk outcome where
  sends : ∃ reply rest, talk = ⟨.begin, reply⟩ :: rest ∧ Sends todo rest
  duplicate_iff : ∀ tenant externalId,
    outcome = .error (.duplicateExternalId tenant externalId) ↔ ∃ relation message,
      ⟨.execute (.insertRelation relation), .error (.refused "23505" message)⟩ ∈ talk ∧
        relation.tenant = tenant ∧ relation.externalId = externalId
  concurrency_iff : (∃ reason, outcome = .error (.concurrency reason)) ↔ ∃ s answer,
    ⟨.execute s, .ok answer⟩ ∈ talk ∧ s.sought?.isSome = true ∧ answer.affected = 0
  otherwise : ∀ e, outcome = .error e → (∃ tenant externalId,
    e = .duplicateExternalId tenant externalId) ∨ (∃ reason, e = .concurrency reason) ∨
      ∃ reason, e = .backend reason

theorem Decides.transaction (h : Decides (⟨.begin, reply⟩ :: talk) outcome)
    (hsends : Sends todo talk) : Transaction todo (⟨.begin, reply⟩ :: talk) outcome where
  toDecides := h
  sends := ⟨reply, talk, rfl, hsends⟩
  duplicate_iff tenant externalId := by
    rw [h.error_iff]
    constructor
    · rintro ⟨x, hx, hfails⟩
      obtain ⟨relation, message, rfl, he⟩ | ⟨_, _, _, _, _, _, he⟩ | ⟨_, he⟩ := hfails.kind
      · cases he
        exact ⟨relation, message, hx, rfl, rfl⟩
      · cases he
      · cases he
    · rintro ⟨relation, message, hmem, rfl, rfl⟩
      exact ⟨_, hmem, .statement (.taken ⟨rfl, message, rfl⟩)⟩
  concurrency_iff := by
    simp only [h.error_iff]
    constructor
    · rintro ⟨reason, x, hx, hfails⟩
      obtain ⟨_, _, _, he⟩ | ⟨s, answer, rfl, hsought, hnone, -⟩ | ⟨_, he⟩ := hfails.kind
      · cases he
      · exact ⟨s, answer, hx, hsought, hnone⟩
      · cases he
    · rintro ⟨s, answer, hmem, hsought, hnone⟩
      obtain ⟨sought, hs⟩ := Option.isSome_iff_exists.1 hsought
      exact ⟨_, _, hmem, .statement (.missed ⟨hsought, answer, rfl, hnone⟩ hs)⟩
  otherwise e he := by
    obtain ⟨x, -, hfails⟩ := (h.error_iff e).1 he
    obtain ⟨_, _, -, he⟩ | ⟨_, _, -, -, -, he⟩ | he := hfails.kind
    · exact .inl ⟨_, _, he⟩
    · exact .inr (.inl he)
    · exact .inr (.inr he)

theorem conversation_commit {changes : List RelationChange} (hne : changes ≠ [])
    (h : (commit changes).Conversation talk outcome) :
    Transaction (changes.map statements).flatten talk outcome := by
  unfold commit at h
  rw [if_neg (by simpa using hne)] at h
  obtain ⟨told, rest, reply, rfl, hbegin, hrest⟩ := Program.conversation_bind h
  rw [Program.conversation_call hbegin]
  cases reply with
  | error fault =>
    cases hrest
    exact (decides_of_fails .opening rolledBack_nil).transaction sends_nil
  | ok answer =>
    rw [List.flatMap_def] at hrest
    obtain ⟨hsends, hdecides⟩ := conversation_carryOut hrest
    have hopened : Decides (⟨.begin, .ok answer⟩ :: rest) outcome := by
      refine hdecides.cons ?_ nofun nofun
      rintro e ⟨⟩
    exact hopened.transaction hsends

/-- Whatever a database answers and remembers: without changes it is asked nothing, and
otherwise the statements of the changes, one change after the other, are one transaction. -/
theorem commit_transacts {σ : Type} (peer : σ → Request → Reply × σ) (memory : σ)
    (changes : List RelationChange) :
    let held := (commit changes).converse peer memory
    if changes = [] then held.1 = [] ∧ held.2.1 = .ok ()
    else ∃ parts, List.Forall₂ Makes changes parts ∧
      Transaction parts.flatten held.1 held.2.1 := by
  intro held
  have hheld : (commit changes).Conversation held.1 held.2.1 :=
    Program.conversation_converse memory
  split
  · next h =>
    subst h
    exact ⟨rfl, rfl⟩
  · next h =>
    have hmakes : List.Forall₂ Makes changes (changes.map statements) :=
      List.forall₂_map_right_iff.2 (List.forall₂_same.2 fun change _ => makes_statements change)
    exact ⟨_, hmakes, conversation_commit h hheld⟩

/-- A relation that is not found where it was to be deleted. -/
example (id : RelationId) : ((commit [.delete id .any]).converse
    (fun _ _ => (.ok ⟨[], 0⟩, ())) ()).1.map (·.request) =
      [.begin, .execute (.deleteRelation id .any), .rollback] := rfl

end PartnerRelations.Sql
