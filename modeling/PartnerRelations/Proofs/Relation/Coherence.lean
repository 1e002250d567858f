/-
# `Proofs.Relation.Coherence` — what every run of commands keeps

A relation that nothing has happened to is given commands one after the other; a
refused command changes nothing (`obey`).  However many commands come, and whatever
moments they carry, the relation that they lead to is `Coherent`:

    version      the number of events
    names        those that it began with
    updatedAt    the moment of the last event
    while it is there      a stage and a sharing state that fit each other (`Fitting`)
    output       names two different legal entities
    deleted      there is no stage, and no command is accepted any more

If the moments never decrease, no part of the relation is later than the relation
(`Timely`).

An update may be two events, and between them stage and sharing state do not fit, so
fitting is an invariant of commands (`Sane.handled`).  Moments are one of events
(`Timely.apply`).
-/
import Mathlib.Data.List.Induction
import PartnerRelations.Proofs.Instant
import PartnerRelations.Proofs.Relation.Evolution

namespace PartnerRelations

namespace Relation

variable {r r' : Relation} {es : List RelationEvent} {command : RelationCommand}
  {stage : RelationStage} {state : RelationSharingState}

/-! ## Parts that fit each other -/

/-- The stage and the sharing state of a relation fit it and each other. -/
structure Fitting (r : Relation) (stage : RelationStage) (state : RelationSharingState) :
    Prop where
  kind : stage.stage = .input
  owner : stage.relationId = r.id
  distinct : stage.source ≠ stage.target
  createdAt : stage.createdAt = r.createdAt
  relationType : state.relationType = stage.relationType
  failed : state.stateType = .error →
    ∃ message, state.errorMessage = some message ∧ Text.trim message ≠ ""
  quiet : state.stateType ≠ .error → state.errorMessage = none
  promoted : state.stateType = .success → r.output.isSome = true

/-- What commands keep of a relation, whatever happened to it before. -/
structure Sane (r : Relation) : Prop where
  present : r.isCreated = true →
    ∃ stage state, r.input = some stage ∧ r.sharingState = some state ∧ r.Fitting stage state
  output : ∀ output ∈ r.output, output.sourceBpnl ≠ output.targetBpnl
  absent : r.deleted = true → r.created = true ∧ r.input = none

theorem sane_empty (id : RelationId) (tenant : TenantBpnl) (externalId : ExternalId) :
    (empty id tenant externalId).Sane where
  present h := by cases h
  output _ h := by cases h
  absent h := by cases h

/-- A relation that is there is sane if its parts fit and its output is sound. -/
theorem sane_of_fitting (hr : r.isCreated = true) (hinput : r.input = some stage)
    (hstate : r.sharingState = some state) (hf : r.Fitting stage state)
    (hout : ∀ output ∈ r.output, output.sourceBpnl ≠ output.targetBpnl) : r.Sane where
  present _ := ⟨stage, state, hinput, hstate, hf⟩
  output := hout
  absent hd := by simp [(isCreated_iff.1 hr).2] at hd

/-- A fresh sharing state fits a stage of its kind. -/
theorem fitting_initial {relationType : RelationType} {at_ : Instant}
    (kind : stage.stage = .input) (owner : stage.relationId = r.id)
    (distinct : stage.source ≠ stage.target) (createdAt : stage.createdAt = r.createdAt)
    (htype : stage.relationType = relationType) : r.Fitting stage (.initial relationType at_) where
  kind := kind
  owner := owner
  distinct := distinct
  createdAt := createdAt
  relationType := htype.symm
  failed h := by cases h
  quiet _ := rfl
  promoted h := by cases h

theorem Sane.created (hr : r.created = false) (hs : r.Sane) {relationType : RelationType}
    {source target : ResolvedPartner} {at_ : Instant} (hne : source.id ≠ target.id)
    (id : RelationId) (externalId : ExternalId) :
    (r.apply (.inputCreated id externalId relationType source target at_)).Sane := by
  have hd : r.deleted = false := by
    rw [← Bool.not_eq_true]
    intro hd
    simp [(hs.absent hd).1] at hr
  exact sane_of_fitting (isCreated_iff.2 ⟨rfl, hd⟩) rfl rfl (fitting_initial rfl rfl hne rfl rfl)
    hs.output

/-- After an update that lists events or none, stage and sharing state fit again. -/
theorem Sane.updated (hr : r.isCreated = true) (hs : r.Sane) {relationType : RelationType}
    {source target : ResolvedPartner} {at_ : Instant} (hne : source.id ≠ target.id)
    (hinput : r.input = some stage) :
    (r.applyAll (r.updateEvents stage relationType source target at_)).Sane := by
  obtain ⟨stage', state, hinput', hstate, hf⟩ := hs.present hr
  obtain rfl : stage' = stage := Option.some.inj (hinput'.symm.trans hinput)
  unfold updateEvents
  by_cases hv : StageValues.mk relationType source.id target.id = stage'.values
  · obtain rfl : relationType = stage'.relationType := congrArg StageValues.relationType hv
    cases he : r.isInErrorState with
    | false => simpa [hv, he] using hs
    | true =>
      simp only [hv, ne_eq, not_true_eq_false, decide_false, Bool.false_or, if_true,
        Bool.false_eq_true, if_false, List.nil_append, applyAll_cons, applyAll_nil]
      exact sane_of_fitting hr hinput' rfl
        (fitting_initial hf.kind hf.owner hf.distinct hf.createdAt rfl) hs.output
  · simp only [ne_eq, hv, not_false_eq_true, decide_true, Bool.true_or, if_true,
      List.singleton_append, applyAll_cons, applyAll_nil]
    have hupdated : ((r.apply (.inputUpdated r.id relationType source target at_)).apply
        (.sharingReset r.id relationType at_)).input = some ⟨stage'.relationId, stage'.stage,
          relationType, source.id, target.id, stage'.createdAt, at_⟩ := by
      simp [apply, hinput']
    exact sane_of_fitting hr hupdated rfl
      (fitting_initial hf.kind hf.owner hne hf.createdAt rfl) hs.output

/-- A move of the sharing state that leaves its kind alone keeps the parts fitting. -/
theorem Fitting.moved {state' : RelationSharingState} (hf : r.Fitting stage state)
    (hid : r'.id = r.id) (hcreated : r'.createdAt = r.createdAt)
    (htype : state'.relationType = state.relationType)
    (failed : state'.stateType = .error →
      ∃ message, state'.errorMessage = some message ∧ Text.trim message ≠ "")
    (quiet : state'.stateType ≠ .error → state'.errorMessage = none)
    (promoted : state'.stateType = .success → r'.output.isSome = true) :
    r'.Fitting stage state' where
  kind := hf.kind
  owner := hf.owner.trans hid.symm
  distinct := hf.distinct
  createdAt := hf.createdAt.trans hcreated.symm
  relationType := htype.trans hf.relationType
  failed := failed
  quiet := quiet
  promoted := promoted

theorem Sane.started (hr : r.isCreated = true) (hs : r.Sane) (id : RelationId) (at_ : Instant) :
    (r.apply (.sharingStarted id at_)).Sane := by
  obtain ⟨stage, state, hinput, hstate, hf⟩ := hs.present hr
  have hmoved : (r.apply (.sharingStarted id at_)).sharingState = some (state.pendingAt at_) := by
    simp [apply, hstate]
  refine sane_of_fitting hr hinput hmoved (hf.moved rfl rfl rfl ?_ ?_ ?_) hs.output
  · intro h
    cases h
  · intro _
    rfl
  · intro h
    cases h

theorem Sane.failed (hr : r.isCreated = true) (hs : r.Sane) {message : String}
    (hm : Text.trim message ≠ "") (id : RelationId) (at_ : Instant) :
    (r.apply (.sharingFailed id message at_)).Sane := by
  obtain ⟨stage, state, hinput, hstate, hf⟩ := hs.present hr
  have hmoved : (r.apply (.sharingFailed id message at_)).sharingState =
      some (state.errorAt message at_) := by
    simp [apply, hstate]
  refine sane_of_fitting hr hinput hmoved (hf.moved rfl rfl rfl ?_ ?_ ?_) hs.output
  · intro _
    exact ⟨message, rfl, hm⟩
  · intro h
    exact absurd rfl h
  · intro h
    cases h

theorem Sane.published (hr : r.isCreated = true) (hs : r.Sane) {output : RelationOutput}
    (hne : output.sourceBpnl ≠ output.targetBpnl) (id : RelationId) :
    (r.apply (.outputPublished id output)).Sane := by
  obtain ⟨stage, state, hinput, hstate, hf⟩ := hs.present hr
  have hmoved : (r.apply (.outputPublished id output)).sharingState =
      some (state.successAt output.updatedAt) := by
    simp [apply, hstate]
  refine sane_of_fitting hr hinput hmoved (hf.moved rfl rfl rfl ?_ ?_ ?_) ?_
  · intro h
    cases h
  · intro _
    rfl
  · intro _
    rfl
  · intro output' h
    cases h
    exact hne

theorem Sane.deleted (hr : r.isCreated = true) (hs : r.Sane) (id : RelationId) (at_ : Instant) :
    (r.apply (.deleted id at_)).Sane where
  present h := by simp [apply, isCreated] at h
  output := hs.output
  absent _ := ⟨(isCreated_iff.1 hr).1, rfl⟩

/-- Every accepted command keeps a relation sane. -/
theorem Sane.handled (hs : r.Sane) (h : r.handle command = .ok es) : (r.applyAll es).Sane := by
  cases command with
  | createInput =>
    obtain ⟨hr, ⟨hne, -⟩, rfl⟩ := handleCreate_eq_ok.1 h
    exact hs.created hr hne r.id r.externalId
  | updateInput =>
    obtain ⟨hr, ⟨hne, -⟩, stage, hinput, rfl⟩ := handleUpdate_eq_ok.1 h
    exact hs.updated hr hne hinput
  | publishOutput =>
    obtain ⟨hr, hne, rfl⟩ := handlePublish_eq_ok.1 h
    exact hs.published hr hne r.id
  | startSharing =>
    obtain ⟨hr, -, rfl⟩ := handleStart_eq_ok.1 h
    exact hs.started hr r.id _
  | failSharing =>
    obtain ⟨hr, hm, -, rfl⟩ := handleFail_eq_ok.1 h
    exact hs.failed hr hm r.id _
  | delete =>
    obtain ⟨hr, -, rfl⟩ := handleDelete_eq_ok.1 h
    exact hs.deleted hr r.id _

theorem Evolves.sane (he : r.Evolves es r') (hs : r.Sane) : r'.Sane := by
  induction he with
  | refl => exact hs
  | step _ hc ih => exact ih.handled hc

/-- A relation that is gone accepts nothing. -/
theorem Sane.refuses (hs : r.Sane) (hd : r.deleted = true) (command : RelationCommand) :
    ∃ e, r.handle command = .error e := by
  cases h : r.handle command with
  | error e => exact ⟨e, rfl⟩
  | ok es =>
    cases hc : command.isCreate with
    | true => cases (hs.absent hd).1.symm.trans (created_of_handle_create h hc).1
    | false => cases hd.symm.trans (isCreated_iff.1 (isCreated_of_handle h hc)).2

/-! ## Moments -/

/-- The events of a command have its moment. -/
theorem occurredAt_of_handle (h : r.handle command = .ok es) :
    ∀ e ∈ es, e.occurredAt = command.occurredAt := by
  intro e he
  cases listed_of_handle h e he <;> rfl

/-- A relation that events happened to has the moment of the last one. -/
theorem updatedAt_applyAll {e : RelationEvent} (h : es.getLast? = some e) :
    (r.applyAll es).updatedAt = e.occurredAt := by
  obtain ⟨before, rfl⟩ := List.getLast?_eq_some_iff.1 h
  rw [applyAll_append, applyAll_cons, applyAll_nil, updatedAt_apply]

/-- No part of the relation is later than the relation, and the stage is not older than it. -/
structure Timely (r : Relation) : Prop where
  input : ∀ stage ∈ r.input, r.createdAt ≤ stage.updatedAt ∧ stage.updatedAt ≤ r.updatedAt
  sharingState : ∀ state ∈ r.sharingState, state.updatedAt ≤ r.updatedAt
  output : ∀ output ∈ r.output, output.updatedAt ≤ r.updatedAt

/-- The first event sets every part that it sets to its moment. -/
theorem timely_apply_empty (id : RelationId) (tenant : TenantBpnl) (externalId : ExternalId)
    (e : RelationEvent) : ((empty id tenant externalId).apply e).Timely := by
  constructor <;> cases e <;>
    simp [apply, empty, RelationSharingState.initial, RelationSharingState.successAt,
      Instant.le_refl]

/-- An event that is not before the relation keeps every part in time. -/
theorem Timely.apply (ht : r.Timely) {e : RelationEvent} (hle : r.updatedAt ≤ e.occurredAt) :
    (r.apply e).Timely where
  input := by
    have hold : ∀ stage ∈ r.input,
        r.createdAt ≤ stage.updatedAt ∧ stage.updatedAt ≤ e.occurredAt := fun stage hstage =>
      ⟨(ht.input stage hstage).1, Instant.le_trans (ht.input stage hstage).2 hle⟩
    cases e with
    | inputCreated => simp [Relation.apply, Instant.le_refl]
    | inputUpdated =>
      simp only [Relation.apply, Option.mem_def, Option.map_eq_some_iff]
      rintro _ ⟨stage, hstage, rfl⟩
      exact ⟨Instant.le_trans (hold stage hstage).1 (hold stage hstage).2, Instant.le_refl _⟩
    | deleted => simp [Relation.apply]
    | sharingReset => exact hold
    | sharingStarted => exact hold
    | sharingFailed => exact hold
    | outputPublished => exact hold
  sharingState := by
    have hold : ∀ state ∈ r.sharingState, state.updatedAt ≤ e.occurredAt := fun state hstate =>
      Instant.le_trans (ht.sharingState state hstate) hle
    cases e with
    | inputUpdated => exact hold
    | deleted => exact hold
    | _ =>
      simp [Relation.apply, RelationSharingState.initial, RelationSharingState.pendingAt,
        RelationSharingState.errorAt, RelationSharingState.successAt, Instant.le_refl]
  output := by
    have hold : ∀ output ∈ r.output, output.updatedAt ≤ e.occurredAt := fun output houtput =>
      Instant.le_trans (ht.output output houtput) hle
    cases e with
    | outputPublished => simp [Relation.apply, Instant.le_refl]
    | _ => exact hold

theorem Timely.applyAll (ht : r.Timely) (hle : ∀ e ∈ es, r.updatedAt ≤ e.occurredAt)
    (hord : es.Pairwise (·.occurredAt ≤ ·.occurredAt)) : (r.applyAll es).Timely := by
  induction es generalizing r with
  | nil => exact ht
  | cons e es ih =>
    obtain ⟨he, hord⟩ := List.pairwise_cons.1 hord
    refine ih (ht.apply (hle e (List.mem_cons_self ..))) ?_ hord
    simpa using he

/-- Events in the order of their moments keep a new relation in time, whenever they begin. -/
theorem timely_applyAll_empty (id : RelationId) (tenant : TenantBpnl) (externalId : ExternalId)
    (hord : es.Pairwise (·.occurredAt ≤ ·.occurredAt)) :
    ((empty id tenant externalId).applyAll es).Timely := by
  cases es with
  | nil => constructor <;> simp [empty]
  | cons e es =>
    obtain ⟨he, hord⟩ := List.pairwise_cons.1 hord
    refine (timely_apply_empty id tenant externalId e).applyAll ?_ hord
    simpa using he

/-! ## Runs of commands, refused ones among them -/

/-- A relation and the events that happened to it, after one more command. -/
def obey (s : Relation × List RelationEvent) (command : RelationCommand) :
    Relation × List RelationEvent :=
  match s.1.handle command with
  | .ok es => (s.1.applyAll es, s.2 ++ es)
  | .error _ => s

/-- A relation after a list of commands, and the events that happened to it. -/
def obeyAll (r : Relation) (commands : List RelationCommand) : Relation × List RelationEvent :=
  commands.foldl obey (r, [])

/-- A command is accepted and its events happen, or it changes nothing. -/
theorem obey_cases (s : Relation × List RelationEvent) (command : RelationCommand) :
    (∃ es, s.1.handle command = .ok es ∧ obey s command = (s.1.applyAll es, s.2 ++ es)) ∨
      obey s command = s := by
  unfold obey
  cases h : s.1.handle command with
  | ok es => exact .inl ⟨es, rfl, rfl⟩
  | error e => exact .inr rfl

theorem obeyAll_concat (r : Relation) (commands : List RelationCommand)
    (command : RelationCommand) :
    r.obeyAll (commands ++ [command]) = obey (r.obeyAll commands) command :=
  List.foldl_append

/-- The events are those of the accepted commands. -/
theorem evolves_obeyAll (r : Relation) (commands : List RelationCommand) :
    r.Evolves (r.obeyAll commands).2 (r.obeyAll commands).1 := by
  induction commands using List.reverseRecOn with
  | nil => exact .refl r
  | append_singleton commands command ih =>
    rw [obeyAll_concat]
    obtain ⟨es, hes, h⟩ | h := obey_cases (r.obeyAll commands) command <;> rw [h]
    · exact .step ih hes
    · exact ih

/-- No event has a moment that no command has. -/
theorem occurredAt_obeyAll (r : Relation) (commands : List RelationCommand) :
    ∀ e ∈ (r.obeyAll commands).2, ∃ command ∈ commands, e.occurredAt = command.occurredAt := by
  induction commands using List.reverseRecOn with
  | nil => simp [obeyAll]
  | append_singleton commands command ih =>
    have hold : ∀ e ∈ (r.obeyAll commands).2, ∃ c ∈ commands ++ [command],
        e.occurredAt = c.occurredAt := fun e he =>
      let ⟨c, hc, heq⟩ := ih e he
      ⟨c, List.mem_append_left _ hc, heq⟩
    rw [obeyAll_concat]
    obtain ⟨es, hes, h⟩ | h := obey_cases (r.obeyAll commands) command <;> rw [h]
    · intro e he
      rcases List.mem_append.1 he with he | he
      · exact hold e he
      · exact ⟨command, by simp, occurredAt_of_handle hes e he⟩
    · exact hold

/-- Commands in the order of their moments lead to events in that order. -/
theorem ordered_obeyAll (r : Relation) {commands : List RelationCommand}
    (hord : commands.Pairwise (·.occurredAt ≤ ·.occurredAt)) :
    (r.obeyAll commands).2.Pairwise (·.occurredAt ≤ ·.occurredAt) := by
  induction commands using List.reverseRecOn with
  | nil => exact .nil
  | append_singleton commands command ih =>
    obtain ⟨hold, -, hlast⟩ := List.pairwise_append.1 hord
    rw [obeyAll_concat]
    obtain ⟨es, hes, h⟩ | h := obey_cases (r.obeyAll commands) command <;> rw [h]
    · have hat := occurredAt_of_handle hes
      refine List.pairwise_append.2 ⟨ih hold, ?_, ?_⟩
      · exact List.pairwise_of_forall_mem_list fun e he e' he' => by
          rw [hat e he, hat e' he']
          exact Instant.le_refl _
      · intro e he e' he'
        obtain ⟨c, hc, heq⟩ := occurredAt_obeyAll r commands e he
        rw [heq, hat e' he']
        exact hlast c hc command (by simp)
    · exact ih hold

/-- What a relation is like after events, given the names that it began with. -/
structure Coherent (id : RelationId) (tenant : TenantBpnl) (externalId : ExternalId)
    (es : List RelationEvent) (r : Relation) : Prop where
  version : r.version = es.length
  id : r.id = id
  tenant : r.tenant = tenant
  externalId : r.externalId = externalId
  updatedAt : ∀ e ∈ es.getLast?, r.updatedAt = e.occurredAt
  present : r.isCreated = true →
    ∃ stage state, r.input = some stage ∧ r.sharingState = some state ∧ r.Fitting stage state
  output : ∀ output ∈ r.output, output.sourceBpnl ≠ output.targetBpnl
  deleted : r.deleted = true → r.input = none ∧ ∀ command, ∃ e, r.handle command = .error e

theorem Evolves.coherent {id : RelationId} {tenant : TenantBpnl} {externalId : ExternalId}
    (he : (empty id tenant externalId).Evolves es r) : Coherent id tenant externalId es r where
  version := he.version_eq.trans (Nat.zero_add _)
  id := he.id_eq
  tenant := congrArg RelationKey.tenant he.key_eq
  externalId := congrArg RelationKey.externalId he.key_eq
  updatedAt e h := by
    rw [he.eq_applyAll]
    exact updatedAt_applyAll h
  present := (he.sane (sane_empty id tenant externalId)).present
  output := (he.sane (sane_empty id tenant externalId)).output
  deleted hd :=
    have hs := he.sane (sane_empty id tenant externalId)
    ⟨(hs.absent hd).2, hs.refuses hd⟩

/-- Whatever commands come, the relation that they lead to is coherent; if the moments
of the commands never decrease, its parts are in time. -/
theorem obeyAll_coherent (id : RelationId) (tenant : TenantBpnl) (externalId : ExternalId)
    (commands : List RelationCommand) :
    Coherent id tenant externalId ((empty id tenant externalId).obeyAll commands).2
        ((empty id tenant externalId).obeyAll commands).1 ∧
      (commands.Pairwise (·.occurredAt ≤ ·.occurredAt) →
        ((empty id tenant externalId).obeyAll commands).1.Timely) := by
  have he := evolves_obeyAll (empty id tenant externalId) commands
  refine ⟨he.coherent, fun hord => ?_⟩
  rw [he.eq_applyAll]
  exact timely_applyAll_empty id tenant externalId (ordered_obeyAll _ hord)

private abbrev lifeTenant : TenantBpnl := ⟨"T5", by cbv, by decide⟩
private abbrev lifeName : ExternalId := ⟨"R7", by cbv, by decide⟩
private abbrev lifeSource : ResolvedPartner := ⟨⟨.ofNat 1⟩, ⟨"P7", by cbv, by decide⟩⟩
private abbrev lifeTarget : ResolvedPartner := ⟨⟨.ofNat 2⟩, ⟨"P8", by cbv, by decide⟩⟩
private abbrev lifeDay (day : Int) : Instant := { Instant.epoch with day }

/-- Created, claimed (and not twice), failed, submitted again, promoted and deleted;
the last command comes too late. -/
def life : List RelationCommand :=
  [.createInput .isManagedBy lifeSource lifeTarget (lifeDay 1),
    .startSharing (lifeDay 2), .startSharing (lifeDay 2), .failSharing "no match" (lifeDay 3),
    .updateInput .isManagedBy lifeSource lifeTarget (lifeDay 4),
    .publishOutput .isManagedBy ⟨"B1", by cbv, by decide⟩ ⟨"B2", by cbv, by decide⟩ (lifeDay 5),
    .delete (lifeDay 6), .updateInput .isOwnedBy lifeSource lifeTarget (lifeDay 7)]

theorem life_coherent :
    life.Pairwise (·.occurredAt ≤ ·.occurredAt) ∧
    ((empty ⟨.ofNat 3⟩ lifeTenant lifeName).obeyAll life).2.length = 6 ∧
    Coherent ⟨.ofNat 3⟩ lifeTenant lifeName
      ((empty ⟨.ofNat 3⟩ lifeTenant lifeName).obeyAll life).2
      ((empty ⟨.ofNat 3⟩ lifeTenant lifeName).obeyAll life).1 ∧
    ((empty ⟨.ofNat 3⟩ lifeTenant lifeName).obeyAll life).1.Timely :=
  have hord : life.Pairwise (·.occurredAt ≤ ·.occurredAt) := by decide
  have hcoherent := obeyAll_coherent ⟨.ofNat 3⟩ lifeTenant lifeName life
  ⟨hord, by rfl, hcoherent.1, hcoherent.2 hord⟩

end Relation

end PartnerRelations
