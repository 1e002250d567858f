/-
# `Proofs.Relation.Effect` — what a command does to a relation, whole

`handle` decides and `apply` carries out, and they are written apart.  Where the stage
or the sharing state is missing, `apply` passes over it in silence.  `Effect` says in
one piece what a command comes to: one constructor for each outcome, with everything
that has to hold beforehand and every part of the relation afterwards.

    created     only what was never created; the stage is set, the state is initial
    unchanged   the values that the stage has, and no failure: nothing happens
    retried     the values that the stage has, after a failure: the state is initial again
    changed     other values: the stage has them, and the state is initial again
    started     from initial to pending
    failed      from initial or pending to error, with the message of the command
    promoted    from anywhere to success, with the output of the command
    deleted     the stage goes, and the relation is there no longer

`effect_iff` is the agreement of the three: the command is accepted, and carrying its
events out has the effect.  It holds of every relation, also of one that no run of
commands leads to (a stored form may lack any of its parts).
-/
import PartnerRelations.Proofs.Relation.Coherence

namespace PartnerRelations

/-- The values of the stage that a command asks for, if it is one for the input. -/
def RelationCommand.stageValues : RelationCommand → Option StageValues
  | .createInput relationType source target _ => some ⟨relationType, source.id, target.id⟩
  | .updateInput relationType source target _ => some ⟨relationType, source.id, target.id⟩
  | _ => none

namespace Relation

variable {r r' : Relation} {es : List RelationEvent} {command : RelationCommand}
  {relationType : RelationType} {source target : ResolvedPartner} {stage : RelationStage}
  {state : RelationSharingState} {at_ : Instant}

/-! ## Effects -/

/-- The two ends differ in record and in name. -/
def EndsDiffer (source target : ResolvedPartner) : Prop :=
  source.id ≠ target.id ∧ source.externalId ≠ target.externalId

/-- The sharing state is the one that follows a failure. -/
def Failed (r : Relation) : Prop :=
  ∃ state, r.sharingState = some state ∧ state.stateType = .error

/-- What an accepted command makes of a relation.  The parts that an effect does not
name are those that the relation had. -/
inductive Effect (r : Relation) : RelationCommand → Relation → Prop where
  | created {relationType : RelationType} {source target : ResolvedPartner} {at_ : Instant} :
      r.created = false → EndsDiffer source target →
      Effect r (.createInput relationType source target at_)
        { r with
          input := some ⟨r.id, .input, relationType, source.id, target.id, at_, at_⟩
          sharingState := some ⟨.initial, relationType, none, at_⟩
          createdAt := at_, updatedAt := at_, version := r.version + 1, created := true }
  | unchanged {relationType : RelationType} {source target : ResolvedPartner} {at_ : Instant}
      {stage : RelationStage} :
      r.isCreated = true → EndsDiffer source target → r.input = some stage →
      stage.values = ⟨relationType, source.id, target.id⟩ → ¬r.Failed →
      Effect r (.updateInput relationType source target at_) r
  | retried {relationType : RelationType} {source target : ResolvedPartner} {at_ : Instant}
      {stage : RelationStage} :
      r.isCreated = true → EndsDiffer source target → r.input = some stage →
      stage.values = ⟨relationType, source.id, target.id⟩ → r.Failed →
      Effect r (.updateInput relationType source target at_)
        { r with
          sharingState := some ⟨.initial, relationType, none, at_⟩
          updatedAt := at_, version := r.version + 1 }
  | changed {relationType : RelationType} {source target : ResolvedPartner} {at_ : Instant}
      {stage : RelationStage} :
      r.isCreated = true → EndsDiffer source target → r.input = some stage →
      stage.values ≠ ⟨relationType, source.id, target.id⟩ →
      Effect r (.updateInput relationType source target at_)
        { r with
          input := some
            { stage with
              relationType, source := source.id, target := target.id, updatedAt := at_ }
          sharingState := some ⟨.initial, relationType, none, at_⟩
          updatedAt := at_, version := r.version + 2 }
  | started {relationType : RelationType} {message : Option String} {since at_ : Instant} :
      r.isCreated = true → r.sharingState = some ⟨.initial, relationType, message, since⟩ →
      Effect r (.startSharing at_)
        { r with
          sharingState := some ⟨.pending, relationType, none, at_⟩
          updatedAt := at_, version := r.version + 1 }
  | failed {message : String} {state : RelationSharingState} {at_ : Instant} :
      r.isCreated = true → Text.trim message ≠ "" → r.sharingState = some state →
      state.stateType = .initial ∨ state.stateType = .pending →
      Effect r (.failSharing message at_)
        { r with
          sharingState := some ⟨.error, state.relationType, some message, at_⟩
          updatedAt := at_, version := r.version + 1 }
  | promoted {relationType : RelationType} {sourceBpnl targetBpnl : Bpnl} {at_ : Instant} :
      r.isCreated = true → sourceBpnl ≠ targetBpnl →
      Effect r (.publishOutput relationType sourceBpnl targetBpnl at_)
        { r with
          sharingState := some
            ⟨.success, (r.sharingState.map (·.relationType)).getD relationType, none, at_⟩
          output := some ⟨relationType, sourceBpnl, targetBpnl, at_⟩
          updatedAt := at_, version := r.version + 1 }
  | deleted {stage : RelationStage} {at_ : Instant} :
      r.isCreated = true → r.input = some stage →
      Effect r (.delete at_)
        { r with input := none, deleted := true, updatedAt := at_, version := r.version + 1 }

/-! ## From a decision to its effect -/

theorem effect_create (h : r.handle (.createInput relationType source target at_) = .ok es) :
    r.Effect (.createInput relationType source target at_) (r.applyAll es) := by
  obtain ⟨hfresh, hends, rfl⟩ := handleCreate_eq_ok.1 h
  exact .created hfresh hends

theorem isInErrorState_iff : r.isInErrorState = true ↔ r.Failed := by
  simp [isInErrorState, RelationSharingState.isError, Failed, Option.any_eq_true]

/-- An update has one of three effects: new values call for both events, a failure for
the second alone. -/
theorem effect_update (h : r.handle (.updateInput relationType source target at_) = .ok es) :
    r.Effect (.updateInput relationType source target at_) (r.applyAll es) := by
  obtain ⟨hr, hends, stage, hstage, rfl⟩ := handleUpdate_eq_ok.1 h
  by_cases hsame : stage.values = ⟨relationType, source.id, target.id⟩
  · by_cases hfailed : r.Failed
    · have hreset := isInErrorState_iff.2 hfailed
      simpa [updateEvents, hsame, hreset, apply] using .retried hr hends hstage hsame hfailed
    · have hquiet := Bool.eq_false_iff.2 (mt isInErrorState_iff.1 hfailed)
      simpa [updateEvents, hsame, hquiet] using .unchanged hr hends hstage hsame hfailed
  · simpa [updateEvents, Ne.symm hsame, apply, hstage, RelationSharingState.initial] using
      Effect.changed hr hends hstage hsame

theorem effect_publish {sourceBpnl targetBpnl : Bpnl}
    (h : r.handle (.publishOutput relationType sourceBpnl targetBpnl at_) = .ok es) :
    r.Effect (.publishOutput relationType sourceBpnl targetBpnl at_) (r.applyAll es) := by
  obtain ⟨hr, hne, rfl⟩ := handlePublish_eq_ok.1 h
  -- without a state, the one that is promoted is of the kind of the output
  cases hstate : r.sharingState with
  | none =>
    simpa [apply, hstate, RelationSharingState.initial, RelationSharingState.successAt] using
      Effect.promoted hr hne
  | some state =>
    simpa [apply, hstate, RelationSharingState.successAt] using Effect.promoted hr hne

theorem effect_start (h : r.handle (.startSharing at_) = .ok es) :
    r.Effect (.startSharing at_) (r.applyAll es) := by
  obtain ⟨hr, ⟨⟨stateType, kind, message, since⟩, hstate, hmove⟩, rfl⟩ := handleStart_eq_ok.1 h
  obtain rfl : stateType = .initial := by
    simpa [RelationSharingStateType.canMoveTo] using hmove
  simpa [apply, hstate, RelationSharingState.pendingAt] using Effect.started hr hstate

theorem effect_fail {message : String} (h : r.handle (.failSharing message at_) = .ok es) :
    r.Effect (.failSharing message at_) (r.applyAll es) := by
  obtain ⟨hr, hmessage, ⟨state, hstate, hmove⟩, rfl⟩ := handleFail_eq_ok.1 h
  have hfrom : state.stateType = .initial ∨ state.stateType = .pending := by
    simpa [RelationSharingStateType.canMoveTo] using hmove
  simpa [apply, hstate, RelationSharingState.errorAt] using
    Effect.failed hr hmessage hstate hfrom

theorem effect_delete (h : r.handle (.delete at_) = .ok es) :
    r.Effect (.delete at_) (r.applyAll es) := by
  obtain ⟨hr, hinput, rfl⟩ := handleDelete_eq_ok.1 h
  obtain ⟨stage, hstage⟩ := Option.isSome_iff_exists.1 (by simpa using hinput)
  exact .deleted hr hstage

theorem effect_of_handle (h : r.handle command = .ok es) : r.Effect command (r.applyAll es) := by
  cases command with
  | createInput => exact effect_create h
  | updateInput => exact effect_update h
  | publishOutput => exact effect_publish h
  | startSharing => exact effect_start h
  | failSharing => exact effect_fail h
  | delete => exact effect_delete h

/-! ## From an effect to its decision -/

/-- What has an effect is accepted. -/
theorem Effect.accepted (h : r.Effect command r') : ∃ es, r.handle command = .ok es := by
  cases h with
  | created hfresh hends => exact ⟨_, handleCreate_eq_ok.2 ⟨hfresh, hends, rfl⟩⟩
  | unchanged hr hends hstage => exact ⟨_, handleUpdate_eq_ok.2 ⟨hr, hends, _, hstage, rfl⟩⟩
  | retried hr hends hstage => exact ⟨_, handleUpdate_eq_ok.2 ⟨hr, hends, _, hstage, rfl⟩⟩
  | changed hr hends hstage => exact ⟨_, handleUpdate_eq_ok.2 ⟨hr, hends, _, hstage, rfl⟩⟩
  | started hr hstate => exact ⟨_, handleStart_eq_ok.2 ⟨hr, ⟨_, hstate, rfl⟩, rfl⟩⟩
  | failed hr hmessage hstate hfrom =>
    refine ⟨_, handleFail_eq_ok.2 ⟨hr, hmessage, ⟨_, hstate, ?_⟩, rfl⟩⟩
    simpa [RelationSharingStateType.canMoveTo] using hfrom
  | promoted hr hne => exact ⟨_, handlePublish_eq_ok.2 ⟨hr, hne, rfl⟩⟩
  | deleted hr hstage => exact ⟨_, handleDelete_eq_ok.2 ⟨hr, by simp [hstage], rfl⟩⟩

/-- A command has at most one effect: the guards of the three for an update exclude
each other. -/
theorem Effect.unique {r'' : Relation} (h : r.Effect command r') (h' : r.Effect command r'') :
    r' = r'' := by
  cases h with
  | created => cases h'; rfl
  | unchanged _ _ hstage hsame hquiet =>
    cases h' with
    | unchanged => rfl
    | retried _ _ _ _ hfailed => exact absurd hfailed hquiet
    | changed _ _ hstage' hother =>
      cases hstage.symm.trans hstage'
      exact absurd hsame hother
  | retried _ _ hstage hsame hfailed =>
    cases h' with
    | unchanged _ _ _ _ hquiet => exact absurd hfailed hquiet
    | retried => rfl
    | changed _ _ hstage' hother =>
      cases hstage.symm.trans hstage'
      exact absurd hsame hother
  | changed _ _ hstage hother =>
    cases h' with
    | unchanged _ _ hstage' hsame =>
      cases hstage.symm.trans hstage'
      exact absurd hsame hother
    | retried _ _ hstage' hsame =>
      cases hstage.symm.trans hstage'
      exact absurd hsame hother
    | changed _ _ hstage' =>
      cases hstage.symm.trans hstage'
      rfl
  | started _ hstate =>
    cases h' with
    | started _ hstate' =>
      cases hstate.symm.trans hstate'
      rfl
  | failed _ _ hstate =>
    cases h' with
    | failed _ _ hstate' =>
      cases hstate.symm.trans hstate'
      rfl
  | promoted => cases h'; rfl
  | deleted => cases h'; rfl

/-- The decision, carried out, is the effect. -/
theorem effect_iff (h : r.handle command = .ok es) (r' : Relation) :
    r.Effect command r' ↔ r' = r.applyAll es := by
  constructor
  · intro heffect
    exact heffect.unique (effect_of_handle h)
  · rintro rfl
    exact effect_of_handle h

/-! ## What all effects have in common -/

/-- After a create or an update, the stage has the values that were asked for. -/
theorem Effect.values {values : StageValues} (h : r.Effect command r')
    (hasked : command.stageValues = some values) :
    ∃ stage, r'.input = some stage ∧ stage.values = values := by
  cases h with
  | created => exact ⟨_, rfl, Option.some.inj hasked⟩
  | unchanged _ _ hstage hsame => exact ⟨_, hstage, hsame.trans (Option.some.inj hasked)⟩
  | retried _ _ hstage hsame => exact ⟨_, hstage, hsame.trans (Option.some.inj hasked)⟩
  | changed => exact ⟨_, rfl, Option.some.inj hasked⟩
  | started | failed | promoted | deleted => cases hasked

/-- A sharing state that is not what it was is one that the table of moves leads to, and
has a message if and only if it is the one that follows a failure. -/
theorem Effect.moved (h : r.Effect command r') (hne : r'.sharingState ≠ r.sharingState) :
    ∃ after, r'.sharingState = some after ∧
      (∀ before ∈ r.sharingState, before.stateType.canMoveTo after.stateType = true) ∧
      (after.errorMessage.isSome = true ↔ after.stateType = .error) := by
  cases h with
  | created => exact ⟨_, rfl, fun _ _ => rfl, by simp⟩
  | unchanged => exact absurd rfl hne
  | retried => exact ⟨_, rfl, fun _ _ => rfl, by simp⟩
  | changed => exact ⟨_, rfl, fun _ _ => rfl, by simp⟩
  | started _ hstate =>
    refine ⟨_, rfl, fun before hbefore => ?_, by simp⟩
    cases hstate.symm.trans hbefore
    rfl
  | failed _ _ hstate hfrom =>
    refine ⟨_, rfl, fun before hbefore => ?_, by simp⟩
    cases hstate.symm.trans hbefore
    simpa [RelationSharingStateType.canMoveTo] using hfrom
  | promoted => exact ⟨_, rfl, fun _ _ => rfl, by simp⟩
  | deleted => exact absurd rfl hne

/-- No command leads to more than two events. -/
theorem length_le_two_of_handle (h : r.handle command = .ok es) : es.length ≤ 2 := by
  have hversion := version_applyAll r es
  have heffect := effect_of_handle h
  generalize r.applyAll es = r' at hversion heffect
  cases heffect <;> grind

/-- A relation has the moment of the command if anything happened to it. -/
theorem updatedAt_applyAll_of_handle (h : r.handle command = .ok es) :
    (r.applyAll es).updatedAt = if es = [] then r.updatedAt else command.occurredAt := by
  split
  · next hnil => rw [hnil, applyAll_nil]
  · next hne =>
    rw [updatedAt_applyAll (List.getLast?_eq_some_getLast hne)]
    exact occurredAt_of_handle h _ (List.getLast_mem hne)

/-- What a command that was accepted did: the effect that it has on the relation, the
move of the sharing state, the count of its events and its moment. -/
structure Carried (r : Relation) (command : RelationCommand) (es : List RelationEvent) :
    Prop where
  effect : ∀ r', r.Effect command r' ↔ r' = r.applyAll es
  moved : (r.applyAll es).sharingState ≠ r.sharingState →
    ∃ after, (r.applyAll es).sharingState = some after ∧
      (∀ before ∈ r.sharingState, before.stateType.canMoveTo after.stateType = true) ∧
      (after.errorMessage.isSome = true ↔ after.stateType = .error)
  version : (r.applyAll es).version = r.version + es.length
  /-- The count stays below a bound that the version was two below. -/
  few : es.length ≤ 2
  updatedAt : (r.applyAll es).updatedAt = if es = [] then r.updatedAt else command.occurredAt

/-- Every relation refuses a command, which then has no effect on it, or carries it. -/
theorem handle_takes_effect (r : Relation) (command : RelationCommand) :
    (∃ e, r.handle command = .error e ∧ ∀ r', ¬r.Effect command r') ∨
      ∃ es, r.handle command = .ok es ∧ r.Carried command es := by
  cases h : r.handle command with
  | error e =>
    refine .inl ⟨e, rfl, fun r' heffect => ?_⟩
    obtain ⟨es, hes⟩ := heffect.accepted
    cases h.symm.trans hes
  | ok es =>
    refine .inr ⟨es, rfl, ?_⟩
    exact
      { effect := effect_iff h
        moved := (effect_of_handle h).moved
        version := version_applyAll r es
        few := length_le_two_of_handle h
        updatedAt := updatedAt_applyAll_of_handle h }

end Relation

end PartnerRelations
