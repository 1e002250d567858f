/-
# `Proofs.Relation.Evolution` — what accepted commands do to a relation

`handle` refuses a command or lists events, and `apply` carries events out.  The
first section says once what `handle` accepts, command by command with all its
guards, so that nothing later opens it again.  The second says what no event
changes (identifier, tenant, name) and what every event does (one more version, and
its own moment).

    Evolves r es r'     commands accepted one after the other took `r` to `r'`,
                        and `es` are their events in order

The facts about `Evolves` are those that stores and units of work rest on: `r'`
is `r` with the events applied, a relation that something happened to was
created, and one that was there stays so until it is deleted.
-/
import PartnerRelations.Relation.Basic

namespace PartnerRelations

namespace RelationCommand

/-- The command to create. -/
def isCreate : RelationCommand → Bool
  | .createInput .. => true
  | _ => false

/-- The command to delete. -/
def isDelete : RelationCommand → Bool
  | .delete _ => true
  | _ => false

end RelationCommand

namespace Relation

variable {r : Relation} {es : List RelationEvent}

/-! ## Decisions that may be refused -/

section Except

variable {ε α β : Type}

theorem bind_eq_ok {x : Except ε α} {f : α → Except ε β} {b : β} :
    (x >>= f) = .ok b ↔ ∃ a, x = .ok a ∧ f a = .ok b := by
  cases x <;> simp [bind, Except.bind]

theorem bind_eq_error {x : Except ε α} {f : α → Except ε β} {e : ε} :
    (x >>= f) = .error e ↔ x = .error e ∨ ∃ a, x = .ok a ∧ f a = .error e := by
  cases x <;> simp [bind, Except.bind]

theorem pure_eq_ok {a b : α} : (pure a : Except ε α) = .ok b ↔ b = a := by
  simp [pure, Except.pure, eq_comm]

theorem pure_eq_error {a : α} {e : ε} : (pure a : Except ε α) = .error e ↔ False := by
  simp [pure, Except.pure]

theorem mapError_eq_ok {x : Except ε α} {f : ε → β} {a : α} :
    x.mapError f = .ok a ↔ x = .ok a := by
  cases x with
  | ok =>
    constructor <;>
      · intro h
        cases h
        rfl
  | error => exact iff_of_false nofun nofun

theorem mapError_eq_error {x : Except ε α} {f : ε → β} {b : β} :
    x.mapError f = .error b ↔ ∃ e, x = .error e ∧ b = f e := by
  cases x with
  | ok => exact iff_of_false nofun nofun
  | error e =>
    constructor
    · intro h
      cases h
      exact ⟨e, rfl, rfl⟩
    · rintro ⟨_, ⟨⟩, rfl⟩
      rfl

theorem toOption_eq_some {x : Except ε α} {a : α} : x.toOption = some a ↔ x = .ok a := by
  cases x <;> simp [Except.toOption]

theorem throw_eq_ok {e : ε} {b : α} : (throw e : Except ε α) = .ok b ↔ False := by
  simp [throw, throwThe, MonadExceptOf.throw]

theorem refuse_eq_ok {c : Prop} [Decidable c] {e : ε} {f : α → Except ε β} {x : Except ε β}
    {b : β} : (if c then throw e >>= f else x) = .ok b ↔ ¬c ∧ x = .ok b := by
  split
  · next h => simp [bind_eq_ok, throw_eq_ok, h]
  · next h => simp [h]

theorem allow_eq_ok {c : Prop} [Decidable c] {e : ε} {u : Unit} :
    (if c then .ok () else .error e : Except ε Unit) = .ok u ↔ c := by
  by_cases h : c <;> simp [h]

end Except

/-! ## What is accepted -/

theorem ensureExists_eq_ok {u : Unit} : r.ensureExists = .ok u ↔ r.isCreated = true :=
  allow_eq_ok

theorem ensureDistinct_eq_ok {source target : ResolvedPartner} {u : Unit} :
    ensureDistinct source target = .ok u ↔
      source.id ≠ target.id ∧ source.externalId ≠ target.externalId := by
  unfold ensureDistinct
  split
  · next h => rcases h with h | h <;> simp [h]
  · next h => simpa using h

theorem currentSharingState_eq_ok {state : RelationSharingState} :
    r.currentSharingState = .ok state ↔ r.sharingState = some state := by
  unfold currentSharingState
  split <;> simp_all

theorem ensureMove_eq_ok {state : RelationSharingState} {next : RelationSharingStateType}
    {u : Unit} : state.ensureMove next = .ok u ↔ state.stateType.canMoveTo next = true :=
  allow_eq_ok

/-- The events of an update, given the stage that it finds. -/
def updateEvents (r : Relation) (stage : RelationStage) (relationType : RelationType)
    (source target : ResolvedPartner) (at_ : Instant) : List RelationEvent :=
  let changed := decide (StageValues.mk relationType source.id target.id ≠ stage.values)
  (if changed then [.inputUpdated r.id relationType source target at_] else []) ++
    (if changed || r.isInErrorState then [.sharingReset r.id relationType at_] else [])

theorem handleCreate_eq_ok {relationType : RelationType} {source target : ResolvedPartner}
    {at_ : Instant} : r.handleCreate relationType source target at_ = .ok es ↔
      r.created = false ∧ (source.id ≠ target.id ∧ source.externalId ≠ target.externalId) ∧
        es = [.inputCreated r.id r.externalId relationType source target at_] := by
  simp only [handleCreate, refuse_eq_ok, bind_eq_ok, pure_eq_ok, ensureDistinct_eq_ok,
    exists_and_left, exists_const, Bool.not_eq_true]

theorem handleUpdate_eq_ok {relationType : RelationType} {source target : ResolvedPartner}
    {at_ : Instant} : r.handleUpdate relationType source target at_ = .ok es ↔
      r.isCreated = true ∧ (source.id ≠ target.id ∧ source.externalId ≠ target.externalId) ∧
        ∃ stage, r.input = some stage ∧ es = r.updateEvents stage relationType source target at_ := by
  unfold handleUpdate
  simp only [bind_eq_ok, ensureExists_eq_ok, ensureDistinct_eq_ok, exists_and_left, exists_const]
  cases r.input with
  | none => simp only [throw_eq_ok, reduceCtorEq, false_and, exists_false, and_false]
  | some stage => simp only [pure_eq_ok, updateEvents, Option.some.injEq, exists_eq_left']

theorem handlePublish_eq_ok {relationType : RelationType} {sourceBpnl targetBpnl : Bpnl}
    {at_ : Instant} : r.handlePublish relationType sourceBpnl targetBpnl at_ = .ok es ↔
      r.isCreated = true ∧ sourceBpnl ≠ targetBpnl ∧
        es = [.outputPublished r.id ⟨relationType, sourceBpnl, targetBpnl, at_⟩] := by
  simp only [handlePublish, refuse_eq_ok, bind_eq_ok, pure_eq_ok, ensureExists_eq_ok,
    exists_and_left, exists_const, ne_eq]

theorem handleStart_eq_ok {at_ : Instant} : r.handleStart at_ = .ok es ↔
    r.isCreated = true ∧
      (∃ state, r.sharingState = some state ∧ state.stateType.canMoveTo .pending = true) ∧
      es = [.sharingStarted r.id at_] := by
  simp only [handleStart, bind_eq_ok, pure_eq_ok, ensureExists_eq_ok, currentSharingState_eq_ok,
    ensureMove_eq_ok, exists_and_left, exists_const, exists_and_right, ← and_assoc]

theorem handleFail_eq_ok {message : String} {at_ : Instant} : r.handleFail message at_ = .ok es ↔
    r.isCreated = true ∧ Text.trim message ≠ "" ∧
      (∃ state, r.sharingState = some state ∧ state.stateType.canMoveTo .error = true) ∧
        es = [.sharingFailed r.id message at_] := by
  simp only [handleFail, refuse_eq_ok, bind_eq_ok, pure_eq_ok, ensureExists_eq_ok,
    currentSharingState_eq_ok, ensureMove_eq_ok, exists_and_left, exists_const, exists_and_right,
    ne_eq, ← and_assoc]

theorem handleDelete_eq_ok {at_ : Instant} : r.handleDelete at_ = .ok es ↔
    r.isCreated = true ∧ r.input.isNone = false ∧ es = [.deleted r.id at_] := by
  simp only [handleDelete, refuse_eq_ok, bind_eq_ok, pure_eq_ok, ensureExists_eq_ok,
    exists_and_left, exists_const, Bool.not_eq_true]

/-- Only a new relation is created, by one event. -/
theorem created_of_handle_create {command : RelationCommand} (h : r.handle command = .ok es)
    (hc : command.isCreate = true) : r.created = false ∧ ∃ relationType source target at_,
      es = [.inputCreated r.id r.externalId relationType source target at_] := by
  cases command with
  | createInput relationType source target at_ =>
    obtain ⟨hr, -, rfl⟩ := handleCreate_eq_ok.1 h
    exact ⟨hr, relationType, source, target, at_, rfl⟩
  | _ => simp [RelationCommand.isCreate] at hc

/-- Every other command needs the relation to be there. -/
theorem isCreated_of_handle {command : RelationCommand} (h : r.handle command = .ok es)
    (hc : command.isCreate = false) : r.isCreated = true := by
  cases command with
  | createInput => simp [RelationCommand.isCreate] at hc
  | updateInput => exact (handleUpdate_eq_ok.1 h).1
  | publishOutput => exact (handlePublish_eq_ok.1 h).1
  | startSharing => exact (handleStart_eq_ok.1 h).1
  | failSharing => exact (handleFail_eq_ok.1 h).1
  | delete => exact (handleDelete_eq_ok.1 h).1

/-- A command lists an event for a relation. -/
inductive Listed (r : Relation) : RelationCommand → RelationEvent → Prop where
  | created {relationType : RelationType} {source target : ResolvedPartner} {at_ : Instant} :
      r.created = false → Listed r (.createInput relationType source target at_)
        (.inputCreated r.id r.externalId relationType source target at_)
  | updated {relationType : RelationType} {source target : ResolvedPartner} {at_ : Instant} :
      Listed r (.updateInput relationType source target at_)
        (.inputUpdated r.id relationType source target at_)
  | reset {relationType : RelationType} {source target : ResolvedPartner} {at_ : Instant} :
      Listed r (.updateInput relationType source target at_) (.sharingReset r.id relationType at_)
  | published {relationType : RelationType} {sourceBpnl targetBpnl : Bpnl} {at_ : Instant} :
      Listed r (.publishOutput relationType sourceBpnl targetBpnl at_)
        (.outputPublished r.id ⟨relationType, sourceBpnl, targetBpnl, at_⟩)
  | started {state : RelationSharingState} {at_ : Instant} : r.sharingState = some state →
      state.stateType = .initial → Listed r (.startSharing at_) (.sharingStarted r.id at_)
  | failed {message : String} {at_ : Instant} :
      Listed r (.failSharing message at_) (.sharingFailed r.id message at_)
  | deleted {at_ : Instant} : Listed r (.delete at_) (.deleted r.id at_)

/-- What an accepted command leads to, event by event. -/
theorem listed_of_handle {command : RelationCommand} (h : r.handle command = .ok es) :
    ∀ e ∈ es, r.Listed command e := by
  cases command with
  | createInput =>
    obtain ⟨hr, -, rfl⟩ := handleCreate_eq_ok.1 h
    simpa using .created hr
  | updateInput =>
    obtain ⟨-, -, stage, -, rfl⟩ := handleUpdate_eq_ok.1 h
    intro e he
    rw [updateEvents, List.mem_append] at he
    rcases he with he | he <;> split at he
    · exact List.mem_singleton.1 he ▸ .updated
    · cases he
    · exact List.mem_singleton.1 he ▸ .reset
    · cases he
  | publishOutput =>
    obtain ⟨-, -, rfl⟩ := handlePublish_eq_ok.1 h
    simpa using .published
  | startSharing =>
    obtain ⟨-, ⟨state, hstate, hmove⟩, rfl⟩ := handleStart_eq_ok.1 h
    simpa using .started hstate (by simpa [RelationSharingStateType.canMoveTo] using hmove)
  | failSharing =>
    obtain ⟨-, -, -, rfl⟩ := handleFail_eq_ok.1 h
    simpa using .failed
  | delete =>
    obtain ⟨-, -, rfl⟩ := handleDelete_eq_ok.1 h
    simpa using .deleted

/-- What nothing has happened to can only be created, and that is an event. -/
theorem ne_nil_of_handle_empty {id : RelationId} {tenant : TenantBpnl} {externalId : ExternalId}
    {command : RelationCommand} (h : (empty id tenant externalId).handle command = .ok es) :
    es ≠ [] := by
  cases hc : command.isCreate with
  | true =>
    obtain ⟨-, _, _, _, _, rfl⟩ := created_of_handle_create h hc
    exact List.cons_ne_nil _ _
  | false => cases isCreated_of_handle h hc

/-! ## What events change -/

@[simp] theorem applyAll_nil (r : Relation) : r.applyAll [] = r := rfl

@[simp] theorem applyAll_cons (r : Relation) (e : RelationEvent) (es : List RelationEvent) :
    r.applyAll (e :: es) = (r.apply e).applyAll es := rfl

theorem applyAll_append (r : Relation) (es es' : List RelationEvent) :
    r.applyAll (es ++ es') = (r.applyAll es).applyAll es' := List.foldl_append

@[simp] theorem id_apply (r : Relation) (e : RelationEvent) : (r.apply e).id = r.id := by
  cases e <;> rfl

@[simp] theorem key_apply (r : Relation) (e : RelationEvent) : (r.apply e).key = r.key := by
  cases e <;> rfl

@[simp] theorem version_apply (r : Relation) (e : RelationEvent) :
    (r.apply e).version = r.version + 1 := by
  cases e <;> rfl

@[simp] theorem updatedAt_apply (r : Relation) (e : RelationEvent) :
    (r.apply e).updatedAt = e.occurredAt := by
  cases e <;> rfl

theorem created_apply (e : RelationEvent) (h : r.created = true) : (r.apply e).created = true := by
  cases e <;> simp [apply, h]

theorem deleted_apply {e : RelationEvent} :
    (r.apply e).deleted = true ↔ r.deleted = true ∨ ∃ id at_, e = .deleted id at_ := by
  cases e <;> simp [apply]

@[simp] theorem id_applyAll (r : Relation) (es : List RelationEvent) :
    (r.applyAll es).id = r.id := by
  induction es generalizing r with
  | nil => rfl
  | cons e es ih => rw [applyAll_cons, ih, id_apply]

@[simp] theorem key_applyAll (r : Relation) (es : List RelationEvent) :
    (r.applyAll es).key = r.key := by
  induction es generalizing r with
  | nil => rfl
  | cons e es ih => rw [applyAll_cons, ih, key_apply]

@[simp] theorem version_applyAll (r : Relation) (es : List RelationEvent) :
    (r.applyAll es).version = r.version + es.length := by
  induction es generalizing r with
  | nil => rfl
  | cons e es ih => rw [applyAll_cons, ih, version_apply, List.length_cons]; omega

theorem created_applyAll (es : List RelationEvent) (h : r.created = true) :
    (r.applyAll es).created = true := by
  induction es generalizing r with
  | nil => exact h
  | cons e es ih => exact ih (created_apply e h)

theorem deleted_applyAll {es : List RelationEvent} :
    (r.applyAll es).deleted = true ↔ r.deleted = true ∨ ∃ id at_, .deleted id at_ ∈ es := by
  induction es generalizing r with
  | nil => simp
  | cons e es ih =>
    rw [applyAll_cons, ih, deleted_apply, or_assoc]
    refine or_congr_right ⟨?_, ?_⟩
    · rintro (⟨id, at_, rfl⟩ | ⟨id, at_, h⟩)
      · exact ⟨id, at_, List.mem_cons_self ..⟩
      · exact ⟨id, at_, List.mem_cons_of_mem _ h⟩
    · rintro ⟨id, at_, h⟩
      rcases List.mem_cons.1 h with rfl | h
      · exact .inl ⟨id, at_, rfl⟩
      · exact .inr ⟨id, at_, h⟩

theorem isCreated_iff : r.isCreated = true ↔ r.created = true ∧ r.deleted = false := by
  simp [isCreated]

/-- Only a deletion lists the event of one. -/
theorem isDelete_of_deleted_mem {command : RelationCommand} (h : r.handle command = .ok es)
    {id : RelationId} {at_ : Instant} (hmem : .deleted id at_ ∈ es) : command.isDelete = true := by
  cases listed_of_handle h _ hmem
  rfl

/-- What was handled was created. -/
theorem created_applyAll_of_handle {command : RelationCommand} (h : r.handle command = .ok es) :
    (r.applyAll es).created = true := by
  cases hc : command.isCreate with
  | true =>
    obtain ⟨-, relationType, source, target, at_, rfl⟩ := created_of_handle_create h hc
    rfl
  | false => exact created_applyAll es (isCreated_iff.1 (isCreated_of_handle h hc)).1

/-- No command but a deletion takes a relation away. -/
theorem isCreated_applyAll_of_handle {command : RelationCommand} (h : r.handle command = .ok es)
    (hr : r.deleted = false) (hc : command.isDelete = false) :
    (r.applyAll es).isCreated = true := by
  refine isCreated_iff.2 ⟨created_applyAll_of_handle h, ?_⟩
  rw [← Bool.not_eq_true, deleted_applyAll]
  rintro (hd | ⟨id, at_, hmem⟩)
  · simp [hr] at hd
  · simp [isDelete_of_deleted_mem h hmem] at hc

theorem createdAt_applyAll (h : ∀ e ∈ es, ∀ r : Relation, (r.apply e).createdAt = r.createdAt) :
    (r.applyAll es).createdAt = r.createdAt := by
  induction es generalizing r with
  | nil => rfl
  | cons e es ih =>
    obtain ⟨he, hes⟩ := List.forall_mem_cons.1 h
    rw [applyAll_cons, ih hes, he]

/-- What was created keeps the moment of its creation. -/
theorem createdAt_applyAll_of_handle {command : RelationCommand} (h : r.handle command = .ok es)
    (hr : r.created = true) : (r.applyAll es).createdAt = r.createdAt := by
  refine createdAt_applyAll fun e he r' => ?_
  cases listed_of_handle h e he with
  | created hnew => simp [hr] at hnew
  | _ => rfl

/-! ## Runs of accepted commands -/

/-- Commands accepted one after the other took the first relation to the second;
the events are theirs. -/
inductive Evolves : Relation → List RelationEvent → Relation → Prop where
  | refl (r : Relation) : Evolves r [] r
  | step {r r' : Relation} {es new : List RelationEvent} {command : RelationCommand} :
      Evolves r es r' → r'.handle command = .ok new → Evolves r (es ++ new) (r'.applyAll new)

namespace Evolves

variable {r' : Relation}

theorem eq_applyAll (h : Evolves r es r') : r' = r.applyAll es := by
  induction h with
  | refl => rfl
  | step _ _ ih => rw [applyAll_append, ← ih]

theorem trans {r'' : Relation} {es' : List RelationEvent} (h : Evolves r es r')
    (h' : Evolves r' es' r'') : Evolves r (es ++ es') r'' := by
  induction h' with
  | refl => simpa using h
  | step _ hc ih =>
    rw [← List.append_assoc]
    exact ih.step hc

theorem one {command : RelationCommand} (h : r.handle command = .ok es) :
    Evolves r es (r.applyAll es) := by
  simpa using Evolves.step (.refl r) h

theorem id_eq (h : Evolves r es r') : r'.id = r.id := by
  rw [h.eq_applyAll, id_applyAll]

theorem key_eq (h : Evolves r es r') : r'.key = r.key := by
  rw [h.eq_applyAll, key_applyAll]

theorem version_eq (h : Evolves r es r') : r'.version = r.version + es.length := by
  rw [h.eq_applyAll, version_applyAll]

theorem created_of_created (h : Evolves r es r') (hr : r.created = true) : r'.created = true := by
  rw [h.eq_applyAll]
  exact created_applyAll es hr

/-- A relation was created by its first event, and at the moment of that. -/
theorem createdAt_eq {id : RelationId} {tenant : TenantBpnl} {externalId : ExternalId}
    (h : Evolves (empty id tenant externalId) es r) :
    ∀ e ∈ es.head?, r.created = true ∧ r.createdAt = e.occurredAt := by
  generalize hempty : empty id tenant externalId = base at h
  induction h with
  | refl =>
    intro e he
    cases he
  | @step r es new command hbefore hc ih =>
    cases es with
    | cons first es =>
      intro e he
      obtain ⟨hcreated, hat⟩ := ih e he
      exact ⟨created_applyAll new hcreated, (createdAt_applyAll_of_handle hc hcreated).trans hat⟩
    | nil =>
      -- nothing can be done to a relation without events but to create it
      obtain rfl : r = base := hbefore.eq_applyAll
      subst hempty
      cases hcreate : command.isCreate with
      | false => cases isCreated_of_handle hc hcreate
      | true =>
        obtain ⟨-, relationType, source, target, at_, rfl⟩ := created_of_handle_create hc hcreate
        rintro e ⟨⟩
        exact ⟨rfl, rfl⟩

end Evolves

end Relation

end PartnerRelations
