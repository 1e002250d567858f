/-
# `Proofs.UnitOfWork.Session` — any use of a unit of work, and its commit

A `UnitSession` is a unit of work used from outside, over a store that nobody else
writes.  The steps are free: looking names up, giving any command to the relation
that the unit returned last under a name, and giving any command to a relation that
nothing has happened to, with an identifier of its own, under a name for which the
unit reports nothing.  So relations may be created, changed, deleted and created
again in one unit.

    `unit_session_commit`     a refused command changes nothing; the commit is
                              accepted and makes the store show under every name
                              what the unit reported just before, unless the unit
                              recreates a relation of the store (`recreates`);
                              if it does, the whole commit is refused

Recreating means that a relation of the store was deleted in the unit and its name
given to a new one.  The unit then remembers the version of the old relation for
the identifier of the new one.  A relation that was created in the unit itself may
be deleted and created again.
-/
import PartnerRelations.Proofs.Concurrent.Replay
import PartnerRelations.Proofs.World.Run

namespace PartnerRelations

/-- What may be asked of a unit of work from outside. -/
inductive UnitStep where
  | load (key : RelationKey)
  /-- A command on the relation that was returned last under the name. -/
  | execute (key : RelationKey) (command : RelationCommand)
  /-- A command on a relation that nothing has happened to. -/
  | found (key : RelationKey) (id : RelationId) (command : RelationCommand)

/-- A unit of work in use. -/
structure UnitSession where
  world : World
  unit : UnitOfWork
  /-- The relations that the unit returned, the last one first. -/
  returned : List Relation

namespace UnitSession

/-- A unit that was not used yet. -/
def start (w : World) : UnitSession := ⟨w, .empty, []⟩

/-- The relation that was returned last under a name. -/
def latest (s : UnitSession) (key : RelationKey) : Option Relation :=
  s.returned.find? fun r => r.key = key

/-- Neither the store nor the unit has the identifier. -/
def isNew (s : UnitSession) (id : RelationId) : Bool :=
  (s.world.tables.relations.get? id).isNone && s.returned.all fun r => decide (r.id ≠ id)

/-- Give a command to a relation; the unit stays if it is refused. -/
def give (supply : Nat → Uuid) (s : UnitSession) (r : Relation) (command : RelationCommand) :
    UnitSession :=
  match World.run supply (s.unit.execute r command) s.world with
  | (.ok (r, unit), world) => ⟨world, unit, r :: s.returned⟩
  | (.error _, world) => { s with world }

/-- One step, if it is allowed. -/
def step (supply : Nat → Uuid) (s : UnitSession) : UnitStep → Option UnitSession
  | .load key =>
    match World.run supply (s.unit.load key) s.world with
    | (.ok (found, unit), world) => some ⟨world, unit, found.toList ++ s.returned⟩
    | (.error _, _) => none
  | .execute key command => (s.latest key).map fun r => s.give supply r command
  | .found key id command =>
    match World.run supply (s.unit.load key) s.world with
    | (.ok (none, _), _) =>
      if s.isNew id then some (s.give supply (.empty id key.tenant key.externalId) command)
      else none
    | _ => none

/-- Steps one after the other. -/
def play (supply : Nat → Uuid) (s : UnitSession) (steps : List UnitStep) : Option UnitSession :=
  steps.foldlM (step supply) s

/-- A name of the store has a new relation, and the one that the store has is
another. -/
def recreates (s : UnitSession) : Bool :=
  s.returned.any fun r => decide (s.latest r.key = some r) &&
    (s.world.tables.find? r.key).any fun stored => decide (r.id ≠ stored.id)

variable {supply : Nat → Uuid} {s s' : UnitSession} {t : Tables} {r : Relation}
  {command : RelationCommand}

/-- The unit lies over the store, and remembers of each name what it returned last. -/
structure Invariant (s : UnitSession) (t : Tables) : Prop where
  tables : s.world.tables = t
  fits : s.unit.Fits t
  latest : ∀ key, s.latest key = (s.unit.find? key).map (·.relation)

theorem invariant_start (w : World) : (start w).Invariant w.tables :=
  ⟨rfl, UnitOfWork.fits_empty _, fun _ => rfl⟩

theorem give_refused {e : DomainError} (h : r.handle command = .error e) :
    s.give supply r command = s := by
  rw [give, World.run_execute_error h]

/-- What is remembered was returned. -/
theorem Invariant.mem_returned (hi : s.Invariant t) {tr : Tracked} (htr : tr ∈ s.unit.tracked) :
    s.latest tr.relation.key = some tr.relation ∧ tr.relation ∈ s.returned := by
  have hlatest := hi.latest tr.relation.key
  rw [hi.fits.keys.find?_eq_some.2 ⟨htr, rfl⟩] at hlatest
  exact ⟨hlatest, List.mem_of_find?_eq_some hlatest⟩

theorem Invariant.load (hi : s.Invariant t) (hs : t.Sound) (hl : t.Live) (key : RelationKey) :
    Invariant ⟨s.world, s.unit.reach t key, (s.unit.seen t key).toList ++ s.returned⟩ t := by
  refine ⟨hi.tables, hi.fits.reach hs hl key, ?_⟩
  intro key'
  show ((s.unit.seen t key).toList ++ s.returned).find? (fun r => decide (r.key = key')) =
    ((s.unit.reach t key).find? key').map (·.relation)
  rw [UnitOfWork.find?_reach hs, ← hi.latest key, ← hi.latest key', List.find?_append]
  cases hseen : s.unit.seen t key with
  | none =>
    have hor : (s.latest key).or (t.find? key) = s.latest key := by
      rw [UnitOfWork.seen_eq, ← hi.latest key] at hseen
      cases hl : s.latest key with
      | some r => rfl
      | none => simpa [hl] using hseen
    rw [hor]
    split
    · next hk => rw [hk]; rfl
    · rfl
  | some r =>
    obtain rfl := UnitOfWork.key_of_seen hs hseen
    have hor : (s.latest r.key).or (t.find? r.key) = some r := by
      rw [UnitOfWork.seen_eq, ← hi.latest r.key] at hseen
      cases hl : s.latest r.key with
      | some r' =>
        simp only [hl, Relation.present?] at hseen
        split at hseen
        · exact hseen
        · cases hseen
      | none => simpa [hl] using hseen
    rw [hor]
    by_cases hk : r.key = key'
    · simp [hk]
    · have hk' : ¬key' = r.key := fun h => hk h.symm
      simp only [Option.toList, List.find?_cons, hk, decide_false, List.find?_nil, Option.none_or,
        if_neg hk']
      rfl

/-- An accepted command leaves a unit that lies over the store, if what it recorded
does. -/
theorem Invariant.give_accepted (hi : s.Invariant t) {es : List RelationEvent}
    (hc : r.handle command = .ok es)
    (hfits : ∀ envelopes, (s.unit.record r es envelopes).Fits t) :
    (s.give supply r command).Invariant t := by
  rw [give, World.run_execute_ok hc]
  refine ⟨hi.tables, hfits _, ?_⟩
  intro key
  refine Eq.trans ?_ UnitOfWork.find?_track.symm
  rw [← hi.latest key]
  show (r.applyAll es :: s.returned).find? (fun r => decide (r.key = key)) =
    if key = (r.applyAll es).key then some (r.applyAll es) else s.latest key
  rw [List.find?_cons]
  by_cases hk : (r.applyAll es).key = key
  · simp [hk]
  · have hk' : ¬key = (r.applyAll es).key := fun h => hk h.symm
    simp only [hk, decide_false, if_neg hk']
    rfl

/-- A new relation under a name for which the unit reports nothing. -/
theorem Invariant.found (hi : s.Invariant t) {key : RelationKey} {id : RelationId}
    (hseen : s.unit.seen t key = none) (hnew : s.isNew id = true) (command : RelationCommand) :
    (s.give supply (.empty id key.tenant key.externalId) command).Invariant t := by
  obtain ⟨hget, hid⟩ := Bool.and_eq_true_iff.1 hnew
  rw [hi.tables, Option.isNone_iff_eq_none] at hget
  cases hc : (Relation.empty id key.tenant key.externalId).handle command with
  | error e => rwa [give_refused hc]
  | ok es =>
    refine hi.give_accepted hc fun _ => hi.fits.record_new hget ?_ hseen hc
      (Relation.ne_nil_of_handle_empty hc)
    intro tr htr he
    have hne := List.all_eq_true.1 hid _ (hi.mem_returned htr).2
    exact (by simpa using hne : tr.relation.id ≠ id) he

theorem Invariant.step (hi : s.Invariant t) (hs : t.Sound) (hl : t.Live) {c : UnitStep}
    (hstep : s.step supply c = some s') : s'.Invariant t := by
  cases c with
  | load key =>
    simp only [UnitSession.step, World.run_load, hi.tables, Option.some.injEq] at hstep
    subst hstep
    exact hi.load hs hl key
  | execute key command =>
    obtain ⟨r, hr, rfl⟩ := Option.map_eq_some_iff.1 hstep
    cases hc : r.handle command with
    | error e => rwa [give_refused hc]
    | ok es =>
      rw [hi.latest] at hr
      obtain ⟨tr, htr, rfl⟩ := Option.map_eq_some_iff.1 hr
      exact hi.give_accepted hc fun _ => hi.fits.record (UnitOfWork.mem_of_find? htr).1 hc
  | found key id command =>
    simp only [UnitSession.step, World.run_load, hi.tables] at hstep
    split at hstep
    · next hseen =>
      split at hstep
      · next hnew =>
        obtain rfl := Option.some.inj hstep
        exact hi.found (congrArg Prod.fst (Except.ok.inj (congrArg Prod.fst hseen))) hnew command
      · cases hstep
    · cases hstep

theorem Invariant.play (hi : s.Invariant t) (hs : t.Sound) (hl : t.Live) {steps : List UnitStep}
    (hplay : s.play supply steps = some s') : s'.Invariant t := by
  induction steps generalizing s with
  | nil =>
    cases hplay
    exact hi
  | cons c steps ih =>
    obtain ⟨next, hc, hrest⟩ := Option.bind_eq_some_iff.1 hplay
    exact ih (hi.step hs hl hc) hrest

/-- The session recreates a relation exactly if the unit has one in the place of
another one of the store. -/
theorem Invariant.recreates_iff (hi : s.Invariant t) :
    s.recreates = true ↔ ∃ tr ∈ s.unit.tracked, ¬tr.Kept t := by
  simp only [recreates, List.any_eq_true, Bool.and_eq_true, decide_eq_true_eq, Option.any_eq_true,
    hi.tables]
  constructor
  · rintro ⟨r, -, hr, stored, hstored, hne⟩
    rw [hi.latest] at hr
    obtain ⟨tr, htr, rfl⟩ := Option.map_eq_some_iff.1 hr
    exact ⟨tr, (UnitOfWork.mem_of_find? htr).1, fun hkept => hne (hkept stored hstored)⟩
  · rintro ⟨tr, htr, hnot⟩
    obtain ⟨hlatest, hmem⟩ := hi.mem_returned htr
    rw [Tracked.Kept] at hnot
    push Not at hnot
    obtain ⟨stored, hstored, hne⟩ := hnot
    exact ⟨tr.relation, hmem, hlatest, stored, hstored, hne⟩

end UnitSession

open UnitSession

/-- However a unit of work is used over a store that stays, a refused command
changes nothing, and the commit makes the store show what the unit reported, unless
it recreates a relation of the store; then it is refused. -/
theorem unit_session_commit {w : World} (hw : w.Reachable) {supply : Nat → Uuid}
    {steps : List UnitStep} {s : UnitSession} (hplay : (start w).play supply steps = some s) :
    (∀ r command e, Relation.handle r command = .error e → s.give supply r command = s) ∧
    (s.recreates = false → ∃ world, World.run supply s.unit.commit s.world = (.ok s.unit.events, world) ∧
      ∀ key, ∃ unit, World.run supply (s.unit.load key) s.world =
        (.ok (world.tables.find? key, unit), s.world)) ∧
    (s.recreates = true → ∃ reason,
      World.run supply s.unit.commit s.world = (.error (.concurrency reason), s.world)) := by
  obtain ⟨hs, hl⟩ := hw.sound
  have hi := (invariant_start w).play hs hl hplay
  refine ⟨fun r command e h => give_refused h, ?_, ?_⟩
  · intro hkept
    have hall : ∀ tr ∈ s.unit.tracked, tr.Kept w.tables := by
      intro tr htr
      by_contra hnot
      rw [hi.recreates_iff.2 ⟨tr, htr, hnot⟩] at hkept
      cases hkept
    obtain ⟨t', hcommit, -, hseen⟩ := hi.fits.commit_of_kept hs hall
    refine ⟨_, World.run_commit_ok (hi.tables ▸ hcommit), fun key => ⟨s.unit.reach w.tables key, ?_⟩⟩
    rw [World.run_load, hi.tables, ← hseen]
  · intro hreborn
    obtain ⟨reason, hcommit⟩ := hi.fits.commit_of_reborn hs (hi.recreates_iff.1 hreborn)
    exact ⟨reason, World.run_commit_error (hi.tables ▸ hcommit)⟩

/-! ## Two units over one stored relation -/

private abbrev unitTenant : TenantBpnl := ⟨"T1", by cbv, by decide⟩
private abbrev unitPartner : ExternalId := ⟨"P1", by cbv, by decide⟩
private abbrev unitPartner' : ExternalId := ⟨"P2", by cbv, by decide⟩
private abbrev storedKey : RelationKey := ⟨unitTenant, ⟨"R1", by cbv, by decide⟩⟩
private abbrev freeKey : RelationKey := ⟨unitTenant, ⟨"R2", by cbv, by decide⟩⟩

/-- One relation is created, and the call has returned. -/
def oneCreated : List Choice :=
  [.insert (.fresh ⟨.ofNat 1⟩ unitTenant unitPartner .epoch),
    .insert (.fresh ⟨.ofNat 2⟩ unitTenant unitPartner' .epoch),
    .arrive (.write (.batch (.create unitTenant)
      [⟨some storedKey.externalId, .isManagedBy, unitPartner, unitPartner'⟩]))] ++
  (List.range 11).map (fun n => .turn 0 (.ofNat n))

/-- The relation is given the command that creates it. -/
def creation : RelationCommand :=
  .createInput .isOwnedBy ⟨⟨.ofNat 1⟩, unitPartner⟩ ⟨⟨.ofNat 2⟩, unitPartner'⟩ .epoch

/-- A relation is created, deleted and created again under a free name, and the
stored one is changed; a second creation is refused. -/
def renewing : List UnitStep :=
  [.load storedKey, .execute storedKey (.startSharing .epoch),
    .found freeKey ⟨.ofNat 20⟩ creation, .execute freeKey (.delete .epoch),
    .found freeKey ⟨.ofNat 21⟩ creation, .execute freeKey creation]

/-- The stored relation is deleted and its name given to a new one. -/
def recreating : List UnitStep :=
  [.load storedKey, .execute storedKey (.delete .epoch), .found storedKey ⟨.ofNat 20⟩ creation]

theorem renewing_commit : ∃ s used, (System.start .epoch).play oneCreated = some s ∧
    (start s.world).play .ofNat renewing = some used ∧ used.unit.changes.length = 2 ∧
    used.recreates = false ∧
    ∃ world, World.run .ofNat used.unit.commit used.world = (.ok used.unit.events, world) ∧
      ∀ key, ∃ unit, World.run .ofNat (used.unit.load key) used.world =
        (.ok (world.tables.find? key, unit), used.world) := by
  have hsome : ((System.start .epoch).play oneCreated).isSome = true := by rfl
  let s := ((System.start .epoch).play oneCreated).get hsome
  have hs : (System.start .epoch).play oneCreated = some s := (Option.some_get hsome).symm
  have hused : ((start s.world).play .ofNat renewing).isSome = true := by rfl
  let used := ((start s.world).play .ofNat renewing).get hused
  have hplay : (start s.world).play .ofNat renewing = some used := (Option.some_get hused).symm
  have hkept : used.recreates = false := by rfl
  exact ⟨s, used, hs, hplay, by rfl, hkept,
    (unit_session_commit ⟨s, ⟨.epoch, _, hs⟩, rfl⟩ hplay).2.1 hkept⟩

/-- The unit reports the new relation under the stored name, and is refused all the
same: the change it asks for is an update of the new identifier. -/
theorem recreating_refused : ∃ s used, (System.start .epoch).play oneCreated = some s ∧
    (start s.world).play .ofNat recreating = some used ∧
    (∃ r unit, r.id = ⟨.ofNat 20⟩ ∧
      World.run .ofNat (used.unit.load storedKey) used.world = (.ok (some r, unit), used.world)) ∧
    World.run .ofNat used.unit.commit used.world =
      (.error (.concurrency "relation 00000000-0000-0000-0000-000000000014 no longer exists"),
        used.world) := by
  have hsome : ((System.start .epoch).play oneCreated).isSome = true := by rfl
  let s := ((System.start .epoch).play oneCreated).get hsome
  have hs : (System.start .epoch).play oneCreated = some s := (Option.some_get hsome).symm
  have hused : ((start s.world).play .ofNat recreating).isSome = true := by rfl
  let used := ((start s.world).play .ofNat recreating).get hused
  have hplay : (start s.world).play .ofNat recreating = some used := (Option.some_get hused).symm
  exact ⟨s, used, hs, hplay, ⟨_, _, rfl, rfl⟩, by rfl⟩

end PartnerRelations
