/-
# `Proofs.Concurrent.Deletion` — what is deleted stays deleted

Calls that were shown a relation may still be on their way when somebody deletes it, with
an update, a promotion, a start of sharing or another deletion in hand, alone or among
changes of other relations.  For every interleaving, in every state after the commit that
deleted a relation:

    the store lacks the relation (`Tables.Lacks`), and no later commit is about it;

    a call that is about to commit a change of it is refused, and nothing is written;
    a claim says that it skips the relation and goes on with the others;

    what is stored under its name has another identifier, and all that ever happened to
    that one was committed after the deletion, numbered from 1.

The commit is an entry of the log (`landings`), so a state after it is one whose log has
it, and the entries behind it are what came later.  The history of all calls tells that the
relation has ended, and goes on telling so.
-/
import PartnerRelations.Proofs.Concurrent.Claiming
import PartnerRelations.Proofs.Service.Skip
import PartnerRelations.Proofs.Store.Deletion

namespace PartnerRelations

/-- A relation is what the envelopes made of one that nothing had happened to. -/
structure Relation.MadeBy (r : Relation) (envelopes : List RelationEnvelope) : Prop where
  numbers : envelopes.map (·.sequenceNumber) = List.range' 1 r.version
  events : r = (Relation.empty r.id r.tenant r.externalId).applyAll (envelopes.map (·.payload))

theorem History.Accounts.madeBy {h : History} {t : Tables} (ha : h.Accounts t) {r : Relation}
    (hr : t.relations.get? r.id = some r) : r.MadeBy (h.envelopes r.id) where
  numbers := by rw [ha.numbers, (ha.arrives hr).version_eq]
  events := (ha.arrives hr).eq

namespace System

variable {s s' : System} {h : History} {zs : List (Thread × Standing)} {choices : List Choice}
  {c : Choice} {x : RelationId}

/-- The step that a commit was, with what was played before it and after it. -/
theorem exists_step_of_landings {l : Landing} {later : List Landing} :
    ∀ {choices : List Choice} {s : System} {log : List Landing},
      s.play choices = some s' → s.landings choices = log ++ l :: later →
      ∃ before c after s₁ s₂, s.play before = some s₁ ∧ s.landings before = log ∧
        s₁.step c = some s₂ ∧ s₁.landing? s₂ c = some l ∧ s₂.play after = some s' ∧
        s₂.landings after = later
  | [], s, log, _, hlog => by
    have := congrArg List.length hlog
    simp [landings] at this
  | c :: choices, s, log, hplay, hlog => by
    obtain ⟨next, hstep, hrest⟩ := Option.bind_eq_some_iff.1 hplay
    simp only [landings, hstep] at hlog
    cases hl : s.landing? next c with
    | none =>
      rw [hl] at hlog
      obtain ⟨before, c', after, s₁, s₂, hbefore, rfl, hafter⟩ :=
        exists_step_of_landings hrest hlog
      refine ⟨c :: before, c', after, s₁, s₂, ?_, ?_, hafter⟩
      · exact Option.bind_eq_some_iff.2 ⟨next, hstep, hbefore⟩
      · simp [landings, hstep, hl]
    | some first =>
      rw [hl] at hlog
      cases log with
      | nil =>
        obtain ⟨rfl, rfl⟩ := List.cons.inj hlog
        exact ⟨[], c, choices, s, next, rfl, rfl, hstep, hl, hrest, rfl⟩
      | cons first' log =>
        obtain ⟨rfl, hlater⟩ := List.cons.inj hlog
        obtain ⟨before, c', after, s₁, s₂, hbefore, rfl, hafter⟩ :=
          exists_step_of_landings hrest hlater
        refine ⟨c :: before, c', after, s₁, s₂, ?_, ?_, hafter⟩
        · exact Option.bind_eq_some_iff.2 ⟨next, hstep, hbefore⟩
        · simp [landings, hstep, hl]

/-- Every interleaving keeps the books and enters its commits. -/
theorem Invariant.play (hi : s.Invariant h zs) (hplay : s.play choices = some s') :
    ∃ h' zs', s'.Invariant h' zs' ∧ h.Extends h' ∧ ∀ id, h'.envelopes id =
      h.envelopes id ++ about id ((s.landings choices).flatMap (·.events)) := by
  have hstart : ∃ h' zs', s.Invariant h' zs' ∧ h.Extends h' ∧ ∀ id, h'.envelopes id =
      h.envelopes id ++ about id (([] : List Landing).flatMap (·.events)) :=
    ⟨h, zs, hi, .refl h, fun id => (List.append_nil _).symm⟩
  have hbooks := landings_induction (P := fun s' log => ∃ h' zs', s'.Invariant h' zs' ∧
    h.Extends h' ∧ ∀ id, h'.envelopes id = h.envelopes id ++ about id (log.flatMap (·.events)))
    ?_ hstart hplay
  · rwa [List.nil_append] at hbooks
  · rintro s s' c log ⟨h₁, zs₁, hi₁, hext, henvelopes⟩ hstep
    obtain ⟨h₂, zs₂, hi₂, hext', hentered⟩ := hi₁.step hstep
    refine ⟨h₂, zs₂, hi₂, hext.trans hext', fun id => ?_⟩
    rw [hentered, henvelopes, List.flatMap_append, about_append, List.append_assoc]

/-- Nobody can commit a change of a relation that has ended. -/
theorem Invariant.refused (hi : s.Invariant h zs) (hx : h.Ended x) {t : Thread}
    (ht : t ∈ s.threads) {changes : List RelationChange} (hoffer : t.offer = some changes)
    {change : RelationChange} (hmem : change ∈ changes) (hid : change.relationId = x) :
    ∃ e, s.world.tables.commit changes = .error e := by
  obtain ⟨u, rfl, hg⟩ := hi.exists_unit ht hoffer
  exact hi.accounts.refused hx hg hmem hid

/-- Whoever stores a relation that has a history stores it under its name. -/
theorem Invariant.key_eq (hi : s.Invariant h zs) {t : Thread} (ht : t ∈ s.threads)
    {changes : List RelationChange} (hoffer : t.offer = some changes) {change : RelationChange}
    (hmem : change ∈ changes) {r : Relation} (hr : change.stored? = some r)
    (hborn : h.envelopes r.id ≠ []) : r.key = h.name r.id := by
  obtain ⟨u, rfl, hg⟩ := hi.exists_unit ht hoffer
  obtain ⟨tr, htr, hchange⟩ := List.mem_filterMap.1 hmem
  obtain rfl := Tracked.stored?_of_change? hchange r hr
  obtain ⟨base, hid, hkey, hread | hnew⟩ := (hg.tracked tr htr).exists_base
  · rw [← hid, hread.2.1.name_eq, hkey]
  · exact absurd (hid ▸ hnew.2) hborn

/-- The commit that a step was. -/
theorem exists_of_landing? {l : Landing} (hstep : s.step c = some s')
    (hl : s.landing? s' c = some l) : ∃ t ∈ s.threads, t.offer = some l.changes ∧
      l.before = s.world.tables ∧ s.world.tables.commit l.changes = .ok s'.world.tables := by
  cases c with
  | turn i id =>
    obtain ⟨before, call, asked, q, next, after, y, world, hlength, hthreads, hanswer, -, rfl⟩ :=
      step_turn_eq_some hstep
    rw [landing?_turn hlength hthreads rfl] at hl
    obtain ⟨changes, hgranted, rfl⟩ := Option.map_eq_some_iff.1 hl
    cases Turn.granted?_eq_some.1 hgranted
    refine ⟨_, hthreads ▸ List.mem_append_right before (List.mem_cons_self ..), rfl, rfl, ?_⟩
    obtain ⟨tables, hcommit⟩ := World.commit_eq_ok hanswer
    simp only [World.answer, hcommit] at hanswer
    cases hanswer
    exact hcommit
  | _ => cases hl

/-- No commit is about a relation that has ended, and no event. -/
theorem Invariant.play_ended (hi : s.Invariant h zs) (hx : h.Ended x)
    (hplay : s.play choices = some s') : ∀ l ∈ s.landings choices,
      (∀ change ∈ l.changes, change.relationId ≠ x) ∧ ∀ e ∈ l.events, e.aggregateId ≠ x := by
  refine (landings_induction (P := fun s' log => (∃ h' zs', s'.Invariant h' zs' ∧ h'.Ended x) ∧
    ∀ l ∈ log, (∀ change ∈ l.changes, change.relationId ≠ x) ∧ ∀ e ∈ l.events, e.aggregateId ≠ x)
    ?_ (⟨⟨h, zs, hi, hx⟩, List.forall_mem_nil _⟩) hplay).2
  rintro s s' c log ⟨⟨h₁, zs₁, hi₁, hx₁⟩, hlog⟩ hstep
  obtain ⟨h₂, zs₂, hi₂, hext, -⟩ := hi₁.step hstep
  refine ⟨⟨h₂, zs₂, hi₂, hx₁.mono hext⟩, List.forall_mem_append.2 ⟨hlog, ?_⟩⟩
  intro l hl
  have hl := Option.mem_toList.1 hl
  obtain ⟨t, ht, hoffer, -, hcommit⟩ := exists_of_landing? hstep hl
  have hchanges : ∀ change ∈ l.changes, change.relationId ≠ x := by
    intro change hmem hid
    obtain ⟨e, he⟩ := hi₁.refused hx₁ ht hoffer hmem hid
    rw [hcommit] at he
    cases he
  refine ⟨hchanges, fun e he => ?_⟩
  obtain ⟨change, hmem, hid⟩ := (hi₁.sound_landing hstep l hl).own e he
  exact hid ▸ hchanges change hmem

/-- After the commit that deletes a relation, it has ended, and its name is free. -/
theorem Invariant.deleted (hi : s.Invariant h zs) (hstep : s.step c = some s') {l : Landing}
    (hl : s.landing? s' c = some l) {expected : ExpectedVersion}
    (hdelete : .delete x expected ∈ l.changes) {h' : History} (ha' : h'.Accounts s'.world.tables)
    (hext : h.Extends h') : h'.Ended x ∧ ∃ old, l.before.relations.get? x = some old ∧
      old.id = x ∧ h'.name x = old.key ∧
      ∀ r ∈ s'.world.tables.relations.values, r.key ≠ old.key := by
  obtain ⟨t, ht, hoffer, hbefore, hcommit⟩ := exists_of_landing? hstep hl
  obtain ⟨u, hu, hg⟩ := hi.exists_unit ht hoffer
  rw [← hu] at hcommit hdelete
  rw [hbefore]
  exact hi.accounts.deleted hg hcommit ha' hext hdelete

/-- Every call is onward from its beginning. -/
theorem Reachable.onward (hs : s.Reachable) : ∀ t ∈ s.threads, t.call.call.run.Onward t.rest := by
  refine hs.induction (P := fun s => ∀ t ∈ s.threads, t.call.call.run.Onward t.rest)
    (fun _ _ ht => by cases ht) fun hs hstep => ?_
  exact forall_threads_step hstep (fun call => .refl _) (fun _ hcall => hcall.next _) hs

/-- A claim that is about to commit a start of a relation that has ended is told that this
comes too late, and skips the relation. -/
theorem Invariant.skipped (hi : s.Invariant h zs) (hs : s.Reachable) {old : Relation}
    (hended : h.Ended old.id) (hname : h.name old.id = old.key) {limit : Nat} {asked : List Turn}
    {changes : List RelationChange}
    {next : Except StoreError Unit → Dialogue (Except RelationError (List RelationSharingTask))}
    (ht : ⟨.claim limit, asked, .ask (.commit changes) next⟩ ∈ s.threads)
    (hchange : ∃ c ∈ changes, c.relationId = old.id) : ∃ reason,
      (∀ supply, s.world.answer supply (.commit changes) =
        (.error (.concurrency reason), s.world)) ∧
      Service.Skips next old.externalId reason := by
  obtain ⟨c, hc, hid⟩ := hchange
  obtain ⟨r, expected, rfl, hskips⟩ := Service.skips_of_onward (hs.onward _ ht)
  obtain rfl := List.mem_singleton.1 hc
  have hid : r.id = old.id := hid
  obtain ⟨reason, he⟩ :=
    Tables.commit_update_gone expected (hid ▸ hi.accounts.get?_ended hended)
  have hkey : r.key = old.key := by
    rw [hi.key_eq ht rfl hc rfl (hid ▸ hended.envelopes_ne_nil), hid, hname]
  have hexternalId : r.externalId = old.externalId := congrArg RelationKey.externalId hkey
  exact ⟨reason, fun supply => by simp only [World.answer, he], hexternalId ▸ hskips reason⟩

/-- What has become of a deleted relation, given the commits up to its deletion and the
later ones. -/
structure Deleted (s : System) (log later : List Landing) (old : Relation) : Prop where
  lacks : s.world.tables.Lacks old.id
  /-- No later commit is about it, nor any event of one. -/
  silent : ∀ l ∈ later, (∀ c ∈ l.changes, c.relationId ≠ old.id) ∧
    ∀ e ∈ l.events, e.aggregateId ≠ old.id
  /-- What a claim hands out for a later commit is another relation. -/
  awarded : ∀ i t tasks, s.threads[i]? = some t → t.claimed? = some tasks →
    List.Forall₂ (fun task l => ∃ base stage at_ envelope,
        Awarded task l base stage at_ envelope ∧ (l ∈ later → base.id ≠ old.id))
      tasks ((log ++ later).filter fun l => l.caller = i)
  /-- Whoever is about to commit a change of it is refused, and nothing is written. -/
  refused : ∀ t ∈ s.threads, ∀ changes ∈ t.offer, (∃ c ∈ changes, c.relationId = old.id) →
    ∃ e, ∀ supply, s.world.answer supply (.commit changes) = (.error e, s.world)
  /-- A claim that is refused so skips it. -/
  skipped : ∀ limit asked changes next,
    ⟨.claim limit, asked, .ask (.commit changes) next⟩ ∈ s.threads →
      (∃ c ∈ changes, c.relationId = old.id) → ∃ reason,
        (∀ supply, s.world.answer supply (.commit changes) =
          (.error (.concurrency reason), s.world)) ∧
        Service.Skips next old.externalId reason
  /-- What is stored under its name is another relation, of later commits alone. -/
  anew : ∀ r, s.world.tables.find? old.key = some r → r.id ≠ old.id ∧
    about r.id (log.flatMap (·.events)) = [] ∧ r.MadeBy (about r.id (later.flatMap (·.events)))

end System

/-- However calls are interleaved, a relation that a commit deleted is in no later state of
the store and in no later commit.  Whoever comes with a change of it is refused as a whole,
and a claim skips it.  What is stored under its name afterwards is another relation, all of
whose events came later. -/
theorem deletions_are_final {clock : Instant} {choices : List Choice} {s : System}
    {log later : List Landing} {l : Landing} {x : RelationId} {expected : ExpectedVersion}
    (hplay : (System.start clock).play choices = some s)
    (hlog : (System.start clock).landings choices = log ++ l :: later)
    (hdelete : .delete x expected ∈ l.changes) :
    ∃ old, old.id = x ∧ l.before.relations.get? x = some old ∧
      s.Deleted (log ++ [l]) later old := by
  obtain ⟨before, c, after, s₁, s₂, hbefore, rfl, hstep, hl, hafter, rfl⟩ :=
    System.exists_step_of_landings hplay hlog
  -- one history up to the commit, up to the state after it, and up to now
  obtain ⟨h₁, zs₁, hi₁, -, henvelopes₁⟩ := (System.invariant_start clock).play hbefore
  obtain ⟨h₂, zs₂, hi₂, hext₁, hentered⟩ := hi₁.step hstep
  obtain ⟨h, zs, hi, hext, henvelopes⟩ := hi₂.play hafter
  obtain ⟨hended₂, old, hold, hid, hname, hfree⟩ := hi₁.deleted hstep hl hdelete hi₂.accounts hext₁
  subst hid
  have hended := hended₂.mono hext
  have hgone := hi.accounts.get?_ended hended
  have hlacks := hi.accounts.sound.lacks hgone
  have hlater := hi₂.play_ended hended₂ hafter
  refine ⟨old, rfl, hold, hlacks, hlater, ?_, ?_, ?_, ?_⟩
  · intro i t tasks ht htasks
    obtain ⟨h', zs', hb⟩ := System.exists_books hplay
    have hawarded := hb.awarded ht htasks
    rw [hlog, List.append_cons] at hawarded
    refine hawarded.imp ?_
    rintro task l' ⟨base, stage, at_, envelope, hawarded⟩
    refine ⟨base, stage, at_, envelope, hawarded, fun hmem => ?_⟩
    have hne := (hlater l' hmem).1 _ (by rw [hawarded.changes]; exact List.mem_singleton.2 rfl)
    simpa [RelationChange.relationId] using hne
  · rintro t ht changes hoffer ⟨c, hc, hid⟩
    obtain ⟨e, he⟩ := hi.refused hended ht hoffer hc hid
    exact ⟨e, fun supply => by simp only [World.answer, he]⟩
  · rintro limit asked changes next ht hchange
    have hname' : h.name old.id = old.key :=
      (hext.name _ hended₂.envelopes_ne_nil).trans hname
    exact hi.skipped ⟨clock, choices, hplay⟩ hended hname' ht hchange
  · intro r hr
    obtain ⟨hget, hkey⟩ := hi.accounts.sound.find?_eq_some.1 hr
    have hunborn := hi₂.accounts.unborn hi.accounts hext hget (hkey ▸ hfree)
    have hmade := hi.accounts.madeBy hget
    rw [henvelopes, hunborn, List.nil_append] at hmade
    refine ⟨hlacks.found _ r hr, ?_, hmade⟩
    have hbooks := hentered r.id
    rw [hunborn, henvelopes₁, hl] at hbooks
    simpa [about_append, History.empty] using hbooks.symm

private abbrev deletionTenant : TenantBpnl := ⟨"T11", by cbv, by decide⟩
private abbrev deletionName : ExternalId := ⟨"R12", by cbv, by decide⟩
private abbrev deletionPartner : ExternalId := ⟨"P14", by cbv, by decide⟩
private abbrev deletionPartner' : ExternalId := ⟨"P15", by cbv, by decide⟩

/-- A relation is created; an update and a claim come as far as their commits; the relation
is deleted, and created again under its name. -/
def stale : List Choice := List.flatten
  [[.insert (.fresh ⟨.ofNat 1⟩ deletionTenant deletionPartner .epoch),
      .insert (.fresh ⟨.ofNat 2⟩ deletionTenant deletionPartner' .epoch)],
    .arrive (.write (.batch (.upsert .standard deletionTenant)
      [⟨deletionName, .isManagedBy, deletionPartner, deletionPartner'⟩])) :: Choice.turns 0 11 100,
    .arrive (.write (.batch (.update deletionTenant)
      [⟨deletionName, .isOwnedBy, deletionPartner, deletionPartner'⟩])) :: Choice.turns 1 6 200,
    .arrive (.claim 5) :: Choice.turns 2 4 300,
    .arrive (.write (.delete deletionTenant deletionName)) :: Choice.turns 3 7 400,
    .arrive (.write (.batch (.upsert .standard deletionTenant)
      [⟨deletionName, .isManagedBy, deletionPartner, deletionPartner'⟩])) :: Choice.turns 4 11 500]

set_option maxRecDepth 4000 in
/-- The update and the claim are still about to commit, and the new relation is there. -/
theorem stale_commits_refused : ∃ s log l later old,
    (System.start .epoch).play stale = some s ∧
    (System.start .epoch).landings stale = log ++ l :: later ∧
    l.changes = [.delete old.id (.exact 1)] ∧
    s.threads.map (fun t => t.offer.map (·.map RelationChange.relationId)) =
      [none, some [old.id], some [old.id], none, none] ∧
    s.world.tables.relations.values.map Relation.key = [old.key] ∧
    l.before.relations.get? old.id = some old ∧ s.Deleted (log ++ [l]) later old := by
  have hrun : ((System.start .epoch).play stale).map (fun s =>
      (s.threads.map fun t => t.offer.map (·.map RelationChange.relationId),
        s.world.tables.relations.values.map Relation.key)) =
      some ([none, some [⟨.ofNat 104⟩], some [⟨.ofNat 104⟩], none, none],
        [⟨deletionTenant, deletionName⟩]) := by decide +kernel
  obtain ⟨s, hplay, hs⟩ := Option.map_eq_some_iff.1 hrun
  obtain ⟨hoffers, hkeys⟩ := Prod.mk.inj hs
  have hcommits : ((System.start .epoch).landings stale)[1]?.map (fun l => (l.changes,
      (l.before.relations.get? ⟨.ofNat 104⟩).map Relation.key)) =
      some ([.delete ⟨.ofNat 104⟩ (.exact 1)], some ⟨deletionTenant, deletionName⟩) := by
    decide +kernel
  obtain ⟨l, hl, hchanges⟩ := Option.map_eq_some_iff.1 hcommits
  obtain ⟨hchanges, hkey⟩ := Prod.mk.inj hchanges
  obtain ⟨hlt, hget⟩ := List.getElem?_eq_some_iff.1 hl
  have hlog : (System.start .epoch).landings stale =
      ((System.start .epoch).landings stale).take 1 ++ l ::
        ((System.start .epoch).landings stale).drop 2 := by
    rw [← hget, ← List.drop_eq_getElem_cons hlt, List.take_append_drop]
  obtain ⟨old, hid, hold, hdeleted⟩ :=
    deletions_are_final hplay hlog (hchanges ▸ List.mem_singleton.2 rfl)
  have hold' : old.key = ⟨deletionTenant, deletionName⟩ := by
    rw [hold] at hkey
    exact Option.some.inj hkey
  exact ⟨s, _, l, _, old, hplay, hlog, hid ▸ hchanges, hid ▸ hoffers, hold' ▸ hkeys, hid ▸ hold,
    hdeleted⟩

end PartnerRelations
