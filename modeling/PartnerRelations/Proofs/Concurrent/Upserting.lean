/-
# `Proofs.Concurrent.Upserting` — upserts among competing writers

Others may commit at any moment between the queries of an upsert, so a name may be free
when it is looked up and taken at the commit, or the other way round, and from one attempt
to the next.  Whatever the interleaving, the attempts of a call that has returned are told
by what it was answered (`Attempts`):

    it has lost as many attempts as it has retries at most, each to somebody who took
    a name that it had found free, and has tried again after these only;

    if it failed, then none of its commits was accepted and it published nothing; if it
    failed because a name is taken, then it lost all attempts that it had;

    if it returned relations, then its only commit, if any, is that of the last attempt,
    whose events are all that it published.

Right after that commit the store has exactly one relation under each name that was
changed (`Settles`).  Its stage is that of the last entry of the name, with the ends as
this entry resolved them, and its identifier is that of the relation that the attempt
found under the name, if it found one.
-/
import PartnerRelations.Proofs.Concurrent.Deletion
import PartnerRelations.Proofs.Service.Attempt

namespace PartnerRelations

/-! ## Answers in an interleaving -/

namespace System

variable {s s' : System} {clock : Instant} {choices : List Choice}

/-- Whatever a call was answered, a world answered whose tables agree. -/
theorem Reachable.honest (hs : s.Reachable) : ∀ t ∈ s.threads, ∀ turn ∈ t.asked, turn.Honest := by
  refine (hs.induction (P := fun s => (∃ h zs, s.Invariant h zs) ∧
    ∀ t ∈ s.threads, ∀ turn ∈ t.asked, turn.Honest)
    (fun clock => ⟨⟨_, _, invariant_start clock⟩, by simp [start]⟩) ?_).2
  rintro s s' c ⟨⟨h, zs, hi⟩, hhonest⟩ hstep
  obtain ⟨h', zs', hi', -⟩ := hi.step hstep
  refine ⟨⟨h', zs', hi'⟩, forall_threads_step hstep (by simp [Thread.start]) ?_ hhonest⟩
  intro id call asked q next x world hanswer hasked
  refine List.forall_mem_cons.2 ⟨⟨fun _ => id, s.world, hi.sound.1, hi.sound.2, ?_⟩,
    hasked⟩
  exact congrArg Prod.fst hanswer

/-- The tables right after a commit agree, and have every relation that it stored. -/
theorem exists_after (hplay : (start clock).play choices = some s) {l : Landing}
    (hl : l ∈ (start clock).landings choices) :
    ∃ after, l.before.commit l.changes = .ok after ∧ after.Sound ∧
      ∀ c ∈ l.changes, ∀ r ∈ c.stored?, after.relations.get? r.id = some r := by
  obtain ⟨log, later, hlog⟩ := List.append_of_mem hl
  obtain ⟨before, c, after, s₁, s₂, hbefore, -, hstep, hlanding, -⟩ :=
    exists_step_of_landings hplay hlog
  obtain ⟨h₁, zs₁, hi₁, -⟩ := (invariant_start clock).play hbefore
  obtain ⟨h₂, zs₂, hi₂, -⟩ := hi₁.step hstep
  obtain ⟨t, ht, hoffer, htables, hcommit⟩ := exists_of_landing? hstep hlanding
  refine ⟨s₂.world.tables, htables ▸ hcommit, hi₂.accounts.sound, ?_⟩
  intro change hchange r hr
  have hreplaces := hi₁.replaces ht hoffer hcommit change hchange
  cases change with
  | insert r' =>
    cases hr
    obtain ⟨-, -, -, hget⟩ := hreplaces
    exact hget
  | update r' expected =>
    cases hr
    obtain ⟨-, -, -, -, -, hget⟩ := hreplaces
    exact hget
  | delete => cases hr

end System

/-! ## What an upsert leaves -/

/-- The tables have exactly one relation under its name, which is what the last entry of
the name asked for, and has the identifier of what was found there. -/
structure Settles (tenant : TenantBpnl) (parts : List Part) (after : Tables) (r : Relation) :
    Prop where
  only : after.relations.values.filter (fun x => x.key = r.key) = [r]
  found : after.find? r.key = some r
  asserts : ∃ part, IsLast parts part ∧ Asserts tenant part r
  kept : ∀ seen, ⟨.findByKey r.key, .ok (some seen)⟩ ∈ parts.flatMap Prod.snd → r.id = seen.id

/-- Tables that have what a unit of work stored have it as its entries asked. -/
theorem Passed.settles {tenant : TenantBpnl} {parts : List Part} {u : UnitOfWork} {after : Tables}
    (hp : Passed tenant .empty parts u) (hsound : after.Sound)
    (hstored : ∀ c ∈ u.changes, ∀ r ∈ c.stored?, after.relations.get? r.id = some r) :
    ∀ c ∈ u.changes, ∃ r, c.stored? = some r ∧ Settles tenant parts after r := by
  intro c hc
  obtain ⟨t, ht, hchange⟩ := List.mem_filterMap.1 hc
  have hr := Tracked.stored?_eq_some hchange (Relation.isCreated_iff.1 (hp.kept.created t ht)).2
  have hget := hstored c hc _ hr
  refine ⟨t.relation, hr, hsound.filter_values hget, hsound.find?_eq_some.2 ⟨hget, rfl⟩,
    (hp.last t ht).resolve_right (by simp [UnitOfWork.empty]), ?_⟩
  intro seen hseen
  obtain ⟨t', ht', hkey, hid⟩ := hp.found _ _ hseen
  rw [hp.kept.distinct.eq_of_key_eq ht ht' hkey.symm, hid]

/-- What a call of upserts has done when it returns, given its commits and its turns. -/
def Upserted (settings : ServiceSettings) (tenant : TenantBpnl)
    (requests : List InputRelationUpsert) (log : List Landing) (h : List Turn)
    (outcome : Except RelationError (List Relation)) : Prop :=
  ∃ body lost last, h = body ++ Call.report outcome ∧
    Attempts tenant requests settings.upsertRetries.toNat 0 body outcome lost last ∧
    match outcome with
    | .error e => log = [] ∧ published h = [] ∧
        ∀ name, e = .alreadyExists name → Lost tenant requests name last
    | .ok _ => ∃ at_ parts u, Won tenant requests last at_ parts u ∧
        published h = u.events ∧ log.map (·.changes) = u.commits ∧
        ∀ l ∈ log, ∃ after, l.before.commit l.changes = .ok after ∧
          ∀ c ∈ l.changes, ∃ r, c.stored? = some r ∧ Settles tenant parts after r

/-- However calls are interleaved, an upsert that has returned tried again only after it had
lost a race for a name, and not more often than it may; it published the events of the
attempt that was committed, and no others; and if it returned relations, then right after
its commit each changed name has the one relation that the last entry of the name asked for,
under the identifier that the attempt found there. -/
theorem upserts_settle_races {clock : Instant} {choices : List Choice} {s : System}
    (hplay : (System.start clock).play choices = some s) {i : Nat} {settings : ServiceSettings}
    {tenant : TenantBpnl} {requests : List InputRelationUpsert} {asked : List Turn}
    {outcome : Except RelationError (List Relation)}
    (ht : s.threads[i]? =
      some ⟨.write (.batch (.upsert settings tenant) requests), asked, .done outcome⟩) :
    Upserted settings tenant requests
      (((System.start clock).landings choices).filter fun l => l.caller = i) asked.reverse
      outcome := by
  let log := ((System.start clock).landings choices).filter fun l => l.caller = i
  have hmem := List.mem_of_getElem? ht
  obtain ⟨h, zs, hb⟩ := System.exists_books hplay
  have hgranted : granted asked.reverse = log.map (·.changes) := hb.granted_eq ht
  have hhonest : ∀ turn ∈ asked.reverse, turn.Honest := by
    intro turn hturn
    exact System.Reachable.honest ⟨clock, choices, hplay⟩ _ hmem turn (List.mem_reverse.1 hturn)
  have hconv := hb.spoken _ hmem (.done _)
  rw [List.append_nil] at hconv
  obtain ⟨body, lost, last, hbody, ha, hlast, hgranted', hpublished⟩ :=
    conversation_upserts hhonest hconv
  refine ⟨body, lost, last, hbody, ha, ?_⟩
  -- only the last attempt may have settled anything
  rcases conversation_upsertBatch hlast ha.ended with
    ⟨relations, at_, parts, u, rfl, hwon⟩ | ⟨e, rfl, hnone, hsilent, hlost⟩
  · have hcommits : log.map (·.changes) = u.commits := by
      rw [← hgranted, hgranted', hwon.granted]
    refine ⟨at_, parts, u, hwon, hpublished.trans hwon.published, hcommits, fun l hl => ?_⟩
    obtain ⟨after, hcommit, hsound, hstored⟩ :=
      System.exists_after hplay (List.mem_of_mem_filter hl)
    have hchanges : l.changes = u.changes :=
      UnitOfWork.eq_of_mem_commits (hcommits ▸ List.mem_map_of_mem hl)
    refine ⟨after, hcommit, ?_⟩
    rw [hchanges] at hstored ⊢
    exact (hwon.passed hlast).settles hsound hstored
  · refine ⟨?_, hpublished.trans hsilent, hlost⟩
    exact List.map_eq_nil_iff.1 (hgranted.symm.trans (hgranted'.trans hnone))

private abbrev upsertTenant : TenantBpnl := ⟨"T15", by cbv, by decide⟩
private abbrev upsertName : ExternalId := ⟨"R17", by cbv, by decide⟩
private abbrev upsertName' : ExternalId := ⟨"R18", by cbv, by decide⟩
private abbrev upsertPartner : ExternalId := ⟨"P18", by cbv, by decide⟩
private abbrev upsertPartner' : ExternalId := ⟨"P19", by cbv, by decide⟩

/-- Two names, one of them with two entries. -/
private def entries : List InputRelationUpsert :=
  [⟨upsertName, .isManagedBy, upsertPartner, upsertPartner'⟩,
    ⟨upsertName', .isManagedBy, upsertPartner, upsertPartner'⟩,
    ⟨upsertName, .isOwnedBy, upsertPartner', upsertPartner⟩]

/-- An upsert of the entries comes as far as its commit; somebody else creates a relation of
the first name; the upsert starts over. -/
def outrun : List Choice := List.flatten
  [[.insert (.fresh ⟨.ofNat 1⟩ upsertTenant upsertPartner .epoch),
      .insert (.fresh ⟨.ofNat 2⟩ upsertTenant upsertPartner' .epoch)],
    .arrive (.write (.batch (.upsert .standard upsertTenant) entries)) :: Choice.turns 0 17 100,
    .arrive (.write (.batch (.upsert .standard upsertTenant)
      [⟨upsertName, .isManagedBy, upsertPartner, upsertPartner'⟩])) :: Choice.turns 1 11 200,
    Choice.turns 0 25 300]

/-- The relations that an upsert has returned. -/
def Thread.upserted? : Thread → Option (List Relation)
  | ⟨.write (.batch (.upsert _ _) _), _, .done (.ok relations)⟩ => some relations
  | _ => none

set_option maxRecDepth 4000 in
/-- One attempt is lost, and the next one updates what the other call created. -/
theorem outrun_upserted : ∃ s asked relations,
    (System.start .epoch).play outrun = some s ∧
    s.threads[0]? = some ⟨.write (.batch (.upsert .standard upsertTenant) entries), asked,
      .done (.ok relations)⟩ ∧
    (refused asked.reverse).length = 1 ∧ relations.map Relation.version = [1, 1, 3] ∧
    Upserted .standard upsertTenant entries
      (((System.start .epoch).landings outrun).filter fun l => l.caller = 0) asked.reverse
      (.ok relations) := by
  have hrun : (((System.start .epoch).play outrun).bind fun s => s.threads[0]?.map fun t =>
      (t.call, t.upserted?.map (·.map Relation.version), (refused t.asked.reverse).length)) =
      some (.write (.batch (.upsert .standard upsertTenant) entries), some [1, 1, 3], 1) := by
    cbv
  obtain ⟨s, hplay, hrun⟩ := Option.bind_eq_some_iff.1 hrun
  obtain ⟨⟨call, asked, rest⟩, ht, hrun⟩ := Option.map_eq_some_iff.1 hrun
  obtain ⟨rfl, hrun⟩ := Prod.mk.inj hrun
  obtain ⟨hmapped, hrefused⟩ := Prod.mk.inj hrun
  obtain ⟨relations, hreturned, hversions⟩ := Option.map_eq_some_iff.1 hmapped
  obtain rfl : rest = .done (.ok relations) := by
    unfold Thread.upserted? at hreturned
    split at hreturned
    · next heq =>
      cases heq
      cases hreturned
      rfl
    · cases hreturned
  exact ⟨s, asked, relations, hplay, ht, hrefused, hversions, upserts_settle_races hplay ht⟩

end PartnerRelations
