/-
# `Proofs.Concurrent.Claiming` — nothing is handed out twice

Claims run among each other and among all other calls.  Candidates are selected once,
tasks are built of a second read, and each relation is committed by itself, so anything
may happen in between.  Still, for every interleaving:

    between any two committed starts of sharing of a relation there is a committed reset;

    the tasks that a claim returns are, one for one and in order, those of the starts that
    this very claim committed, each built of the relation that the commit replaced
    (`Awarded`).

So a submission of a relation is handed out at most once.

The books of `Replay` say what every commit replaced and which events came of it.  They
are kept here together with the log of the commits and with what each call has said and
heard so far (`Books`).
-/
import PartnerRelations.Proofs.Concurrent.Replay
import PartnerRelations.Proofs.Relation.Submission
import PartnerRelations.Proofs.Service.Claim

namespace PartnerRelations

/-! ## One commit -/

/-- What a commit did, as the history recalls it: each update replaced a relation that was
stored, by the events that the commit carries of it. -/
structure Landing.Sound (h : History) (l : Landing) : Prop where
  updated : ∀ {r expected}, .update r expected ∈ l.changes → ∃ base es, h.Recalls base ∧
    base.created = true ∧ expected = .exact base.version ∧ base.Evolves es r ∧
    l.before.relations.get? base.id = some base ∧
    Carries base base.version es (about base.id l.events)
  own : ∀ e ∈ l.events, ∃ c ∈ l.changes, c.relationId = e.aggregateId

theorem Landing.Sound.mono {h h' : History} {l : Landing} (hl : l.Sound h) (hext : h.Extends h') :
    l.Sound h' where
  updated hmem :=
    let ⟨base, es, hrecalls, hcreated, hrest⟩ := hl.updated hmem
    ⟨base, es, hrecalls.mono hcreated hext, hcreated, hrest⟩
  own := hl.own

/-- A call that keeps to the protocol commits what it owes the store. -/
theorem Follows.sound {h : History} {drawn : List Uuid} {call : ServiceCall} {asked : List Turn}
    {changes : List RelationChange} {st : Standing} {w : World} {tables : Tables} {i : Nat}
    {next : Except StoreError Unit → Dialogue (Except RelationError call.Result)}
    (hf : Follows h drawn ⟨call, asked, .ask (.commit changes) next⟩ st)
    (ha : h.Accounts w.tables) (hcommit : w.tables.commit changes = .ok tables) :
    Landing.Sound h ⟨i, changes, w.tables,
      (dues (next (.ok ()))).drop (dues (.ask (.commit changes) next)).length⟩ := by
  have howed := dues_of_leads hf.leads
  obtain ⟨u, rfl, hg, -, hleads⟩ := hf.leads
  rw [howed, dues_of_leads hleads, List.drop_left]
  have hg' := hf.grounded hg
  obtain ⟨-, -, -, -, hreplaces⟩ := ha.commit hg' hcommit
  refine ⟨fun {r expected} hmem => ?_, fun e he => hg.exists_change he⟩
  obtain ⟨tr, htr, hchange⟩ := List.mem_filterMap.1 hmem
  have htracked := hg'.tracked tr htr
  cases htracked with
  | @read base r' es hread he hcarries =>
    obtain ⟨-, hupdate⟩ := Tracked.change?_persisted_eq_some.1 hchange
    obtain ⟨rfl, rfl⟩ : r = r' ∧ expected = .exact base.version := by
      split at hupdate <;> cases hupdate
      exact ⟨rfl, rfl⟩
    obtain ⟨base', -, hshown, -, hstored, -⟩ := hreplaces _ hmem
    obtain rfl : base = base' := Option.some.inj ((he.id_eq ▸ hread.1).symm.trans hshown)
    have hid := he.id_eq
    rw [hid] at hstored hcarries
    exact ⟨base, es, hread.2.1, hread.2.2, rfl, he, hstored, hcarries⟩
  | new =>
    obtain ⟨-, -, hinsert⟩ := Tracked.change?_new_eq_some.1 hchange
    cases hinsert

/-! ## All commits -/

namespace System

variable {s s' : System} {h h' : History} {zs : List (Thread × Standing)} {log : List Landing}
  {c : Choice}

/-- The commits that the store has accepted from the call at a position. -/
def grantedTo (s : System) (i : Nat) : List (List RelationChange) :=
  (s.threads[i]?).elim [] fun t => granted t.asked.reverse

/-- The books, the log of the commits, and what each call has said and heard. -/
structure Books (s : System) (log : List Landing) (h : History) (zs : List (Thread × Standing)) :
    Prop where
  invariant : s.Invariant h zs
  sound : ∀ l ∈ log, l.Sound h
  events : ∀ id, h.envelopes id = about id (log.flatMap (·.events))
  granted : ∀ i, s.grantedTo i = (log.filter fun l => l.caller = i).map (·.changes)
  spoken : ∀ t ∈ s.threads, ∀ {rest outcome}, t.rest.Conversation rest outcome →
    t.call.call.run.Conversation (t.asked.reverse ++ rest) outcome

theorem books_start (clock : Instant) : (start clock).Books [] .empty [] where
  invariant := invariant_start clock
  sound _ hl := by cases hl
  events _ := rfl
  granted _ := rfl
  spoken _ ht := by cases ht

/-- The commits of a call are those that it was granted. -/
theorem Books.granted_eq {log : List Landing} (hb : s.Books log h zs) {i : Nat} {t : Thread}
    (ht : s.threads[i]? = some t) :
    PartnerRelations.granted t.asked.reverse =
      (log.filter fun l => l.caller = i).map (·.changes) := by
  rw [← hb.granted i, grantedTo, ht]
  rfl

/-- The commit that a turn is, if it is one, is sound. -/
theorem Invariant.sound_landing (hi : s.Invariant h zs) (hstep : s.step c = some s') :
    ∀ l ∈ s.landing? s' c, l.Sound h := by
  cases c with
  | turn i id =>
    obtain ⟨before, call, asked, q, next, after, x, world, hlength, hthreads, hanswer, -, rfl⟩ :=
      step_turn_eq_some hstep
    rw [landing?_turn hlength hthreads rfl]
    intro l hl
    obtain ⟨changes, hgranted, rfl⟩ := Option.map_eq_some_iff.1 hl
    cases Turn.granted?_eq_some.1 hgranted
    have hmem : ⟨call, asked, .ask (.commit changes) next⟩ ∈ zs.map Prod.fst := by
      rw [← hi.threads, hthreads]
      exact List.mem_append_right before (List.mem_cons_self ..)
    obtain ⟨⟨t, st⟩, hz, rfl⟩ := List.mem_map.1 hmem
    obtain ⟨tables, hcommit⟩ := World.commit_eq_ok hanswer
    exact (hi.follows _ hz).sound hi.accounts hcommit
  | _ =>
    intro l hl
    cases hl

/-- A call that arrives was granted nothing. -/
theorem grantedTo_arrive (call : ServiceCall) (j : Nat) :
    grantedTo { s with threads := s.threads ++ [.start call] } j = s.grantedTo j := by
  simp only [grantedTo, List.getElem?_append]
  split
  · rfl
  · next hj =>
    rw [List.getElem?_eq_none (Nat.le_of_not_lt hj)]
    cases j - s.threads.length <;> rfl

/-- A turn grants at most its own commit. -/
theorem grantedTo_turn {before after : List Thread} {t : Thread} {turn : Turn}
    {rest : Dialogue (Except RelationError t.call.Result)} (hs : s.threads = before ++ t :: after)
    (hs' : s'.threads = before ++ ⟨t.call, turn :: t.asked, rest⟩ :: after) (j : Nat) :
    s'.grantedTo j = s.grantedTo j ++ if before.length = j then turn.granted?.toList else [] := by
  simp only [grantedTo, hs, hs']
  rcases Nat.lt_trichotomy before.length j with hj | rfl | hj
  · rw [if_neg (Nat.ne_of_lt hj), List.append_nil, List.getElem?_append_right (Nat.le_of_lt hj),
      List.getElem?_append_right (Nat.le_of_lt hj), ← Nat.succ_pred_eq_of_pos (Nat.sub_pos_of_lt hj)]
    rfl
  · cases hg : turn.granted? <;> simp [granted, hg]
  · rw [if_neg (Nat.ne_of_gt hj), List.append_nil, List.getElem?_append_left hj,
      List.getElem?_append_left hj]

theorem Books.granted_step (hb : s.Books log h zs) (hstep : s.step c = some s') (j : Nat) :
    s'.grantedTo j =
      ((log ++ (s.landing? s' c).toList).filter fun l => l.caller = j).map (·.changes) := by
  rw [List.filter_append, List.map_append, ← hb.granted]
  cases c with
  | arrive call =>
    cases hstep
    exact (grantedTo_arrive call j).trans (List.append_nil _).symm
  | turn i id =>
    obtain ⟨before, call, asked, q, next, after, x, world, rfl, hthreads, -, -, rfl⟩ :=
      step_turn_eq_some hstep
    rw [landing?_turn rfl hthreads rfl, grantedTo_turn hthreads rfl]
    congr 1
    cases Turn.granted? ⟨q, x⟩ with
    | none => simp
    | some changes => by_cases hj : before.length = j <;> simp [hj]
  | _ =>
    cases hstep
    exact (List.append_nil _).symm

/-- What is said and heard in a turn joins what was said and heard before. -/
theorem Books.spoken_step (hb : s.Books log h zs) (hstep : s.step c = some s') :
    ∀ t ∈ s'.threads, ∀ {rest outcome}, t.rest.Conversation rest outcome →
      t.call.call.run.Conversation (t.asked.reverse ++ rest) outcome := by
  refine forall_threads_step hstep (fun call _ _ hconv => hconv) ?_ hb.spoken
  intro id call asked q next x world _ hsaid rest outcome hconv
  rw [List.reverse_cons, List.append_assoc]
  exact hsaid (.ask hconv)

/-- Every step keeps the books and enters its commit. -/
theorem Books.step (hb : s.Books log h zs) (hstep : s.step c = some s') :
    ∃ h' zs', s'.Books (log ++ (s.landing? s' c).toList) h' zs' := by
  obtain ⟨h', zs', hi', hext, henvelopes⟩ := hb.invariant.step hstep
  refine ⟨h', zs', hi', fun l hl => ?_, fun id => ?_, hb.granted_step hstep, hb.spoken_step hstep⟩
  · rcases List.mem_append.1 hl with hl | hl
    · exact (hb.sound l hl).mono hext
    · exact (hb.invariant.sound_landing hstep l (Option.mem_toList.1 hl)).mono hext
  · rw [henvelopes, hb.events, List.flatMap_append, about_append]

theorem exists_books {clock : Instant} {choices : List Choice}
    (hplay : (start clock).play choices = some s) :
    ∃ h zs, s.Books ((start clock).landings choices) h zs := by
  have hbooks := landings_induction (P := fun s log => ∃ h zs, s.Books log h zs)
    (fun ⟨_, _, hb⟩ hstep => hb.step hstep) ⟨_, _, books_start clock⟩ hplay
  rwa [List.nil_append] at hbooks

end System

/-! ## Claims -/

/-- The tasks that a claim has returned. -/
def Thread.claimed? : Thread → Option (List RelationSharingTask)
  | ⟨.claim _, _, .done (.ok tasks)⟩ => some tasks
  | _ => none

theorem Thread.claimed?_eq_some {t : Thread} {tasks : List RelationSharingTask}
    (h : t.claimed? = some tasks) :
    ∃ limit asked, t = ⟨.claim limit, asked, .done (.ok tasks)⟩ := by
  unfold claimed? at h
  split at h
  · next limit asked _ =>
    cases h
    exact ⟨limit, asked, rfl⟩
  · cases h

/-- The commit started the sharing of a stored relation, by one event, and the task is
that of the relation that it replaced. -/
structure Awarded (task : RelationSharingTask) (l : Landing) (base : Relation)
    (stage : RelationStage) (at_ : Instant) (envelope : RelationEnvelope) : Prop where
  stored : l.before.relations.get? base.id = some base
  describes : task.Describes base stage
  changes : l.changes =
    [.update (base.apply (.sharingStarted base.id at_)) (.exact base.version)]
  events : l.events = [envelope]
  payload : envelope.payload = .sharingStarted base.id at_
  origin : envelope.tenant = base.tenant ∧ envelope.aggregateId = base.id

/-- What is handed out for a commit is the task of the relation that it replaced. -/
theorem HandedOut.awarded {h : History} {shown : List Relation} {task : RelationSharingTask}
    {l : Landing} (hout : HandedOut shown task l.changes) (hl : l.Sound h)
    (hshown : ∀ r ∈ shown, h.Recalls r) :
    ∃ base stage at_ envelope, Awarded task l base stage at_ envelope := by
  obtain ⟨base, hmem, at_, es, stage, hstart, hchanges, hdescribes⟩ := hout
  obtain ⟨base', es', hrecalls, -, hversion, he, hstored, hcarries⟩ :=
    hl.updated (by rw [hchanges]; exact List.mem_singleton.2 rfl)
  have hid : base.id = base'.id := by rw [← he.id_eq, Relation.id_applyAll]
  obtain rfl : base = base' := (hshown base hmem).eq_of_version hrecalls hid (by simpa using hversion)
  obtain rfl : es' = es := he.eq_of_start hstart rfl
  obtain ⟨-, -, rfl⟩ := Relation.handleStart_eq_ok.1 hstart
  have hown : about base.id l.events = l.events := by
    refine List.filter_eq_self.2 fun e hmem => ?_
    obtain ⟨c, hc, hce⟩ := hl.own e hmem
    rw [hchanges, List.mem_singleton] at hc
    subst hc
    simpa [RelationChange.relationId] using hce.symm
  rw [hown] at hcarries
  obtain ⟨envelope, hevents, hpayload⟩ := List.map_eq_singleton_iff.1 hcarries.payloads
  exact ⟨base, stage, at_, envelope, hstored, hdescribes, hchanges, hevents, hpayload,
    hcarries.origin envelope (by rw [hevents]; exact List.mem_singleton.2 rfl)⟩

/-- A claim that has returned hands out the task of each relation that it started. -/
theorem System.Books.awarded {s : System} {log : List Landing} {h : History}
    {zs : List (Thread × Standing)} (hb : s.Books log h zs) {i : Nat} {t : Thread}
    {tasks : List RelationSharingTask} (ht : s.threads[i]? = some t)
    (htasks : t.claimed? = some tasks) :
    List.Forall₂ (fun task l => ∃ base stage at_ envelope, Awarded task l base stage at_ envelope)
      tasks (log.filter fun l => l.caller = i) := by
  obtain ⟨limit, asked, rfl⟩ := Thread.claimed?_eq_some htasks
  have hmem := List.mem_of_getElem? ht
  have hconv := hb.spoken _ hmem (.done _)
  rw [List.append_nil] at hconv
  have hshown : ∀ r ∈ asked.reverse.flatMap Turn.shown, h.Recalls r := by
    obtain ⟨⟨t, st⟩, hz, rfl⟩ := List.mem_map.1 (hb.invariant.threads ▸ hmem)
    have hf := hb.invariant.follows _ hz
    intro r hr
    refine (hf.recalled r ?_).1
    rw [hf.shown]
    simpa [Thread.shown] using hr
  have hout := Service.handedOut_of_claim hconv
  rw [hb.granted_eq ht] at hout
  obtain ⟨hlength, hout⟩ := List.forall₂_iff_zip.1 (List.forall₂_map_right_iff.1 hout)
  refine List.forall₂_iff_zip.2 ⟨hlength, fun {task l} hzip => ?_⟩
  have hl := (List.mem_filter.1 (List.of_mem_zip hzip).2).1
  exact (hout hzip).awarded (hb.sound l hl) hshown

/-- However calls are interleaved, a committed reset stands between any two committed
starts of sharing of a relation, and the tasks of a claim are those of the starts that it
committed.  When all calls have returned, what was committed is what was published. -/
theorem claims_hand_out_once {clock : Instant} {choices : List Choice} {s : System}
    (hplay : (System.start clock).play choices = some s) :
    let log := (System.start clock).landings choices
    (∀ id, Alternates ((about id (log.flatMap (·.events))).map (·.payload))) ∧
    (∀ i t tasks, s.threads[i]? = some t → t.claimed? = some tasks →
      List.Forall₂ (fun task l => ∃ base stage at_ envelope, Awarded task l base stage at_ envelope)
        tasks (log.filter fun l => l.caller = i)) ∧
    (s.Finished → ∀ id, retold s.world.published id = about id (log.flatMap (·.events))) := by
  obtain ⟨h, zs, hb⟩ := System.exists_books hplay
  refine ⟨fun id => ?_, fun _ _ _ => hb.awarded, fun hfinished id => ?_⟩ <;> rw [← hb.events]
  · exact (hb.invariant.accounts.lawful id).alternates
  · exact retold_eq hb.invariant.accounts (hb.invariant.published hfinished id)

private abbrev claimTenant : TenantBpnl := ⟨"T7", by cbv, by decide⟩
private abbrev claimName : ExternalId := ⟨"R10", by cbv, by decide⟩
private abbrev claimPartner : ExternalId := ⟨"P9", by cbv, by decide⟩
private abbrev claimPartner' : ExternalId := ⟨"P10", by cbv, by decide⟩

/-- An upsert of the one relation. -/
private def submission (relationType : RelationType) : ServiceCall :=
  .write (.batch (.upsert .standard claimTenant)
    [⟨claimName, relationType, claimPartner, claimPartner'⟩])

/-- A number of turns of a call, with identifiers from a first one on. -/
private def turns (i count first : Nat) : List Choice :=
  (List.range count).map fun n => .turn i (.ofNat (first + n))

/-- Two claims select the same relation, and the first one gets it; then it is submitted
again, and a third claim gets it again. -/
def rivalry : List Choice := List.flatten
  [[.insert (.fresh ⟨.ofNat 1⟩ claimTenant claimPartner .epoch),
      .insert (.fresh ⟨.ofNat 2⟩ claimTenant claimPartner' .epoch)],
    .arrive (submission .isManagedBy) :: turns 0 11 100,
    .arrive (.claim 5) :: .arrive (.claim 5) :: turns 1 4 200, turns 2 4 300, turns 1 4 400,
    turns 2 2 500,
    .arrive (submission .isOwnedBy) :: turns 3 12 600,
    .arrive (.claim 5) :: turns 4 8 700]

set_option maxRecDepth 4000 in
/-- The first claim and the third get one task each, the second none. -/
theorem rivalry_handed_out : ∃ s, (System.start .epoch).play rivalry = some s ∧ s.Finished ∧
    s.threads.map (fun t => t.claimed?.map List.length) = [none, some 1, some 0, none, some 1] ∧
    let log := (System.start .epoch).landings rivalry
    (∀ id, Alternates ((about id (log.flatMap (·.events))).map (·.payload))) ∧
    (∃ t tasks, s.threads[1]? = some t ∧ t.claimed? = some tasks ∧ List.Forall₂ (fun task l =>
      ∃ base stage at_ envelope, Awarded task l base stage at_ envelope)
        tasks (log.filter fun l => l.caller = 1)) ∧
    ∀ id, retold s.world.published id = about id (log.flatMap (·.events)) := by
  have hrun : ((System.start .epoch).play rivalry).map (fun s => (s.threads.all Thread.isFinished,
      s.threads.map fun t => t.claimed?.map List.length)) =
      some (true, [none, some 1, some 0, none, some 1]) := by cbv
  obtain ⟨s, hplay, hs⟩ := Option.map_eq_some_iff.1 hrun
  obtain ⟨hall, hclaims⟩ := Prod.mk.inj hs
  have hfinished : s.Finished := List.all_eq_true.1 hall
  have hone : (s.threads[1]?).map (fun t => t.claimed?.map List.length) = some (some 1) := by
    rw [← List.getElem?_map, hclaims]
    rfl
  obtain ⟨t, ht, hlength⟩ := Option.map_eq_some_iff.1 hone
  obtain ⟨tasks, htasks, -⟩ := Option.map_eq_some_iff.1 hlength
  obtain ⟨halternates, hawarded, hretold⟩ := claims_hand_out_once hplay
  exact ⟨s, hplay, hfinished, hclaims, halternates,
    ⟨t, tasks, ht, htasks, hawarded 1 t tasks ht htasks⟩, hretold hfinished⟩

end PartnerRelations
