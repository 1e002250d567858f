/-
# `Proofs.World.Claims` — claims one after the other

With nobody else at work, a claim takes the beginning of the queue: it starts as many
relations as it may, in the order of the queue, hands out their tasks and leaves the rest
of the queue as it is (`claim_takes`).  A run of claims, each with its own limit and at
its own moment, therefore hands out

    the first `l₁ + … + lₖ` relations of the queue that was there at the beginning,

each once, the one that waits longest first (`claims_drain_queue`); each claim gets the part
that its own limit cuts off (`told_claimEach`).  What a task says of the two ends is what the
ledger says of the records that the stage points to (`Tasked`).

That a claim comes through at all needs every end to have a record: a relation that points
nowhere would fail the claims that reach it, and all that wait behind it.
-/
import Mathlib.Data.List.SplitLengths
import PartnerRelations.Proofs.Concurrent.Reference
import PartnerRelations.Proofs.Service.Selection
import PartnerRelations.Proofs.Store.Queue
import PartnerRelations.Proofs.World.Call

namespace PartnerRelations

/-- The task is that of a relation, its two ends as the ledger has them. -/
def Tasked (ledger : Ledger) (r : Relation) (task : RelationSharingTask) : Prop :=
  ∃ stage source target, r.input = some stage ∧ ledger.IsLast stage.source source ∧
    ledger.IsLast stage.target target ∧
    task = { tenant := r.tenant, externalId := r.externalId, relationType := stage.relationType
             source := ⟨source.externalId, source.bpnl⟩
             target := ⟨target.externalId, target.bpnl⟩ }

/-- A relation that waits, and whose task can be told from the ledger. -/
structure Relation.Claimable (ledger : Ledger) (r : Relation) : Prop where
  isCreated : r.isCreated = true
  isInitial : r.IsInitial
  tasked : ∃ task, Tasked ledger r task

theorem Relation.Claimable.handle {ledger : Ledger} {r : Relation} (h : r.Claimable ledger)
    (at_ : Instant) : r.handle (.startSharing at_) = .ok [.sharingStarted r.id at_] := by
  obtain ⟨state, hstate, hinitial⟩ := h.isInitial
  refine Relation.handleStart_eq_ok.2 ⟨h.isCreated, ⟨state, hstate, ?_⟩, rfl⟩
  rw [hinitial]
  rfl

/-- A record that is asked for is found among those that were asked for. -/
theorem Ledger.last?_withIds {l : Ledger} {ids : List SharingStateId} {id : SharingStateId}
    (hid : id ∈ ids) : (l.withIds ids).last? id = l.last? id := by
  rw [last?, last?, withIds, ← List.filter_reverse, List.find?_filter]
  congr 1
  funext record
  by_cases h : record.id = id <;> simp [h, hid]

namespace Service

open Call (comesTo_pure comesTo_now comesTo_orFail comesTo_execute_ok comesTo_publish)

variable {supply : Nat → Uuid} {w : World} {at_ : Instant}

/-! ## The parts of a claim -/

theorem comesTo_startEach {candidates : List Relation} :
    ∀ {w : World}, (∀ r ∈ candidates, r.Claimable w.ledger) →
    ∃ claims, List.Forall₂ (Started at_) candidates claims ∧
      (startEach at_ candidates).ComesTo supply w (.ok claims) (w.draw candidates.length) := by
  induction candidates with
  | nil => exact fun {w} _ => ⟨[], .nil, comesTo_pure []⟩
  | cons r rest ih =>
    intro w h
    obtain ⟨hr, hrest⟩ := List.forall_mem_cons.1 h
    obtain ⟨claims, hclaims, hstarts⟩ := @ih (w.draw 1) hrest
    have hstarted := started_alone (hr.handle at_) (World.carries_envelop supply r _ w.drawn r.version)
    refine ⟨_ :: claims, .cons hstarted hclaims, ?_⟩
    rw [World.draw_draw, Nat.add_comm 1] at hstarts
    exact (comesTo_execute_ok (hr.handle at_)).bind (hstarts.bind (comesTo_pure _))

/-- A traversal that can be made at every element can be made. -/
theorem exists_mapM_eq_ok {ε α β : Type} {f : α → Except ε β} {R : α → β → Prop} {xs : List α}
    (h : ∀ x ∈ xs, ∃ y, f x = .ok y ∧ R x y) :
    ∃ ys, xs.mapM f = .ok ys ∧ List.Forall₂ R xs ys := by
  induction xs with
  | nil => exact ⟨[], rfl, .nil⟩
  | cons x xs ih =>
    obtain ⟨⟨y, hy, hxy⟩, hxs⟩ := List.forall_mem_cons.1 h
    obtain ⟨ys, hys, hall⟩ := ih hxs
    refine ⟨y :: ys, ?_, .cons hxy hall⟩
    rw [List.mapM_cons, hy, hys]
    rfl

/-- A relation whose ends are looked up gets the task that the ledger tells. -/
theorem task_withIds {ledger : Ledger} {ids : List SharingStateId} {r : Relation}
    {told : RelationSharingTask} (h : Tasked ledger r told)
    (hids : ∀ stage ∈ r.input, stage.source ∈ ids ∧ stage.target ∈ ids) :
    Service.task (ledger.withIds ids) r = .ok told := by
  obtain ⟨stage, source, target, hinput, hsource, htarget, rfl⟩ := h
  obtain ⟨hs, ht⟩ := hids stage hinput
  have hsource' := (Ledger.last?_withIds hs).trans (Ledger.last?_eq_some.2 hsource)
  have htarget' := (Ledger.last?_withIds ht).trans (Ledger.last?_eq_some.2 htarget)
  simp only [Service.task, hinput, reference, hsource', htarget']
  rfl

theorem comesTo_tasks {relations : List Relation} (h : ∀ r ∈ relations, ∃ t, Tasked w.ledger r t) :
    ∃ told, List.Forall₂ (Tasked w.ledger) relations told ∧
      (tasks relations).ComesTo supply w (.ok told) w := by
  obtain ⟨told, hmap, htold⟩ := exists_mapM_eq_ok (R := Tasked w.ledger)
    (f := Service.task (w.ledger.withIds (endIds relations))) fun r hr => by
      obtain ⟨t, ht⟩ := h r hr
      refine ⟨t, task_withIds ht fun stage hstage => ?_, ht⟩
      have hmem : stage ∈ relations.filterMap Relation.input :=
        List.mem_filterMap.2 ⟨r, hr, hstage⟩
      exact ⟨List.mem_flatMap.2 ⟨stage, hmem, by simp⟩, List.mem_flatMap.2 ⟨stage, hmem, by simp⟩⟩
  have hasked : (Call.orFail .ofStore (Query.ask (.partnerRecordsByIds (endIds relations)))
      : Call Ledger).ComesTo supply w (.ok (w.ledger.withIds (endIds relations))) w := ⟨rfl, rfl, rfl⟩
  refine ⟨told, htold, hasked.bind ?_⟩
  rw [hmap]
  exact Program.comesTo_done _

/-- Nobody else is at work, so every start is committed. -/
theorem comesTo_commitEach {candidates : List Relation} {pairs : List (Claim × RelationSharingTask)}
    (h : List.Forall₂ (fun r p => Started at_ r p.1) candidates pairs) :
    ∀ {w : World} {events : List RelationEnvelope} {claimed : List RelationSharingTask},
    w.tables.Sound → (∀ r ∈ candidates, w.tables.relations.get? r.id = some r) →
    (candidates.map Relation.id).Nodup →
    ∃ t published, (commitEach events claimed pairs).ComesTo supply w
        (.ok (claimed ++ pairs.map Prod.snd)) { w with tables := t, published := published } ∧
      t.Sound ∧ w.tables.Starts t candidates [at_] := by
  induction h with
  | nil =>
    intro w events claimed hs _ _
    rw [List.map_nil, List.append_nil]
    exact ⟨w.tables, _, comesTo_publish.bind (comesTo_pure _), hs, Tables.starts_nil _ _⟩
  | @cons r p candidates pairs hstarted _ ih =>
    obtain ⟨claim, task⟩ := p
    intro w events claimed hs hstored hids
    obtain ⟨hr, hstored⟩ := List.forall_mem_cons.1 hstored
    obtain ⟨hnew, hids'⟩ := List.nodup_cons.1 hids
    have hid : claim.relation.id = r.id := by rw [hstarted.relation_eq, Relation.startedAt]; simp
    have hkey : r.key = claim.relation.key := by
      rw [hstarted.relation_eq, Relation.startedAt, Relation.key_apply]
    -- the commit of this start, and the store after it
    let t : Tables := ⟨w.tables.relations.insert claim.relation.id claim.relation, w.tables.keys⟩
    have hcommit : w.tables.commit claim.unit.changes = .ok t := by
      rw [hstarted.changes]
      refine Tables.commit_cons_eq_ok.2 ⟨t, Tables.apply_update_eq_ok.2 ⟨r, ?_, ?_, rfl⟩, rfl⟩
      · rw [hid, hr]
      · exact decide_eq_true rfl
    have hget : ∀ id, t.relations.get? id =
        if id = r.id then some claim.relation else w.tables.relations.get? id := fun id => by
      rw [← hid]
      exact Table.get?_insert ..
    have hstep : w.tables.Starts t [r] [at_] := by
      refine ⟨fun x hx => ?_, fun id hne => ?_, rfl⟩
      · obtain rfl := List.mem_singleton.1 hx
        refine ⟨at_, List.mem_singleton_self _, claim.relation, (hget _).trans (if_pos rfl), ?_⟩
        rw [hstarted.relation_eq]
        exact hstarted.effect
      · exact (hget id).trans (if_neg fun h => hne (by simp [h]))
    have hstored' : ∀ x ∈ candidates, t.relations.get? x.id = some x := fun x hx => by
      have hne : x.id ≠ r.id := fun heq => hnew (heq ▸ List.mem_map_of_mem hx)
      rw [hget, if_neg hne, hstored x hx]
    obtain ⟨t', published, hrest, hs', hstarts⟩ := @ih { w with tables := t }
      (events ++ claim.unit.events) (claimed ++ [task]) (hs.update (hid ▸ hr) hkey) hstored' hids'
    refine ⟨t', published, ?_, hs', hstep.append hstarts hids⟩
    rw [List.map_cons, List.append_cons]
    have hlift : (ExceptT.lift claim.unit.commit : Call _).ComesTo supply w
        (.ok (.ok claim.unit.events)) { w with tables := t } :=
      Program.ComesTo.bind (Program.comesTo_commit hcommit) (Program.comesTo_done _)
    exact hlift.bind hrest

/-! ## One claim -/

/-- A claim starts the beginning of the queue and hands out its tasks. -/
theorem comesTo_claim {queue : List Relation} (hs : w.tables.Sound) (hq : w.tables.Queue queue)
    (hclaimable : ∀ r ∈ queue, r.Claimable w.ledger) (limit : Nat) :
    ∃ told w', (Service.claim limit).ComesTo supply w (.ok told) w' ∧
      List.Forall₂ (Tasked w.ledger) (queue.take limit) told ∧ w'.ledger = w.ledger ∧
      w'.tables.Sound ∧ w.tables.Starts w'.tables (queue.take limit) [w.clock] := by
  unfold Service.claim
  by_cases hlimit : limit = 0
  · subst hlimit
    refine ⟨[], w, Call.ComesTo.reported ?_, .nil, rfl, hs, Tables.starts_nil _ _⟩
    rw [if_pos rfl]
    exact comesTo_pure []
  obtain ⟨queue', hq', hselected⟩ := Tables.exists_queue hs
  obtain rfl := hq.unique hq'
  have hmem : ∀ r ∈ queue.take limit, r ∈ queue := fun r hr => List.mem_of_mem_take hr
  have hfound : (Call.orFail .ofStore (Query.ask (.findInState .initial limit))
      : Call (List Relation)).ComesTo supply w (.ok (queue.take limit)) w :=
    ⟨congrArg Except.ok (hselected limit), rfl, rfl⟩
  obtain ⟨claims, hstarted, hstart⟩ := @comesTo_startEach supply w.clock (queue.take limit) w
    fun r hr => hclaimable r (hmem r hr)
  -- the tasks are told of the started relations, which say the same of their ends
  have hrelations : claims.map Claim.relation =
      (queue.take limit).map (Relation.startedAt · w.clock) :=
    (map_eq_of_forall₂ hstarted fun r claim h => h.relation_eq.symm).symm
  obtain ⟨told, htold, htasks⟩ := @comesTo_tasks supply (w.draw (queue.take limit).length)
    (claims.map Claim.relation) fun x hx => by
      rw [hrelations] at hx
      obtain ⟨r, hr, rfl⟩ := List.mem_map.1 hx
      exact (hclaimable r (hmem r hr)).tasked
  rw [hrelations, List.forall₂_map_left_iff] at htold
  have hlength : claims.length = told.length := hstarted.length_eq.symm.trans htold.length_eq
  have hpairs : List.Forall₂ (fun r p => Started w.clock r p.1) (queue.take limit)
      (claims.zip told) := by
    refine (forall₂_zip hstarted (S := fun _ _ => True) ?_).imp fun _ _ h => h.1
    exact List.forall₂_iff_get.2 ⟨hlength, fun _ _ _ => trivial⟩
  obtain ⟨t, published, hcommits, hs', hstarts⟩ :=
    @comesTo_commitEach supply w.clock _ _ hpairs (w.draw (queue.take limit).length) [] [] hs
      (fun r hr => ((hq.mem r).1 (hmem r hr)).1)
      (hq.nodup_ids.sublist ((List.take_sublist _ _).map _))
  rw [List.nil_append, List.map_snd_zip (Nat.le_of_eq hlength.symm)] at hcommits
  refine ⟨told, { w.draw (queue.take limit).length with tables := t, published := published },
    Call.ComesTo.reported ?_, htold, rfl, hs', hstarts⟩
  rw [if_neg hlimit]
  exact comesTo_now.bind (hfound.bind (hstart.bind (htasks.bind hcommits)))

end Service

/-! ## Claims one after the other -/

namespace World

/-- Claims one after the other, each at a moment and with a limit, and nothing in between:
what they return, and the world after the last one. -/
def claimEach (supply : Nat → Uuid) : World → List (Instant × Nat) →
    List (Except RelationError (List RelationSharingTask)) × World
  | w, [] => ([], w)
  | w, (at_, limit) :: rest =>
    let (outcome, next) := run supply (Service.claim limit).run { w with clock := at_ }
    let (outcomes, last) := claimEach supply next rest
    (outcome :: outcomes, last)

/-- A claim leaves the rest of the queue to the next one. -/
theorem claim_takes (supply : Nat → Uuid) {w : World} {queue : List Relation}
    (hs : w.tables.Sound) (hq : w.tables.Queue queue)
    (hclaimable : ∀ r ∈ queue, r.Claimable w.ledger) (at_ : Instant) (limit : Nat) :
    ∃ told next, run supply (Service.claim limit).run { w with clock := at_ } = (.ok told, next) ∧
      List.Forall₂ (Tasked w.ledger) (queue.take limit) told ∧ next.ledger = w.ledger ∧
      next.tables.Sound ∧ w.tables.Starts next.tables (queue.take limit) [at_] ∧
      next.tables.Queue (queue.drop limit) := by
  obtain ⟨told, w', hclaim, htold, hledger, hs', hstarts⟩ :=
    @Service.comesTo_claim supply { w with clock := at_ } queue hs hq hclaimable limit
  obtain ⟨htables, hleft, -⟩ := hclaim.leaves
  rw [← htables] at hs' hstarts
  rw [← hleft] at hledger
  exact ⟨told, _, Prod.ext hclaim.value rfl, htold, hledger, hs', hstarts, hq.drop hstarts⟩

/-- What a run of claims comes to, given the queue that it found. -/
structure Drains (w : World) (queue : List Relation) (calls : List (Instant × Nat))
    (outcomes : List (Except RelationError (List RelationSharingTask))) (last : World) : Prop where
  /-- No claim fails; together they hand out the beginning of the queue. -/
  tasks : ∃ told : List (List RelationSharingTask), outcomes = told.map .ok ∧
    List.Forall₂ (Tasked w.ledger) (queue.take (calls.map Prod.snd).sum) told.flatten
  /-- These relations are pending, and the rest of the store is as it was. -/
  started : w.tables.Starts last.tables (queue.take (calls.map Prod.snd).sum) (calls.map Prod.fst)
  ledger : last.ledger = w.ledger

/-- Each claim hands out its own part of the queue. -/
theorem told_claimEach (supply : Nat → Uuid) (calls : List (Instant × Nat)) :
    ∀ {w : World} {queue : List Relation}, w.tables.Sound → w.tables.Queue queue →
    (∀ r ∈ queue, r.Claimable w.ledger) →
    ∃ told : List (List RelationSharingTask), (claimEach supply w calls).1 = told.map .ok ∧
      List.Forall₂ (List.Forall₂ (Tasked w.ledger)) ((calls.map Prod.snd).splitLengths queue) told ∧
      w.tables.Starts (claimEach supply w calls).2.tables
        (queue.take (calls.map Prod.snd).sum) (calls.map Prod.fst) ∧
      (claimEach supply w calls).2.ledger = w.ledger := by
  induction calls with
  | nil =>
    intro w queue _ _ _
    exact ⟨[], rfl, .nil, Tables.starts_nil _ _, rfl⟩
  | cons call rest ih =>
    obtain ⟨at_, limit⟩ := call
    intro w queue hs hq hclaimable
    obtain ⟨told, next, hrun, htold, hledger, hs', hstarts, hq'⟩ :=
      claim_takes supply hs hq hclaimable at_ limit
    obtain ⟨more, houtcomes, hmore, hstarted, hledger'⟩ := ih hs' hq' fun r hr => by
      rw [hledger]
      exact hclaimable r (List.mem_of_mem_drop hr)
    rw [hledger] at hmore hledger'
    have heach : claimEach supply w ((at_, limit) :: rest) =
        (.ok told :: (claimEach supply next rest).1, (claimEach supply next rest).2) := by
      rw [claimEach, hrun]
    rw [heach]
    refine ⟨told :: more, by rw [houtcomes, List.map_cons], ?parts, ?started, hledger'⟩
    case parts =>
      rw [List.map_cons, List.splitLengths_cons]
      exact .cons htold hmore
    case started =>
      rw [List.map_cons, List.sum_cons, List.take_add]
      refine (hstarts.mono (by simp)).append (hstarted.mono (by simp)) ?_
      rw [← List.take_add]
      exact hq.nodup_ids.sublist ((List.take_sublist _ _).map _)

/-- Tasks carry the names of their relations. -/
theorem map_externalId_of_tasked {ledger : Ledger} {parts : List (List Relation)}
    {told : List (List RelationSharingTask)}
    (h : List.Forall₂ (List.Forall₂ (Tasked ledger)) parts told) :
    told.map (List.map (·.externalId)) = parts.map (List.map (·.externalId)) := by
  refine (Service.map_eq_of_forall₂ h fun part tasks hpart => ?_).symm
  refine Service.map_eq_of_forall₂ hpart fun r task htask => ?_
  obtain ⟨_, _, _, _, _, _, rfl⟩ := htask
  rfl

theorem map_splitLengths {α β : Type} (f : α → β) (limits : List Nat) (l : List α) :
    (limits.splitLengths l).map (List.map f) = limits.splitLengths (l.map f) := by
  induction limits generalizing l with
  | nil => rfl
  | cons limit limits ih =>
    rw [List.splitLengths_cons, List.map_cons, ih, List.splitLengths_cons, List.map_take,
      List.map_drop]

/-- Put together, the parts are the beginning of the queue. -/
theorem flatten_splitLengths_eq_take {α : Type} (limits : List Nat) (l : List α) :
    (limits.splitLengths l).flatten = l.take limits.sum := by
  induction limits generalizing l with
  | nil => rw [List.splitLengths_nil, List.flatten_nil, List.sum_nil, List.take_zero]
  | cons limit limits ih =>
    rw [List.splitLengths_cons, List.flatten_cons, ih, List.sum_cons, List.take_add]

theorem drains (supply : Nat → Uuid) {calls : List (Instant × Nat)} {w : World}
    {queue : List Relation} (hs : w.tables.Sound) (hq : w.tables.Queue queue)
    (hclaimable : ∀ r ∈ queue, r.Claimable w.ledger) :
    w.Drains queue calls (claimEach supply w calls).1 (claimEach supply w calls).2 := by
  obtain ⟨told, houtcomes, htold, hstarted, hledger⟩ := told_claimEach supply calls hs hq hclaimable
  refine ⟨⟨told, houtcomes, ?_⟩, hstarted, hledger⟩
  rw [← flatten_splitLengths_eq_take]
  exact List.rel_flatten htold

end World

/-- What waits can be claimed, if the ends that stages point to have records. -/
theorem World.Reachable.claimable {w : World} (hw : w.Reachable)
    (hends : ∀ r ∈ w.tables.relations.values, ∀ stage ∈ r.input,
      (∃ record ∈ w.ledger, record.id = stage.source) ∧
        ∃ record ∈ w.ledger, record.id = stage.target)
    {queue : List Relation} (hq : w.tables.Queue queue) :
    ∀ r ∈ queue, r.Claimable w.ledger := by
  have hlast : ∀ {id}, (∃ record ∈ w.ledger, record.id = id) → ∃ record, w.ledger.IsLast id record := by
    rintro id ⟨record, hmem, hid⟩
    have hfound : (w.ledger.last? id).isSome = true := by
      rw [Ledger.last?, List.find?_isSome]
      exact ⟨record, List.mem_reverse.2 hmem, by simpa using hid⟩
    obtain ⟨last, hlast⟩ := Option.isSome_iff_exists.1 hfound
    exact ⟨last, Ledger.last?_eq_some.1 hlast⟩
  intro r hr
  obtain ⟨hget, hinitial⟩ := (hq.mem r).1 hr
  have hmem := Table.mem_values_of_get? hget
  obtain ⟨s, hreach, rfl⟩ := hw
  obtain ⟨hcreated, hsane⟩ := hreach.sane hmem
  obtain ⟨stage, -, hstage, -⟩ := hsane.present hcreated
  obtain ⟨source, hsource⟩ := hlast (hends r hmem stage hstage).1
  obtain ⟨target, htarget⟩ := hlast (hends r hmem stage hstage).2
  exact ⟨hcreated, hinitial, _, stage, source, target, hstage, hsource, htarget, rfl⟩

/-- In a store that interleaved calls have led to, and whose stages point to records of the
ledger, claims one after the other hand out the relations that waited at the beginning, in
the order of the queue, as many as their limits come to; these are pending afterwards, and
nothing else is touched. -/
theorem claims_drain_queue {w : World} (hw : w.Reachable)
    (hends : ∀ r ∈ w.tables.relations.values, ∀ stage ∈ r.input,
      (∃ record ∈ w.ledger, record.id = stage.source) ∧
        ∃ record ∈ w.ledger, record.id = stage.target)
    (supply : Nat → Uuid) (calls : List (Instant × Nat)) :
    ∃ queue, w.tables.Queue queue ∧
      w.Drains queue calls (w.claimEach supply calls).1 (w.claimEach supply calls).2 := by
  obtain ⟨queue, hq, -⟩ := Tables.exists_queue hw.sound.1
  exact ⟨queue, hq, World.drains supply hw.sound.1 hq (hw.claimable hends hq)⟩

private abbrev queueTenant : TenantBpnl := ⟨"T18", by cbv, by decide⟩
private abbrev queueName : ExternalId := ⟨"R22", by cbv, by decide⟩
private abbrev queueName' : ExternalId := ⟨"R23", by cbv, by decide⟩
private abbrev queueName'' : ExternalId := ⟨"R24", by cbv, by decide⟩
private abbrev queuePartner : ExternalId := ⟨"P25", by cbv, by decide⟩
private abbrev queuePartner' : ExternalId := ⟨"P26", by cbv, by decide⟩

/-- Three relations wait since one moment; identifiers are given out in falling order. -/
def crowd : List Choice := List.flatten
  [[.insert (.fresh ⟨.ofNat 1⟩ queueTenant queuePartner .epoch),
      .insert (.fresh ⟨.ofNat 2⟩ queueTenant queuePartner' .epoch)],
    .arrive (.write (.batch (.create queueTenant)
      [⟨some queueName, .isManagedBy, queuePartner, queuePartner'⟩,
        ⟨some queueName', .isOwnedBy, queuePartner', queuePartner⟩,
        ⟨some queueName'', .isManagedBy, queuePartner, queuePartner'⟩])) ::
      (Choice.turns 0 5 300 ++ Choice.turns 0 6 200 ++ Choice.turns 0 16 100)]

/-- The lowest identifier is claimed first, and a claim of nothing passes nobody over. -/
theorem crowd_drained : ∃ s queue, (System.start .epoch).play crowd = some s ∧
    (s.world.claimEach .ofNat [(.epoch, 1), (.epoch, 0), (.epoch, 5)]).1.map (fun outcome =>
      outcome.toOption.map fun told => told.map (·.externalId)) =
      [some [queueName''], some [], some [queueName', queueName]] ∧
    s.world.tables.Queue queue ∧
    s.world.Drains queue [(.epoch, 1), (.epoch, 0), (.epoch, 5)]
      (s.world.claimEach .ofNat [(.epoch, 1), (.epoch, 0), (.epoch, 5)]).1
      (s.world.claimEach .ofNat [(.epoch, 1), (.epoch, 0), (.epoch, 5)]).2 := by
  have hrun : ((System.start .epoch).play crowd).map (fun s =>
      (decide (∀ r ∈ s.world.tables.relations.values,
        (∀ stage ∈ r.input, (∃ record ∈ s.world.ledger, record.id = stage.source) ∧
          ∃ record ∈ s.world.ledger, record.id = stage.target) ∧
        r.createdAt = .epoch ∧
        r.sharingState.map (fun state => (state.stateType, state.updatedAt)) =
          some (.initial, .epoch)),
      s.world.tables.relations.values.reverse.map fun r => (r.externalId, r.id.uuid.val))) =
      some (true, [(queueName'', 105), (queueName', 205), (queueName, 304)]) := by cbv
  obtain ⟨s, hplay, hs⟩ := Option.map_eq_some_iff.1 hrun
  obtain ⟨hall, hnames⟩ := Prod.mk.inj hs
  have hall := of_decide_eq_true hall
  have hreach : s.world.Reachable := ⟨s, ⟨.epoch, crowd, hplay⟩, rfl⟩
  have hends := fun r hr => (hall r hr).1
  -- All are as old, so they wait in the order of their identifiers.
  have hqueue : s.world.tables.Queue s.world.tables.relations.values.reverse :=
    Tables.queue_of_ids hreach.sound.1 (List.reverse_perm _) (fun r hr => (hall r hr).2)
      (List.pairwise_map (f := fun r : Relation => (r.externalId, r.id.uuid.val))
        (R := fun x y => x.2 < y.2) |>.1 (hnames ▸ by decide))
  obtain ⟨told, houtcomes, htold, -⟩ := World.told_claimEach .ofNat
    [(.epoch, 1), (.epoch, 0), (.epoch, 5)] hreach.sound.1 hqueue (hreach.claimable hends hqueue)
  obtain ⟨queue, hqueue', hdrains⟩ := claims_drain_queue hreach hends .ofNat
    [(.epoch, 1), (.epoch, 0), (.epoch, 5)]
  refine ⟨s, queue, hplay, ?_, hqueue', hdrains⟩
  have hparts : told.map (List.map (·.externalId)) =
      [[queueName''], [], [queueName', queueName]] := by
    have hwaiting : s.world.tables.relations.values.reverse.map (·.externalId) =
        [queueName'', queueName', queueName] := by
      have hfirst := congrArg (List.map Prod.fst) hnames
      rwa [List.map_map] at hfirst
    rw [World.map_externalId_of_tasked htold, World.map_splitLengths, hwaiting]
    rfl
  have hsome := congrArg (List.map some) hparts
  rw [houtcomes, List.map_map]
  rwa [List.map_map] at hsome

end PartnerRelations
