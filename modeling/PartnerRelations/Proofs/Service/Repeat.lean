/-
# `Proofs.Service.Repeat` — an input that is submitted again

Upserts and updates bring a relation to what its entry says, wherever it starts from.  Once
it is there, the same entry asks for nothing.

    a command       what was created or updated is left as it is by an update to the same
                    (`Effect.again_of_create`, `Effect.again_of_update`)
    an entry        decides for the relation that the first decision led to, with no event
                    (`decision_again`)
    a batch         its unit of work stays clean, so there is nothing to commit and nothing
                    to publish (`repeated_inputs_rest`)

The ends of an entry are names of partners, and the stage has the records that they were
resolved to.  It is the ledger that makes both agree, so it has to be the one of the first
call; the clock, the supply of identifiers and the bus need not be.
-/
import PartnerRelations.Proofs.Relation.Effect
import PartnerRelations.Proofs.Service.Apart
import PartnerRelations.Proofs.Concurrent.Replay

namespace PartnerRelations

/-! ## Commands -/

namespace Relation

variable {r r' : Relation} {command : RelationCommand} {relationType : RelationType}
  {source target : ResolvedPartner} {at_ later : Instant}

/-- A command that leaves the relation as it is leads to no event. -/
theorem Effect.handle_eq_nil (h : r.Effect command r) : r.handle command = .ok [] := by
  obtain ⟨es, hes⟩ := h.accepted
  have hversion := version_applyAll r es
  rw [← (effect_iff hes r).1 h] at hversion
  obtain rfl : es = [] := List.length_eq_zero_iff.1 (by omega)
  exact hes

theorem not_failed_of_initial {since : Instant} {message : Option String}
    (h : r.sharingState = some ⟨.initial, relationType, message, since⟩) : ¬r.Failed := by
  rintro ⟨state, hstate, hfailed⟩
  cases h.symm.trans hstate
  cases hfailed

theorem Effect.again_of_create (hlive : r.deleted = false)
    (h : r.Effect (.createInput relationType source target at_) r') :
    r'.Effect (.updateInput relationType source target later) r' := by
  cases h with
  | created _ hends =>
    exact .unchanged (isCreated_iff.2 ⟨rfl, hlive⟩) hends rfl rfl (not_failed_of_initial rfl)

theorem Effect.again_of_update (h : r.Effect (.updateInput relationType source target at_) r') :
    r'.Effect (.updateInput relationType source target later) r' := by
  cases h with
  | unchanged hr hends hstage hsame hquiet => exact .unchanged hr hends hstage hsame hquiet
  | retried hr hends hstage hsame =>
    exact .unchanged hr hends hstage hsame (not_failed_of_initial rfl)
  | changed hr hends hstage => exact .unchanged hr hends rfl rfl (not_failed_of_initial rfl)

end Relation

/-! ## Entries -/

namespace Decision

variable {l : Ledger} {at_ later : Instant} {r : Relation} {request : InputRelationUpsert}
  {d : Decision}

/-- The decision that leaves what another one led to. -/
def settled (d : Decision) : Decision := ⟨d.result, [], 0⟩

theorem give_of_handle {externalId : ExternalId} {command : RelationCommand}
    {es : List RelationEvent} {n : Nat} (h : r.handle command = .ok es) :
    give externalId r command n = .ok ⟨r, es, n⟩ := by
  rw [give, h]

theorem tenant_result (d : Decision) : d.result.tenant = d.relation.tenant :=
  congrArg RelationKey.tenant (Relation.key_applyAll ..)

/-- An update to what a relation came to by the same two ends asks for nothing. -/
theorem update_settled {ends : ResolvedPartner × ResolvedPartner}
    (hends : l.ends d.relation.tenant request.sourceExternalId request.targetExternalId = .ok ends)
    (h : d.result.Effect (.updateInput request.relationType ends.1 ends.2 later) d.result) :
    update l later d.result request = .ok d.settled :=
  Relation.bind_eq_ok.2 ⟨ends, d.tenant_result ▸ hends, give_of_handle h.handle_eq_nil⟩

theorem create_again {id : Uuid} {n : Nat} {tenant : TenantBpnl}
    (h : create l at_ id n tenant request = .ok d) :
    update l later d.result request = .ok d.settled := by
  obtain ⟨ends, hends, h⟩ := Relation.bind_eq_ok.1 h
  obtain ⟨hr, -, hc⟩ := give_eq_ok h
  rw [← hr] at hc
  have hlive : d.relation.deleted = false := by rw [hr]; rfl
  have htenant : d.relation.tenant = tenant := by rw [hr]; rfl
  exact update_settled (htenant ▸ hends) ((Relation.effect_of_handle hc).again_of_create hlive)

theorem update_again (h : update l at_ r request = .ok d) :
    update l later d.result request = .ok d.settled := by
  obtain ⟨ends, hends, h⟩ := Relation.bind_eq_ok.1 h
  obtain ⟨hr, -, hc⟩ := give_eq_ok h
  rw [← hr] at hc hends
  exact update_settled hends (Relation.effect_of_handle hc).again_of_update

/-- Settled decisions take no identifiers and have nothing to tell. -/
theorem envelopAll_settled {supply : Nat → Uuid} {drawn : Nat} {ds : List Decision} :
    envelopAll supply drawn (ds.map settled) = [] := by
  induction ds generalizing drawn with
  | nil => rfl
  | cons d ds ih => exact ih

theorem result_settled (d : Decision) : d.settled.result = d.result := rfl

end Decision

namespace BatchKind

variable {supply supply' : Nat → Uuid} {l : Ledger} {drawn drawn' : Nat} {at_ later : Instant}
  {seen seen' : RelationKey → Option Relation} {kind : BatchKind} {request : kind.Request}
  {requests : List kind.Request} {d : Decision} {ds : List Decision}

/-- The calls that bring relations to what their entries say, wherever they start from. -/
def settles : BatchKind → Bool
  | .create _ => false
  | .upsert _ _ => true
  | .update _ => true
  | .output => false
  | .report => false

theorem named_eq (kind : BatchKind) (request : kind.Request) :
    kind.named request = (kind.key? request).map (·.externalId) := by
  cases kind with
  | create tenant =>
    obtain ⟨_ | externalId, relationType, source, target⟩ := request <;> rfl
  | _ => rfl

/-- The relation that an entry led to is left as it is by the same entry. -/
theorem decision_again (hkind : kind.settles = true)
    (h : kind.decision supply l drawn at_ seen request = .ok d)
    (hseen : ∀ key ∈ kind.key? request, seen' key = some d.result) :
    kind.decision supply' l drawn' later seen' request = .ok d.settled := by
  cases kind with
  | upsert settings tenant =>
    dsimp only [decision] at h ⊢
    rw [hseen _ rfl]
    split at h
    · exact Decision.update_again h
    · exact Decision.create_again h
  | update tenant =>
    obtain ⟨existing, -, h⟩ := Relation.bind_eq_ok.1 h
    exact Relation.bind_eq_ok.2 ⟨d.result, Decision.existing_eq_ok.2 (hseen _ rfl),
      Decision.update_again h⟩
  | _ => cases hkind

/-- So are all relations that a batch led to, by the same batch. -/
theorem decideEach_again (hkind : kind.settles = true)
    (hkey : ∀ key r, seen key = some r → r.key = key)
    (hkeyed : ∀ request ∈ requests, (kind.key? request).isSome = true)
    (h : decideEach supply l at_ seen kind drawn requests = .ok ds)
    (hseen : ∀ d ∈ ds, seen' d.relation.key = some d.result) :
    decideEach supply' l later seen' kind drawn' requests = .ok (ds.map Decision.settled) := by
  induction requests generalizing drawn drawn' ds with
  | nil =>
    cases h
    rfl
  | cons request rest ih =>
    obtain ⟨hkeyedFirst, hkeyedRest⟩ := List.forall_mem_cons.1 hkeyed
    obtain ⟨d, ds, hd, hds, rfl⟩ := decideEach_cons_eq_ok.1 h
    obtain ⟨hseenFirst, hseenRest⟩ := List.forall_mem_cons.1 hseen
    refine decideEach_cons_eq_ok.2 ⟨d.settled, ds.map Decision.settled, ?_,
      ih hkeyedRest hds hseenRest, rfl⟩
    refine decision_again hkind hd fun key hlooked => ?_
    rw [key?_of_decision hkey hkeyedFirst hd] at hlooked
    rwa [← Option.some.inj hlooked]

end BatchKind

/-! ## Calls that only inquire -/

open World (exchanges)

/-- With nobody else at work, nothing is asked for but inquiries. -/
def Program.Inquires (supply : Nat → Uuid) {α : Type} (p : Dialogue α) (w : World) : Prop :=
  ∀ t ∈ exchanges supply p w, t.request.isInquiry = true

namespace Program

variable {supply : Nat → Uuid} {w w' : World} {α β : Type}

theorem inquires_done (a : α) : Inquires supply (.done a : Dialogue α) w :=
  fun _ ht => nomatch ht

theorem Inquires.bind {p : Dialogue α} {f : α → Dialogue β} {a : α} (hp : p.Inquires supply w)
    (hcomes : p.ComesTo supply w a w') (hf : (f a).Inquires supply w') :
    (p.bind f).Inquires supply w := by
  intro t ht
  rw [Inquires, ← (@World.run_quiet supply _ (f a) _ _ hcomes.world).2.2] at hf
  rw [World.exchanges_bind, hcomes.value] at ht
  exact (List.mem_append.1 ht).elim (hp t) (hf t)

end Program

/-- A unit of work with nothing to commit and nothing to publish is left alone. -/
theorem Call.finish_eq {u : UnitOfWork} (hchanges : u.changes = []) (hevents : u.events = []) :
    (finish u).run = .done (.ok ()) := by
  simp only [finish, UnitOfWork.commit, hchanges, hevents]
  rfl

namespace BatchKind

variable {supply : Nat → Uuid} {w w' : World} {kind : BatchKind} {requests : List kind.Request}
  {relations : List Relation} {u : UnitOfWork}

theorem inquires_batch
    (h : (Call.handleEach kind.entry w.clock .empty requests).ComesTo supply w
      (.ok (relations, u)) w')
    (hchanges : u.changes = []) (hevents : u.events = []) :
    (Call.batch kind.entry requests).run.Inquires supply w := by
  have hnow : Call.now.run.Inquires supply w := List.forall_mem_singleton.2 rfl
  have hhandled : (Call.handleEach kind.entry w.clock .empty requests).run.Inquires supply w :=
    (conversation_handling (c := .batch kind requests) (World.conversation_exchanges _ w)).2
  have hfinished : (Call.finish u >>= fun _ => pure relations).run.Inquires supply w' := by
    show Program.Inquires supply (Program.bind (Call.finish u).run _) w'
    rw [Call.finish_eq hchanges hevents]
    exact Program.inquires_done _
  exact .bind hnow Call.comesTo_now (.bind hhandled h hfinished)

/-- A call that succeeds asks for what its batch asks for, and reports. -/
theorem inquires_call (hcomes : (Call.batch kind.entry requests).ComesTo supply w (.ok relations) w')
    (h : (Call.batch kind.entry requests).run.Inquires supply w) :
    (kind.call requests).run.Inquires supply w := by
  have hreported : ∀ {c : Call (List Relation)}, c.ComesTo supply w (.ok relations) w' →
      c.run.Inquires supply w → c.reported.run.Inquires supply w := fun hc h =>
    .bind h hc (Program.inquires_done _)
  cases kind with
  | upsert settings tenant =>
    refine hreported (hcomes.upsertAttempts (fun name hname => nomatch hname) _ _) ?_
    cases settings.upsertRetries.toNat with
    | zero => exact h
    | succ n => exact .bind h hcomes (Program.inquires_done _)
  | _ => exact hreported hcomes h

end BatchKind

/-- A call returns the relations and leaves everything as it is: it only inquires. -/
structure BatchKind.Rests (kind : BatchKind) (supply : Nat → Uuid) (requests : List kind.Request)
    (relations : List Relation) (w : World) : Prop where
  value : (World.run supply (kind.call requests).run w).1 = .ok relations
  tables : (World.run supply (kind.call requests).run w).2.tables = w.tables
  ledger : (World.run supply (kind.call requests).run w).2.ledger = w.ledger
  published : (World.run supply (kind.call requests).run w).2.published = w.published
  /-- In particular, no commit is asked for. -/
  inquires : ∀ t ∈ exchanges supply (kind.call requests).run w, t.request.isInquiry = true

namespace BatchKind

variable {supply : Nat → Uuid} {w : World} {kind : BatchKind} {requests : List kind.Request}
  {ds : List Decision}

/-- Entries that name their relations differently have names of their own to look up. -/
theorem apart_of_named (hkind : kind.settles = true) (h : (requests.map kind.named).Nodup) :
    kind.Apart requests := by
  refine ⟨fun request _ => ?_, ?_⟩
  · cases kind with
    | upsert | update => rfl
    | _ => cases hkind
  · have hnamed : kind.named = Option.map (·.externalId) ∘ kind.key? := funext kind.named_eq
    rw [hnamed, ← List.map_map] at h
    exact h.of_map

/-- Where all entries are settled, the call does nothing. -/
theorem rests_of_settled (hs : w.tables.Sound) (hl : w.tables.Live) (hapart : kind.Apart requests)
    (hamends : ∀ request ∈ requests, kind.Amends w.tables.find? request)
    (h : decideEach supply w.ledger w.clock w.tables.find? kind w.drawn requests =
      .ok (ds.map Decision.settled)) :
    kind.Rests supply requests (ds.map Decision.result) w := by
  have hrun : kind.CarriesOut supply w.clock w .empty requests _ :=
    carriesOut_empty hs hl hapart (.inl hamends)
  rw [h] at hrun
  obtain ⟨u, hrun, hafter⟩ := hrun
  rw [List.map_map, List.map_congr_left fun d _ => d.result_settled] at hrun
  have hchanges : u.changes = [] := by
    refine (hafter.clean UnitOfWork.clean_empty fun d hd => ?_).changes_eq_nil
    obtain ⟨d', -, rfl⟩ := List.mem_map.1 hd
    rfl
  have hevents : u.events = [] := hafter.events.trans Decision.envelopAll_settled
  have hcommit : w.tables.commit u.changes = .ok w.tables := by
    rw [hchanges]
    rfl
  have hbatch := Call.comesTo_batch_ok hrun hcommit
  have hcall := call_comesTo hbatch fun e he => nomatch he
  obtain ⟨htables, hledger, hpublished⟩ := hcall.leaves
  exact
    { value := hcall.value, tables := htables, ledger := hledger
      published := by
        rw [hpublished, hevents]
        exact List.append_nil _
      inquires := inquires_call hbatch (inquires_batch hrun hchanges hevents) }

end BatchKind

/-- A batch of upserts or updates of different names that has succeeded comes to the same
when it is called again, at whatever moment, with the store and the ledger as they were
left: it returns the same relations and does nothing. -/
theorem repeated_inputs_rest {w : World} (hw : w.Reachable) (l : Ledger) {supply : Nat → Uuid}
    {kind : BatchKind} (hkind : kind.settles = true) {requests : List kind.Request}
    (hnames : (requests.map kind.named).Nodup)
    (hfresh : kind.creates = true → Fresh supply (requests.filterMap kind.named) w.drawn
      (World.run supply (kind.call requests).run { w with ledger := l }).2.drawn w.tables.find?)
    {relations : List Relation}
    (hok : (World.run supply (kind.call requests).run { w with ledger := l }).1 = .ok relations)
    {w' : World}
    (htables : w'.tables =
      (World.run supply (kind.call requests).run { w with ledger := l }).2.tables)
    (hledger : w'.ledger = l) (supply' : Nat → Uuid) :
    kind.Rests supply' requests relations w' := by
  obtain ⟨hs, hl⟩ := hw.sound
  have hkey : ∀ key r, w.tables.find? key = some r → r.key = key := fun key r hr =>
    (hs.find?_eq_some.1 hr).2
  have hapart := BatchKind.apart_of_named hkind hnames
  have hsupply : (∀ request ∈ requests, kind.Amends w.tables.find? request) ∨
      Fresh supply (requests.filterMap kind.named) w.drawn
        (World.run supply (kind.call requests).run { w with ledger := l }).2.drawn
        w.tables.find? := by
    cases hcreates : kind.creates with
    | false => exact .inl fun _ _ => .inl hcreates
    | true => exact .inr (hfresh hcreates)
  cases hds : kind.decideEach supply l w.clock w.tables.find? w.drawn requests with
  | error e =>
    rw [@BatchKind.apart_error _ _ _ { w with ledger := l } hs hl hapart hsupply _ hds] at hok
    cases hok
  | ok ds =>
    have hfirst := @BatchKind.apart_ok _ _ _ { w with ledger := l } hs hl hapart hsupply _ hds
    obtain rfl : ds.map Decision.result = relations := Except.ok.inj (hfirst.value.symm.trans hok)
    have hdistinct := hapart.nodup_keys hkey hds
    have hshown : ∀ d ∈ ds, w'.tables.find? d.relation.key = some d.result := fun d hd => by
      rw [htables, hfirst.shown, Decision.overlayAll_of_mem hdistinct hd]
    refine BatchKind.rests_of_settled (htables ▸ hfirst.sound) (htables ▸ hfirst.live) hapart ?_ ?_
    · intro request hrequest
      have hlooked := List.mem_map_of_mem (f := kind.key?) hrequest
      rw [BatchKind.keys_decideEach hkey hapart.keyed hds] at hlooked
      obtain ⟨d, hd, hlooked⟩ := List.mem_map.1 hlooked
      exact .inr ⟨_, hlooked.symm, Option.isSome_iff_exists.2 ⟨_, hshown d hd⟩⟩
    · rw [hledger]
      exact BatchKind.decideEach_again hkind hkey hapart.keyed hds hshown

private abbrev repeatTenant : TenantBpnl := ⟨"T19", by cbv, by decide⟩
private abbrev repeatName : ExternalId := ⟨"R25", by cbv, by decide⟩
private abbrev repeatName' : ExternalId := ⟨"R26", by cbv, by decide⟩
private abbrev repeatName'' : ExternalId := ⟨"R27", by cbv, by decide⟩
private abbrev repeatNew : ExternalId := ⟨"R28", by cbv, by decide⟩
private abbrev repeatPartner : ExternalId := ⟨"P27", by cbv, by decide⟩
private abbrev repeatPartner' : ExternalId := ⟨"P28", by cbv, by decide⟩

/-- Three relations are created, and the second one cannot be shared. -/
def mishap : List Choice := List.flatten
  [[.insert (.fresh ⟨.ofNat 1⟩ repeatTenant repeatPartner .epoch),
      .insert (.fresh ⟨.ofNat 2⟩ repeatTenant repeatPartner' .epoch)],
    .arrive (.write (.batch (.create repeatTenant)
      [⟨some repeatName, .isManagedBy, repeatPartner, repeatPartner'⟩,
        ⟨some repeatName', .isManagedBy, repeatPartner, repeatPartner'⟩,
        ⟨some repeatName'', .isManagedBy, repeatPartner, repeatPartner'⟩])) ::
      Choice.turns 0 27 100,
    .arrive (.write (.batch .report [⟨repeatTenant, repeatName', "down"⟩])) ::
      Choice.turns 1 7 200]

/-- The first relation is to change, the second to be retried, the third to stay, and a
fourth to be created. -/
def mixture : List InputRelationUpsert :=
  [⟨repeatName, .isOwnedBy, repeatPartner, repeatPartner'⟩,
    ⟨repeatName', .isManagedBy, repeatPartner, repeatPartner'⟩,
    ⟨repeatName'', .isManagedBy, repeatPartner, repeatPartner'⟩,
    ⟨repeatNew, .isManagedBy, repeatPartner, repeatPartner'⟩]

/-- Called again on the next day, the batch comes to the same. -/
theorem mixture_rests : ∃ s relations, (System.start .epoch).play mishap = some s ∧
    relations.map (·.version) = [3, 3, 1, 1] ∧
    (BatchKind.upsert .standard repeatTenant).Rests .ofNat mixture relations
      { (World.run (fun n => .ofNat (400 + n))
          ((BatchKind.upsert .standard repeatTenant).call mixture).run s.world).2 with
        clock := ⟨1, 0, 0, by decide, .inl (by decide)⟩ } := by
  have hrun : ((System.start .epoch).play mishap).map (fun s =>
      (decide (∀ r ∈ s.world.tables.relations.values, ∀ i < 12,
          r.id ≠ ⟨.ofNat (400 + i)⟩ ∧ r.externalId ≠ .ofUuid .externalId (.ofNat (400 + i))),
        (World.run (fun n => .ofNat (400 + n))
          ((BatchKind.upsert .standard repeatTenant).call mixture).run s.world).2.drawn,
        (World.run (fun n => .ofNat (400 + n))
          ((BatchKind.upsert .standard repeatTenant).call mixture).run s.world).1.toOption.map
            fun relations => relations.map (·.version))) =
      some (true, 12, some [3, 3, 1, 1]) := by decide +kernel
  obtain ⟨s, hplay, hs⟩ := Option.map_eq_some_iff.1 hrun
  simp only [Prod.mk.injEq, decide_eq_true_eq] at hs
  obtain ⟨hunseen, hupto, hreturned⟩ := hs
  obtain ⟨relations, hok, hversions⟩ := Option.map_eq_some_iff.1 hreturned
  have hw : s.world.Reachable := ⟨s, ⟨.epoch, mishap, hplay⟩, rfl⟩
  have hunnamed : ∀ i < 12, Key.ofUuid .externalId (.ofNat (400 + i)) ∉
      [repeatName, repeatName', repeatName'', repeatNew] := by decide +kernel
  have hfresh : Fresh (fun n => .ofNat (400 + n)) [repeatName, repeatName', repeatName'', repeatNew]
      s.world.drawn 12 s.world.tables.find? := by
    refine ⟨?_, ?_, fun i _ hi => hunnamed i hi⟩
    · intro i j _ hi _ hj h
      have := congrArg Uuid.val h
      simp only [Uuid.ofNat, uuidCount] at this
      omega
    · intro i _ hi key r hr
      obtain ⟨hget, rfl⟩ := hw.sound.1.find?_eq_some.1 hr
      exact hunseen r (Table.mem_values_of_get? hget) i hi
  exact ⟨s, relations, hplay, hversions,
    @repeated_inputs_rest _ hw s.world.ledger _ (.upsert .standard repeatTenant) rfl mixture
      (by decide) (fun _ => hupto ▸ hfresh) relations (Relation.toOption_eq_some.1 hok)
      { (World.run (fun n => .ofNat (400 + n))
          ((BatchKind.upsert .standard repeatTenant).call mixture).run s.world).2 with
        clock := ⟨1, 0, 0, by decide, .inl (by decide)⟩ } rfl (World.ledger_run _) .ofNat⟩

end PartnerRelations
