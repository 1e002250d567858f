/-
# `Proofs.Service.OneByOne` — a batch is its entries called one by one

A batch call handles its entries in one unit of work and commits once; `inTurn` is
one call for each entry, each with a unit and a commit of its own.  With nobody
else at work and identifiers that are fresh, both come to the same
(`batch_one_by_one`): the same relations or the same failure, the same store, the
same envelopes published in the same order.  No commit of the batch is refused, so
it fails only where a single call would.

The two runs are kept side by side.  While the batch is handled, its unit shows
under each name what the calls one by one have stored by then, and has the events
that they have published (`Alike`).  One entry keeps this (`Alike.entry`), because
both decide by what they see; a list of entries keeps it by induction (`Alike.run`).
-/
import PartnerRelations.Proofs.Concurrent.Replay
import PartnerRelations.Proofs.Service.Single

namespace PartnerRelations

/-- One call for each entry, one after the other. -/
def BatchKind.inTurn (kind : BatchKind) : List kind.Request → Call (List Relation)
  | [] => return []
  | request :: rest => do
    let relations ← kind.call [request]
    let others ← kind.inTurn rest
    return relations ++ others

/-! ## Both runs side by side -/

/-- A batch under way in `w` with the unit `u`, and calls one by one in `w'`. -/
structure Alike (supply : Nat → Uuid) (named : List ExternalId) (at_ : Instant) (upto : Nat)
    (w : World) (u : UnitOfWork) (w' : World) : Prop where
  clock : w.clock = at_
  clock' : w'.clock = at_
  ledger : w'.ledger = w.ledger
  drawn : w'.drawn = w.drawn
  sound : w.tables.Sound
  live : w.tables.Live
  sound' : w'.tables.Sound
  upright : u.Upright w.tables
  view : w'.tables.find? = u.seen w.tables
  fresh : Fresh supply named w.drawn upto (u.seen w.tables)
  published : w'.published = w.published ++ u.events

namespace Alike

variable {supply : Nat → Uuid} {named : List ExternalId} {at_ : Instant} {upto : Nat}
  {w w' : World} {u : UnitOfWork} {kind : BatchKind}

theorem live' (h : Alike supply named at_ upto w u w') : w'.tables.Live := fun hr =>
  h.upright.present_of_seen h.live (h.view ▸ hr)

/-- Both decide alike. -/
theorem decision_eq (h : Alike supply named at_ upto w u w') (request : kind.Request) :
    kind.decision supply w'.ledger w'.drawn w'.clock w'.tables.find? request =
      kind.decision supply w.ledger w.drawn at_ (u.seen w.tables) request := by
  rw [h.ledger, h.drawn, h.clock', h.view]

/-- One entry: both fail alike, or both go on alike. -/
theorem entry (h : Alike supply named at_ upto w u w') {request : kind.Request}
    (hnamed : ∀ name ∈ kind.named request, name ∈ named) :
    (∃ e w₁ w₁', (kind.entry at_ u request).ComesTo supply w (.error e) w₁ ∧
      (kind.call [request]).ComesTo supply w' (.error e) w₁' ∧
      (e.isTaken = true → kind.retries = 0)) ∨
    ∃ r u₁ w₁, (kind.entry at_ u request).ComesTo supply w (.ok (r, u₁)) w₁ ∧
      (w₁.drawn ≤ upto → ∃ w₁', (kind.call [request]).ComesTo supply w' (.ok [r]) w₁' ∧
        Alike supply named at_ upto w₁ u₁ w₁') := by
  have hentry : (kind.entry at_ u request).Decides supply w _
      (kind.decision supply w.ledger w.drawn at_ (u.seen w.tables) request) :=
    entry_decides kind request
  have hdecision := h.decision_eq request
  cases hd : kind.decision supply w.ledger w.drawn at_ (u.seen w.tables) request with
  | error e =>
    rw [hd] at hentry hdecision
    obtain ⟨w₁, hentry⟩ := hentry
    obtain ⟨w₁', hcall⟩ := BatchKind.single_error hdecision
    exact .inl ⟨e, w₁, w₁', hentry, hcall, BatchKind.isTaken_of_decision hd⟩
  | ok d =>
    rw [hd] at hentry hdecision
    obtain ⟨hsubject, command, hc, hdelete⟩ := BatchKind.decision_eq_ok hd
    refine .inr ⟨_, _, _, hentry, ?_⟩
    intro hupto
    have hcount : w.drawn + d.drawn ≤ upto :=
      Nat.le_trans (Nat.add_le_add_left (Nat.le_add_right ..) _) hupto
    obtain ⟨t, hsound, hfind, hcall⟩ := BatchKind.single_ok h.sound' h.live'
      (by rw [h.view, h.drawn]; exact h.fresh) hdecision (by rwa [h.drawn])
    have hlive := h.upright.deleted_eq_false h.live hsubject
    have hview : ∀ key, UnitOfWork.seen (d.record supply w.drawn ((kind.key? request).elim u
        (u.reach w.tables))) w.tables key = d.overlay (u.seen w.tables) key :=
      UnitOfWork.seen_decided h.sound h.live hc hdelete hlive
    refine ⟨_, hcall, ?_⟩
    exact
      { clock := h.clock, clock' := h.clock', ledger := h.ledger
        drawn := congrArg (· + (d.drawn + d.events.length)) h.drawn
        sound := h.sound, live := h.live, sound' := hsound
        upright := h.upright.decided h.sound h.live h.fresh hcount hsubject hc hdelete
        view := funext fun key => by
          rw [hfind, h.view]
          exact (hview key).symm
        fresh := by
          rw [World.draw_tables, funext hview]
          refine h.fresh.decided hsubject (fun key r => UnitOfWork.key_of_seen h.sound)
            (fun key hkey => hnamed _ (BatchKind.mem_named_of_key? hkey)) ?_
          exact Nat.add_le_add_left (Nat.le_add_right ..) _
        published := by
          rw [UnitOfWork.events_decided, ← h.drawn]
          exact (congrArg (· ++ _) h.published).trans (List.append_assoc ..) }

/-- All entries: both fail alike, or both come to the end alike. -/
theorem run (h : Alike supply named at_ upto w u w') {requests : List kind.Request}
    (hnamed : ∀ name ∈ requests.filterMap kind.named, name ∈ named)
    (hupto : (World.run supply (Call.handleEach kind.entry at_ u requests).run w).2.drawn ≤ upto) :
    (∃ e w₁ w₁', (Call.handleEach kind.entry at_ u requests).ComesTo supply w (.error e) w₁ ∧
      (kind.inTurn requests).ComesTo supply w' (.error e) w₁' ∧
      (e.isTaken = true → kind.retries = 0)) ∨
    ∃ relations u₁ w₁ w₁',
      (Call.handleEach kind.entry at_ u requests).ComesTo supply w (.ok (relations, u₁)) w₁ ∧
      (kind.inTurn requests).ComesTo supply w' (.ok relations) w₁' ∧
      Alike supply named at_ upto w₁ u₁ w₁' := by
  induction requests generalizing w u w' with
  | nil => exact .inr ⟨[], u, w, w', Call.comesTo_pure _, Call.comesTo_pure _, h⟩
  | cons request rest ih =>
    have hfirst : ∀ name ∈ kind.named request, name ∈ named := by
      intro name hname
      exact hnamed name (List.mem_filterMap.2 ⟨request, List.mem_cons_self .., hname⟩)
    have hrest : ∀ name ∈ rest.filterMap kind.named, name ∈ named := by
      intro name hname
      obtain ⟨r, hr, hrn⟩ := List.mem_filterMap.1 hname
      exact hnamed name (List.mem_filterMap.2 ⟨r, List.mem_cons_of_mem _ hr, hrn⟩)
    rcases h.entry hfirst with ⟨e, w₁, w₁', hone, hcall, htaken⟩ | ⟨r, u₁, w₁, hone, hgo⟩
    · exact .inl ⟨e, w₁, w₁', hone.bind_error, hcall.bind_error, htaken⟩
    · rw [Call.handleEach, hone.drawn_bind] at hupto
      have hbound : (World.run supply (Call.handleEach kind.entry at_ u₁ rest).run w₁).2.drawn ≤ upto :=
        Nat.le_trans World.drawn_bind hupto
      obtain ⟨w₁', hcall, hnext⟩ := hgo (Nat.le_trans (World.drawn_run _) hbound)
      rcases ih hnext hrest hbound with
        ⟨e, w₂, w₂', hhandled, hturn, htaken⟩ | ⟨relations, u₂, w₂, w₂', hhandled, hturn, hend⟩
      · exact .inl ⟨e, w₂, w₂', hone.bind hhandled.bind_error, hcall.bind hturn.bind_error, htaken⟩
      · exact .inr ⟨r :: relations, u₂, w₂, w₂', hone.bind (hhandled.bind (Call.comesTo_pure _)),
          hcall.bind (hturn.bind (Call.comesTo_pure _)), hend⟩

end Alike

/-- A batch fails as the first of its entries fails that fails when they are called
one by one, and with no commit refused; else both return the same relations, leave
the same store, and publish the same envelopes in the same order. -/
theorem batch_one_by_one {w : World} (hw : w.Reachable) {supply : Nat → Uuid} {kind : BatchKind}
    {requests : List kind.Request}
    (hfresh : Fresh supply (requests.filterMap kind.named) w.drawn
      (World.run supply (kind.call requests).run w).2.drawn w.tables.find?) :
    let batch := World.run supply (kind.call requests).run w
    let single := World.run supply (kind.inTurn requests).run w
    batch.1 = single.1 ∧ refused (World.exchanges supply (kind.call requests).run w) = [] ∧
      (batch.1.isOk = true →
        (∀ id, batch.2.tables.relations.get? id = single.2.tables.relations.get? id) ∧
        (∀ key, batch.2.tables.keys.get? key = single.2.tables.keys.get? key) ∧
        batch.2.ledger = single.2.ledger ∧ batch.2.published = single.2.published) := by
  obtain ⟨hs, hl⟩ := hw.sound
  have halike : Alike supply (requests.filterMap kind.named) w.clock
      (World.run supply (kind.call requests).run w).2.drawn w .empty w :=
    { clock := rfl, clock' := rfl, ledger := rfl, drawn := rfl, sound := hs, live := hl, sound' := hs
      upright := UnitOfWork.upright_empty _, view := rfl, fresh := hfresh
      published := (List.append_nil _).symm }
  rcases halike.run (fun name hname => hname) BatchKind.drawn_handleEach_le with
    ⟨e, w₁, w₁', hhandled, hturn, htaken⟩ | ⟨relations, u, w₁, w₁', hhandled, hturn, hend⟩
  · have hcall := BatchKind.call_comesTo (Call.comesTo_batch_error hhandled)
      fun e' he' => by cases he'; exact htaken
    refine ⟨hcall.value.trans hturn.value.symm, hcall.accepted, ?_⟩
    intro hok
    rw [hcall.value] at hok
    cases hok
  · obtain ⟨t, hcommit, hsound, hfind⟩ := hend.upright.fits.commit_of_kept hend.sound hend.upright.kept
    have hcall := BatchKind.call_comesTo (Call.comesTo_batch_ok hhandled hcommit)
      fun e he => nomatch he
    refine ⟨hcall.value.trans hturn.value.symm, hcall.accepted, ?_⟩
    intro _
    have htables := congrArg World.tables hcall.world
    have htables' := congrArg World.tables hturn.world
    have hledger := congrArg World.ledger hcall.world
    have hledger' := congrArg World.ledger hturn.world
    have hpublished := congrArg World.published hcall.world
    have hpublished' := congrArg World.published hturn.world
    dsimp only [World.quiet] at *
    rw [htables, htables', hledger, hledger', hpublished, hpublished']
    obtain ⟨hget, hkeys⟩ := hsound.get?_eq_of_find?_eq hend.sound' fun key => by
      rw [hfind, hend.view]
    exact ⟨hget, hkeys, hend.ledger.symm, hend.published.symm⟩

private abbrev batchTenant : TenantBpnl := ⟨"T3", by cbv, by decide⟩
private abbrev batchName : ExternalId := ⟨"R4", by cbv, by decide⟩
private abbrev batchPartner : ExternalId := ⟨"P5", by cbv, by decide⟩
private abbrev batchPartner' : ExternalId := ⟨"P6", by cbv, by decide⟩

/-- The ledger knows two partners, and nothing else has happened. -/
def stocked : World :=
  { World.start .epoch with
    ledger := [.fresh ⟨.ofNat 1⟩ batchTenant batchPartner .epoch,
      .fresh ⟨.ofNat 2⟩ batchTenant batchPartner' .epoch] }

/-- One name is upserted three times: it is created, changed, and given again what it
has. -/
def thrice : List InputRelationUpsert :=
  [⟨batchName, .isManagedBy, batchPartner, batchPartner'⟩,
    ⟨batchName, .isOwnedBy, batchPartner, batchPartner'⟩,
    ⟨batchName, .isOwnedBy, batchPartner, batchPartner'⟩]

theorem thrice_one_by_one :
    let kind : BatchKind := .upsert .standard batchTenant
    let batch := World.run .ofNat (kind.call thrice).run stocked
    let single := World.run .ofNat (kind.inTurn thrice).run stocked
    stocked.Reachable ∧ batch.1.isOk = true ∧ batch.2.published.length = 3 ∧ batch.1 = single.1 ∧
      refused (World.exchanges .ofNat (kind.call thrice).run stocked) = [] ∧
      batch.2.published = single.2.published := by
  intro kind batch single
  have hw : stocked.Reachable := ⟨⟨stocked, [], []⟩, ⟨.epoch,
    [.insert (.fresh ⟨.ofNat 1⟩ batchTenant batchPartner .epoch),
      .insert (.fresh ⟨.ofNat 2⟩ batchTenant batchPartner' .epoch)], rfl⟩, rfl⟩
  have hdrawn : (World.run .ofNat ((BatchKind.upsert .standard batchTenant).call thrice).run
    stocked).2.drawn = 4 := by decide +kernel
  have hok : (World.run .ofNat ((BatchKind.upsert .standard batchTenant).call thrice).run
    stocked).1.isOk = true := by decide +kernel
  have hlength : (World.run .ofNat ((BatchKind.upsert .standard batchTenant).call thrice).run
    stocked).2.published.length = 3 := by decide +kernel
  have hunnamed : ∀ i < 4, Key.ofUuid .externalId (.ofNat i) ∉ [batchName, batchName, batchName] := by
    decide +kernel
  have hfresh : Fresh .ofNat [batchName, batchName, batchName] 0 4 stocked.tables.find? := by
    refine ⟨?_, ?_, fun i _ hi => hunnamed i hi⟩
    · intro i j _ hi _ hj h
      have := congrArg Uuid.val h
      simp only [Uuid.ofNat, uuidCount] at this
      omega
    · intro i _ _ key r hr
      cases hr
  obtain ⟨hout, hrefused, hsame⟩ := @batch_one_by_one _ hw _ kind thrice (hdrawn ▸ hfresh)
  exact ⟨hw, hok, hlength, hout, hrefused, (hsame hok).2.2.2⟩

end PartnerRelations
