/-
# `Proofs.Service.Single` — a call of one entry

What an entry decides (`BatchKind.decision`) says which relation is changed, and how.
Here it is followed through the call: with nobody else at work and identifiers that
are `Fresh`, a call of one entry fails as decided (`single_error`) or makes the one
change (`single_ok`):

    the store     shows the relation after the events under its name, and is as it
                  was elsewhere (`Decision.overlay`)
    the bus       has the events in envelopes
    the supply    has given out the identifiers of the decision and of the envelopes

The unit of work of the call stays upright, so its commit is accepted; the lemmas
about units are stated for any unit, since a longer batch needs them too.
-/
import PartnerRelations.Proofs.Service.Decision
import PartnerRelations.Proofs.UnitOfWork.Upright
import PartnerRelations.Proofs.Uuid

namespace PartnerRelations

/-! ## Fresh identifiers -/

/-- The identifiers of the supply at the positions from `drawn` to `upto` are new:
they are distinct, nothing that is seen has one of them or a name made of one, and
no such name is among the given ones. -/
structure Fresh (supply : Nat → Uuid) (named : List ExternalId) (drawn upto : Nat)
    (seen : RelationKey → Option Relation) : Prop where
  distinct : ∀ i j, drawn ≤ i → i < upto → drawn ≤ j → j < upto → supply i = supply j → i = j
  unseen : ∀ i, drawn ≤ i → i < upto → ∀ key r, seen key = some r →
    r.id ≠ ⟨supply i⟩ ∧ key.externalId ≠ .ofUuid .externalId (supply i)
  unnamed : ∀ i, drawn ≤ i → i < upto → Key.ofUuid .externalId (supply i) ∉ named

/-- Where no identifier is drawn, none has to be new. -/
theorem Fresh.none (supply : Nat → Uuid) (drawn : Nat) (seen : RelationKey → Option Relation) :
    Fresh supply [] drawn drawn seen := by
  constructor <;> intros <;> omega

/-- The relation that a decision is about, afterwards and under its name. -/
def Decision.overlay (d : Decision) (seen : RelationKey → Option Relation) (key : RelationKey) :
    Option Relation :=
  if key = d.relation.key then some (d.relation.applyAll d.events) else seen key

open Decision (Subject)

/-- After a decision, the identifiers that are left are fresh. -/
theorem Fresh.decided {supply : Nat → Uuid} {named : List ExternalId} {drawn upto n : Nat}
    {seen : RelationKey → Option Relation} {key? : Option RelationKey} {d : Decision}
    (h : Fresh supply named drawn upto seen)
    (hsubject : Subject supply drawn seen key? d.relation d.drawn)
    (hkey : ∀ key r, seen key = some r → r.key = key)
    (hnamed : ∀ key ∈ key?, key.externalId ∈ named) (hn : drawn + d.drawn ≤ n) :
    Fresh supply named n upto (d.overlay seen) := by
  refine ⟨fun i j hi hi' hj hj' => h.distinct i j (by omega) hi' (by omega) hj',
    ?_, fun i hi hi' => h.unnamed i (by omega) hi'⟩
  intro i hi hi' key r hr
  have hne : ∀ j, drawn ≤ j → j < drawn + d.drawn → supply j ≠ supply i := by
    intro j hj hj' he
    have := h.distinct j i hj (by omega) (by omega) hi' he
    omega
  unfold Decision.overlay at hr
  split at hr
  · next hk =>
    obtain rfl := Option.some.inj hr
    rw [Relation.id_applyAll, hk]
    obtain ⟨r, es, m⟩ := d
    cases hsubject with
    | @existing key r hseen =>
      rw [hkey key _ hseen]
      exact h.unseen i (by omega) hi' key _ hseen
    | @named key hfree =>
      refine ⟨fun he => hne drawn (Nat.le_refl _) (by simp) (RelationId.mk.inj he), ?_⟩
      intro he
      exact h.unnamed i (by omega) hi' (he ▸ hnamed key rfl)
    | generated =>
      exact ⟨fun he => hne (drawn + 1) (by omega) (by simp) (RelationId.mk.inj he),
        fun he => hne drawn (Nat.le_refl _) (by simp) (Key.ofUuid_injective he)⟩
  · exact h.unseen i (by omega) hi' key r hr

/-- A decision is about a relation that was not deleted. -/
theorem UnitOfWork.Upright.deleted_eq_false {supply : Nat → Uuid} {drawn n : Nat} {u : UnitOfWork}
    {t : Tables} {key? : Option RelationKey} {r : Relation} (h : u.Upright t) (hl : t.Live)
    (hsubject : Subject supply drawn (u.seen t) key? r n) : r.deleted = false := by
  cases hsubject with
  | existing hseen => exact (Relation.isCreated_iff.1 (h.present_of_seen hl hseen)).2
  | named hfree => rfl
  | generated => rfl

/-- What is seen with the unit of work after a decision. -/
theorem UnitOfWork.seen_decided {supply : Nat → Uuid} {u : UnitOfWork} {t : Tables} {d : Decision}
    {drawn : Nat} {key? : Option RelationKey} {command : RelationCommand} (hs : t.Sound)
    (hl : t.Live) (hc : d.relation.handle command = .ok d.events) (hd : command.isDelete = false)
    (hlive : d.relation.deleted = false) (key : RelationKey) :
    (d.record supply drawn (key?.elim u (u.reach t))).seen t key = d.overlay (u.seen t) key := by
  have hpresent : (d.relation.applyAll d.events).present? = some (d.relation.applyAll d.events) :=
    if_pos (Relation.isCreated_applyAll_of_handle hc hlive hd)
  unfold Decision.record Decision.overlay
  rw [seen_record, hpresent]
  cases key? with
  | none => rfl
  | some looked => rw [Option.elim_some, seen_reach hs hl]

theorem UnitOfWork.events_decided {supply : Nat → Uuid} {u : UnitOfWork} {t : Tables}
    {d : Decision} {drawn : Nat} {key? : Option RelationKey} :
    (d.record supply drawn (key?.elim u (u.reach t))).events = u.events ++
      World.envelop supply d.relation (drawn + d.drawn) d.relation.version d.events := by
  rw [Decision.record, events_record]
  cases key? with
  | none => rfl
  | some key => rw [Option.elim_some, events_reach]

/-- A unit of work stays upright when a decision is carried out. -/
theorem UnitOfWork.Upright.decided {supply : Nat → Uuid} {named : List ExternalId}
    {drawn upto : Nat} {u : UnitOfWork} {t : Tables} {d : Decision} {key? : Option RelationKey}
    {command : RelationCommand} (h : u.Upright t) (hs : t.Sound) (hl : t.Live)
    (hfresh : Fresh supply named drawn upto (u.seen t)) (hupto : drawn + d.drawn ≤ upto)
    (hsubject : Subject supply drawn (u.seen t) key? d.relation d.drawn)
    (hc : d.relation.handle command = .ok d.events) (hd : command.isDelete = false) :
    (d.record supply drawn (key?.elim u (u.reach t))).Upright t := by
  obtain ⟨r, es, m⟩ := d
  cases hsubject with
  | @existing key r hseen =>
    obtain ⟨tr, htr, rfl⟩ := h.mem_reach_of_seen hs hseen
    exact (h.reach hs hl key).record htr hc hd
  | @named key hfree =>
    have hlt : drawn < upto := hupto
    have hid := fun key r hr => (hfresh.unseen drawn (Nat.le_refl _) hlt key r hr).1
    refine (h.reach hs hl key).record_new hs ?_ ?_ hc hd
    · intro key' r hr
      rw [UnitOfWork.seen_reach hs hl] at hr
      exact hid key' r hr
    · rwa [UnitOfWork.seen_reach hs hl]
  | @generated tenant =>
    have hlt : drawn + 1 < upto := hupto
    have hid := fun key r hr => (hfresh.unseen (drawn + 1) (Nat.le_succ _) hlt key r hr).1
    refine @UnitOfWork.Upright.record_new u t ⟨tenant, .ofUuid .externalId (supply drawn)⟩ _ _ _ h _
      hs hid ?_ hc hd
    cases hseen : u.seen t ⟨tenant, .ofUuid .externalId (supply drawn)⟩ with
    | none => rfl
    | some r => exact absurd rfl (hfresh.unseen drawn (Nat.le_refl _) (by omega) _ r hseen).2

/-! ## Calls -/

namespace BatchKind

variable {supply : Nat → Uuid} {w w' : World} {kind : BatchKind} {requests : List kind.Request}

/-- A call comes to what its batch comes to, unless it is one that starts over. -/
theorem call_comesTo {outcome : Except RelationError (List Relation)}
    (h : (Call.batch kind.entry requests).ComesTo supply w outcome w')
    (hout : ∀ e, outcome = .error e → e.isTaken = true → kind.retries = 0) :
    (kind.call requests).ComesTo supply w outcome w' := by
  cases kind with
  | upsert settings tenant =>
    refine Call.ComesTo.reported ?_
    cases hretries : settings.upsertRetries.toNat with
    | zero => exact h
    | succ n =>
      refine Call.ComesTo.upsertAttempts h ?_ _ _
      intro name hname
      have := hout _ hname rfl
      rw [retries, hretries] at this
      cases this
  | _ => exact h.reported

/-- What a call draws for its entries is no more than it draws. -/
theorem drawn_handleEach_le :
    (World.run supply (Call.handleEach kind.entry w.clock .empty requests).run w).2.drawn ≤
      (World.run supply (kind.call requests).run w).2.drawn := by
  have hbatch : (World.run supply (Call.handleEach kind.entry w.clock .empty requests).run w).2.drawn ≤
      (World.run supply (Call.batch kind.entry requests).run w).2.drawn := by
    have hnow : Call.now.ComesTo supply w (.ok w.clock) w := Call.comesTo_now
    rw [Call.batch, hnow.drawn_bind]
    exact World.drawn_bind
  cases kind with
  | upsert settings tenant =>
    refine Nat.le_trans hbatch (Nat.le_trans ?_ World.drawn_bind)
    cases settings.upsertRetries.toNat with
    | zero => exact Nat.le_refl _
    | succ n => exact World.drawn_bind
  | _ => exact Nat.le_trans hbatch World.drawn_bind

theorem isTaken_of_decision {l : Ledger} {drawn : Nat} {at_ : Instant}
    {seen : RelationKey → Option Relation} {request : kind.Request} {e : RelationError}
    (h : kind.decision supply l drawn at_ seen request = .error e) (he : e.isTaken = true) :
    kind.retries = 0 := by
  cases kind with
  | upsert settings tenant =>
    rw [isTaken_of_upsert h] at he
    cases he
  | _ => rfl

theorem mem_named_of_key? {request : kind.Request} {key : RelationKey}
    (h : key ∈ kind.key? request) : key.externalId ∈ kind.named request := by
  cases kind with
  | create tenant =>
    obtain ⟨name, hname, rfl⟩ := Option.map_eq_some_iff.1 h
    exact hname
  | _ =>
    cases h
    rfl

variable {request : kind.Request} {d : Decision} {e : RelationError} {named : List ExternalId}
  {upto : Nat}

/-- A call whose one entry fails. -/
theorem single_error
    (h : kind.decision supply w.ledger w.drawn w.clock w.tables.find? request = .error e) :
    ∃ w', (kind.call [request]).ComesTo supply w (.error e) w' := by
  have hentry : (kind.entry w.clock .empty request).Decides supply w _
      (kind.decision supply w.ledger w.drawn w.clock w.tables.find? request) :=
    entry_decides kind request
  rw [h] at hentry
  obtain ⟨w', hentry⟩ := hentry
  refine ⟨w', call_comesTo (Call.comesTo_batch_error hentry.bind_error) ?_⟩
  intro e' he'
  cases he'
  exact isTaken_of_decision h

/-- A call whose one entry is carried out. -/
theorem single_ok (hs : w.tables.Sound) (hl : w.tables.Live)
    (hfresh : Fresh supply named w.drawn upto w.tables.find?)
    (h : kind.decision supply w.ledger w.drawn w.clock w.tables.find? request = .ok d)
    (hupto : w.drawn + d.drawn ≤ upto) :
    ∃ t : Tables, t.Sound ∧ (∀ key, t.find? key = d.overlay w.tables.find? key) ∧
      (kind.call [request]).ComesTo supply w (.ok [d.relation.applyAll d.events])
        { w.draw (d.drawn + d.events.length) with
          tables := t
          published := w.published ++
            World.envelop supply d.relation (w.drawn + d.drawn) d.relation.version d.events } := by
  have hentry : (kind.entry w.clock .empty request).Decides supply w _
      (kind.decision supply w.ledger w.drawn w.clock w.tables.find? request) :=
    entry_decides kind request
  rw [h] at hentry
  obtain ⟨hsubject, command, hc, hdelete⟩ := decision_eq_ok h
  have hempty := UnitOfWork.upright_empty w.tables
  have hupright := hempty.decided hs hl hfresh hupto hsubject hc hdelete
  obtain ⟨t, hcommit, hsound, hfind⟩ := hupright.fits.commit_of_kept hs hupright.kept
  have hlive := hempty.deleted_eq_false hl hsubject
  refine ⟨t, hsound, fun key => (hfind key).trans (UnitOfWork.seen_decided hs hl hc hdelete hlive key),
    ?_⟩
  have hhandled : (Call.handleEach kind.entry w.clock .empty [request]).ComesTo supply w
      (.ok ([d.relation.applyAll d.events], _)) (w.draw (d.drawn + d.events.length)) :=
    Call.ComesTo.bind hentry ((Call.comesTo_pure _).bind (Call.comesTo_pure _))
  have hcall := call_comesTo (Call.comesTo_batch_ok hhandled hcommit) fun e he => nomatch he
  rw [UnitOfWork.events_decided] at hcall
  exact hcall

end BatchKind

end PartnerRelations
