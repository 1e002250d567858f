/-
# `Proofs.Service.Protocol` — what a call may rely on, and what it owes

Calls that run side by side meet at the store and the bus and nowhere else, so
what one call does among the others can be said of the call alone.  Its
`Standing` is what it has in hand:

    shown    the relations it was shown, the last one first
    fresh    the identifiers it drew for relations that are not committed yet
    names    the names it must not be given: its entries' and those generated
    owed     the envelopes of accepted commits that are not published yet

`protocol` states both sides.  The surroundings promise that a relation that is
shown is there, that an identifier is never shown under two names, and that what
is generated is new.  The call owes, at each commit, the changes of a unit of work
grounded in what it was shown last of each relation (`UnitOfWork.Grounded`), and
at each publication the envelope that is due; it names nothing while it owes.

    `ServiceCall.leads`     every call keeps to the protocol to its end,
                            and then owes nothing
-/
import PartnerRelations.Proofs.Service.Upkeep
import PartnerRelations.Proofs.UnitOfWork.Grounding

namespace PartnerRelations

/-- What a call has in hand. -/
structure Standing where
  shown : List Relation
  fresh : List RelationId
  names : List ExternalId
  owed : List RelationEnvelope

namespace Standing

/-- What a call has in hand before its first step; it may name relations. -/
def start (names : List ExternalId) : Standing := ⟨[], [], names, []⟩

/-- What was shown last of a relation. -/
def lastShown (st : Standing) (id : RelationId) : Option Relation :=
  st.shown.find? fun r => r.id = id

/-- The relation was the last one shown of its identifier. -/
def Read (st : Standing) (r : Relation) : Prop :=
  st.lastShown r.id = some r

/-- The relation is new, with an identifier drawn for it. -/
def New (st : Standing) (r : Relation) : Prop :=
  r = .empty r.id r.tenant r.externalId ∧ r.id ∈ st.fresh

/-- The relation may be shown: it is there, it is not one that the call is about
to create, and it has the name that it was shown with before. -/
structure Shows (st : Standing) (r : Relation) : Prop where
  created : r.isCreated = true
  stored : r.id ∉ st.fresh
  key : ∀ r' ∈ st.shown, r'.id = r.id → r'.key = r.key

end Standing

/-- What calls may rely on and what they owe. -/
def protocol : Surroundings Query.Answer Standing where
  meets request wanted st :=
    match request, wanted with
    | .freshId .relation, wanted => st.owed = [] ∧
      ∀ x, ⟨x⟩ ∉ st.fresh → (∀ r ∈ st.shown, r.id ≠ ⟨x⟩) →
        wanted x { st with fresh := ⟨x⟩ :: st.fresh }
    | .freshId .externalId, wanted => st.owed = [] ∧
      ∀ x, Key.ofUuid .externalId x ∉ st.names →
        wanted x { st with names := Key.ofUuid .externalId x :: st.names }
    | .findByKey key, wanted => wanted (.ok none) st ∧
      ∀ r, r.key = key → st.Shows r → wanted (.ok (some r)) { st with shown := r :: st.shown }
    | .findInState _ _, wanted => ∀ rs, (∀ r ∈ rs, st.Shows r) → (rs.map Relation.id).Nodup →
      wanted (.ok rs) { st with shown := rs ++ st.shown }
    | .commit changes, wanted => ∃ u : UnitOfWork, u.changes = changes ∧
      u.Grounded st.Read st.New ∧ (∀ e, wanted (.error e) st) ∧
      wanted (.ok ()) { st with fresh := [], owed := st.owed ++ u.events }
    | .publish envelope, wanted => ∃ rest, st.owed = envelope :: rest ∧
      wanted (.ok ()) { st with owed := rest }
    | _, wanted => ∀ x, wanted x st
  meets_mono {request wanted wanted' st} hmono h := by
    cases request with
    | freshId use =>
      cases use with
      | relation => exact ⟨h.1, fun x hf hs => hmono _ _ (h.2 x hf hs)⟩
      | externalId => exact ⟨h.1, fun x hn => hmono _ _ (h.2 x hn)⟩
      | event =>
        intro x
        exact hmono _ _ (h x)
    | findByKey key => exact ⟨hmono _ _ h.1, fun r hk hs => hmono _ _ (h.2 r hk hs)⟩
    | findInState state limit =>
      intro rs hs hn
      exact hmono _ _ (h rs hs hn)
    | commit changes =>
      obtain ⟨u, hu, hg, herr, hok⟩ := h
      exact ⟨u, hu, hg, fun e => hmono _ _ (herr e), hmono _ _ hok⟩
    | publish envelope =>
      obtain ⟨rest, ho, hok⟩ := h
      exact ⟨rest, ho, hmono _ _ hok⟩
    | _ =>
      intro x
      exact hmono _ _ (h x)

namespace Protocol

variable {st : Standing} {u : UnitOfWork} {err : RelationError → Standing → Prop}

theorem idle : protocol.Idle := by
  intro q hq wanted st h
  cases q with
  | freshId use => cases use <;> first | exact h | simp [Query.isIdle] at hq
  | _ => first | exact h | simp [Query.isIdle] at hq

/-- The call owes nothing. -/
def Settled (st : Standing) : Prop := st.owed = []

/-- The call may begin to handle entries of the given names, or begin again. -/
structure Ready (named : List ExternalId) (st : Standing) : Prop where
  settled : Settled st
  named : ∀ name ∈ named, name ∈ st.names

theorem ready_start (named : List ExternalId) : Ready named (.start named) := ⟨rfl, fun _ h => h⟩

/-! ## Batches -/

/-- What the entries of a batch keep: the unit is grounded, everything in it is
there, and no name in it can be generated. -/
structure Held (named : List ExternalId) (u : UnitOfWork) (st : Standing) : Prop where
  grounded : u.Grounded st.Read st.New
  live : ∀ t ∈ u.tracked, t.relation.isCreated = true
  known : ∀ t ∈ u.tracked, t.relation.externalId ∈ st.names
  ready : Ready named st

/-- What a tracked relation was reached from is known to the call. -/
theorem exists_base (h : u.Grounded st.Read st.New) {t : Tracked} (ht : t ∈ u.tracked) :
    t.relation.id ∈ st.fresh ∨ ∃ r ∈ st.shown, r.id = t.relation.id ∧ r.key = t.relation.key := by
  obtain ⟨base, hid, hkey, hread | hnew⟩ := (h.tracked t ht).exists_base
  · exact .inr ⟨base, List.mem_of_find?_eq_some hread, hid, hkey⟩
  · exact .inl (hid ▸ hnew.2)

/-- A relation of another name has another identifier. -/
theorem id_ne_of_shows (h : u.Grounded st.Read st.New) {r : Relation} (hs : st.Shows r)
    (hf : u.find? r.key = none) : ∀ t ∈ u.tracked, t.relation.id ≠ r.id := by
  intro t ht hid
  rcases exists_base h ht with hfresh | ⟨r', hr', hid', hkey⟩
  · exact hs.stored (hid ▸ hfresh)
  · exact UnitOfWork.find?_eq_none.1 hf t ht (hkey.symm.trans (hs.key r' hr' (hid'.trans hid)))

theorem grounded_attach (h : u.Grounded st.Read st.New) {r : Relation} (hs : st.Shows r)
    (hf : u.find? r.key = none) :
    (u.attach r).Grounded { st with shown := r :: st.shown }.Read st.New := by
  have hne := id_ne_of_shows h hs hf
  refine UnitOfWork.Grounded.attach (h.mono ?_ fun _ hn => hn) ?_ hne
  · intro t ht base hid hread
    rw [Standing.Read, Standing.lastShown, List.find?_cons_of_neg]
    · exact hread
    · simpa [hid] using fun he => hne t ht he.symm
  · simp [Standing.Read, Standing.lastShown]

theorem held_attach {named : List ExternalId} (h : Held named u st) {r : Relation}
    (hs : st.Shows r) (hf : u.find? r.key = none) (hname : r.externalId ∈ named) :
    Held named (u.attach r) { st with shown := r :: st.shown } where
  grounded := grounded_attach h.grounded hs hf
  live := UnitOfWork.forall_attach (P := fun r => r.isCreated = true) h.live hs.created
  known := UnitOfWork.forall_attach (P := fun r => r.externalId ∈ st.names) h.known
    (h.ready.named _ hname)
  ready := ⟨h.ready.settled, h.ready.named⟩

/-- Something happened to a relation of the unit, and it is still there. -/
theorem held_record {named : List ExternalId} (h : Held named u st) {r : Relation}
    {es : List RelationEvent} {envelopes : List RelationEnvelope}
    (hg : (u.record r es envelopes).Grounded st.Read st.New)
    (hlive : (r.applyAll es).isCreated = true) (hname : r.externalId ∈ st.names) :
    Held named (u.record r es envelopes) st where
  grounded := hg
  live := UnitOfWork.forall_record (P := fun r => r.isCreated = true) h.live hlive
  known := by
    have hkey : (r.applyAll es).externalId = r.externalId :=
      congrArg RelationKey.externalId (Relation.key_applyAll r es)
    exact UnitOfWork.forall_record (P := fun r => r.externalId ∈ st.names) h.known (by rwa [hkey])
  ready := h.ready

/-- The entries of a batch, whose names are `named`, keep to the protocol. -/
def upkeep (named : List ExternalId) : Upkeep protocol (fun _ => Ready named) where
  Held := Held named
  Shown r u _ := ∃ t ∈ u.tracked, t.relation = r
  Free key u st := u.find? key = none ∧ key.externalId ∈ st.names
  Drawn key id u st := (u.find? key = none ∧ key.externalId ∈ st.names) ∧ id ∈ st.fresh ∧
    ∀ t ∈ u.tracked, t.relation.id ≠ id
  Within _ := True
  Named name := name ∈ named
  Resolved _ _ := True
  idle := idle
  fail held _ := held.ready
  known {u st key t} held hf := by
    have ht := (UnitOfWork.mem_of_find? hf).1
    rw [if_pos (held.live t ht)]
    exact ⟨t, ht, rfl⟩
  within _ _ := trivial
  lookup {u st key} held _ hname hf := by
    refine ⟨⟨held, hf, held.ready.named _ hname⟩, ?_⟩
    rintro r rfl hs
    refine ⟨held_attach held hs hf hname, ⟨some r.version, r, false⟩, ?_, rfl⟩
    exact (UnitOfWork.mem_attach hf).2 (.inr rfl)
  name {u st} held := by
    refine ⟨held.ready.settled, fun x hx => ?_⟩
    refine ⟨⟨held.grounded, held.live, fun t ht => List.mem_cons_of_mem _ (held.known t ht),
      held.ready.settled, fun name hn => List.mem_cons_of_mem _ (held.ready.named name hn)⟩,
      fun tenant _ => ⟨?_, List.mem_cons_self ..⟩⟩
    refine UnitOfWork.find?_eq_none.2 fun t ht hk => hx ?_
    have hname : t.relation.externalId = Key.ofUuid .externalId x :=
      congrArg RelationKey.externalId hk
    exact hname ▸ held.known t ht
  draw {u st key} held free := by
    refine ⟨held.ready.settled, fun x hfresh hshown => ?_⟩
    have hne : ∀ t ∈ u.tracked, t.relation.id ≠ ⟨x⟩ := by
      intro t ht hid
      rcases exists_base held.grounded ht with hmem | ⟨r, hr, hid', -⟩
      · exact hfresh (hid ▸ hmem)
      · exact hshown r hr (hid'.trans hid)
    refine ⟨⟨?_, held.live, held.known, held.ready.settled, held.ready.named⟩, free,
      List.mem_cons_self .., hne⟩
    exact held.grounded.mono (fun _ _ _ _ hread => hread)
      fun base hnew => ⟨hnew.1, List.mem_cons_of_mem _ hnew.2⟩
  partners _ herror hok := by
    rintro (e | records)
    · exact herror e
    · exact hok records fun _ _ => trivial
  create {u st key id command es envelopes} held drawn hc hd _ carries := by
    obtain ⟨⟨hf, hname⟩, hfresh, hne⟩ := drawn
    have hlive := Relation.isCreated_applyAll_of_handle hc rfl hd
    exact held_record held (held.grounded.record_new ⟨rfl, hfresh⟩ rfl hf hne hc
      (Relation.ne_nil_of_handle_empty hc) hlive carries) hlive hname
  amend {u st r command es envelopes} held shown hc hr hd _ carries := by
    obtain ⟨t, ht, rfl⟩ := shown
    have hlive := Relation.isCreated_applyAll_of_handle hc (Relation.isCreated_iff.1 hr).2 hd
    exact held_record held (held.grounded.record ht hc carries (.inl hlive)) hlive (held.known t ht)

/-! ## Commits and publications -/

theorem leads_commit {post : Except StoreError (List RelationEnvelope) → Standing → Prop}
    (hg : u.Grounded st.Read st.New) (herr : ∀ e, post (.error e) st)
    (hok : ∀ fresh, post (.ok u.events) { st with fresh, owed := st.owed ++ u.events }) :
    u.commit.Leads protocol post st := by
  unfold UnitOfWork.commit
  split
  · next hnil =>
    have hevents := hg.events_eq_nil (List.isEmpty_iff.1 hnil)
    have := hok st.fresh
    rw [hevents, List.append_nil] at this
    rw [hevents]
    exact this
  · exact Program.leads_bind.2 ⟨u, rfl, hg, herr, hok []⟩

/-- What is owed is published. -/
theorem leads_publish {events : List RelationEnvelope} (ho : st.owed = events) :
    (Call.publish events).Leads protocol (fun _ => Settled) err st := by
  refine Call.leads_publish idle ?_
  induction events generalizing st with
  | nil => exact ho
  | cons x xs ih => exact Call.leads_bind.2 (Call.leads_orFail.2 ⟨xs, ho, ih rfl⟩)

theorem leads_finish (hg : u.Grounded st.Read st.New) (hs : Settled st)
    (herr : ∀ e, err e st) : (Call.finish u).Leads protocol (fun _ => Settled) err st := by
  refine Call.leads_bind.2 (Call.leads_orFail.2 (leads_commit hg (fun _ => herr _) ?_))
  intro fresh
  exact leads_publish (by rw [hs]; rfl)

/-! ## Whole calls -/

theorem leads_batch (kind : BatchKind) {requests : List kind.Request}
    (hr : Ready (requests.filterMap kind.named) st) :
    (Call.batch kind.entry requests).Leads protocol (fun _ => Settled)
      (fun _ => Ready (requests.filterMap kind.named)) st := by
  refine (upkeep _).leads_batch ⟨UnitOfWork.grounded_empty, by simp [UnitOfWork.empty],
    by simp [UnitOfWork.empty], hr⟩ (fun _ _ => trivial) (fun _ h => h) ?_
  intro u st' _ held
  have held : Held (requests.filterMap kind.named) u st' := held
  exact leads_finish held.grounded held.ready.settled fun _ => held.ready

/-- A command on a relation that was just shown, in a unit of work of its own. -/
theorem grounded_alone {r : Relation} {command : RelationCommand} {es : List RelationEvent}
    {envelopes : List RelationEnvelope} (hread : st.Read r) (hc : r.handle command = .ok es)
    (hcarries : Carries r r.version es envelopes) :
    ((UnitOfWork.empty.attach r).record r es envelopes).Grounded st.Read fun _ => False := by
  have hg : (UnitOfWork.empty.attach r).Grounded st.Read fun _ => False :=
    UnitOfWork.grounded_empty.attach hread (by simp [UnitOfWork.empty])
  exact hg.record (t := ⟨some r.version, r, false⟩) (List.mem_singleton.2 rfl) hc hcarries (.inr rfl)

theorem leads_delete {tenant : TenantBpnl} {externalId : ExternalId} (hs : Settled st) :
    (Service.delete tenant externalId).Leads protocol (fun _ => Settled) (fun _ => Settled) st := by
  refine Call.leads_delete idle fun at_ => ⟨hs, fun r _ hshows => ⟨fun _ => hs, ?_⟩⟩
  intro es envelopes hc carries
  refine leads_finish ?_ hs fun _ => hs
  refine (grounded_alone (by simp [Standing.Read, Standing.lastShown]) hc carries).mono
    (fun _ _ _ _ h => h) fun _ h => h.elim

/-- Each candidate is started in a unit of work of its own. -/
theorem leads_startEach {at_ : Instant} (hs : Settled st) : ∀ {candidates : List Relation},
    (∀ r ∈ candidates, st.Read r) → (Service.startEach at_ candidates).Leads protocol
      (fun claims st' => st' = st ∧ ∀ c ∈ claims, c.unit.Grounded st.Read fun _ => False)
      (fun _ => Settled) st
  | [], _ => ⟨rfl, by simp⟩
  | candidate :: rest, hread => by
    refine Call.leads_bind.2 (Call.leads_execute idle (fun _ _ => hs) ?_)
    intro es envelopes hc carries
    have hg := grounded_alone (hread _ (List.mem_cons_self ..)) hc carries
    refine Call.leads_bind.2 (Call.leads_mono ?_ (fun _ _ he => he)
      (leads_startEach hs fun r hr => hread r (List.mem_cons_of_mem _ hr)))
    rintro claims st' ⟨rfl, hclaims⟩
    exact ⟨rfl, List.forall_mem_cons.2 ⟨hg, hclaims⟩⟩

/-- What the claims before led to is owed while the next one is committed. -/
theorem leads_commitEach : ∀ {claims : List (Service.Claim × RelationSharingTask)}
    {events : List RelationEnvelope} {claimed : List RelationSharingTask} {st : Standing},
    st.owed = events → (∀ c ∈ claims, c.1.unit.Grounded st.Read fun _ => False) →
    (Service.commitEach events claimed claims).Leads protocol (fun _ => Settled)
      (fun _ => Settled) st
  | [], _, _, _, ho, _ => Call.leads_bind.2 (leads_publish ho)
  | (claim, task) :: rest, events, claimed, st, ho, hg => by
    obtain ⟨hfirst, hrest⟩ := List.forall_mem_cons.1 hg
    refine Call.leads_bind.2 (Call.leads_lift.2 (leads_commit
      (hfirst.mono (fun _ _ _ _ h => h) fun _ h => h.elim) ?_ ?_))
    · intro e
      cases e with
      | concurrency reason =>
        exact Call.leads_bind.2 (Call.leads_log.2 fun _ => leads_commitEach ho hrest)
      | _ => exact Call.leads_bind.2 (leads_publish ho)
    · intro fresh
      exact leads_commitEach (by rw [ho]) hrest

theorem leads_tasks {relations : List Relation} (hs : Settled st) :
    (Service.tasks relations).Leads protocol (fun _ st' => st' = st) (fun _ => Settled) st := by
  refine Call.leads_bind.2 (Call.leads_orFail.2 ?_)
  intro x
  cases x with
  | error e => exact hs
  | ok records =>
    show Call.Leads protocol _ _ (Call.ofExcept (relations.mapM (Service.task records))) st
    rw [Call.leads_ofExcept]
    cases relations.mapM (Service.task records) with
    | error e => exact hs
    | ok tasks => rfl

theorem read_of_mem {rs : List Relation} (hids : (rs.map Relation.id).Nodup) {r : Relation}
    (hr : r ∈ rs) : Standing.Read { st with shown := rs ++ st.shown } r := by
  rw [Standing.Read, Standing.lastShown, List.find?_append]
  cases hf : rs.find? fun r' => r'.id = r.id with
  | none => simpa using List.find?_eq_none.1 hf r hr
  | some r' =>
    have hid : r'.id = r.id := by simpa using List.find?_some hf
    rw [List.inj_on_of_nodup_map hids (List.mem_of_find?_eq_some hf) hr hid]
    rfl

theorem leads_claim {limit : Nat} (hs : Settled st) :
    (Service.claim limit).Leads protocol (fun _ => Settled) (fun _ => Settled) st := by
  refine Call.leads_reported_of_idle idle ?_
  split
  · exact hs
  · refine Call.leads_bind.2 (Call.leads_now.2 fun at_ => Call.leads_bind.2
      (Call.leads_orFail.2 ?_))
    intro rs hshows hids
    have hs : Settled { st with shown := rs ++ st.shown } := hs
    refine Call.leads_bind.2 (Call.leads_mono ?_ (fun _ _ he => he)
      (leads_startEach hs fun r hr => read_of_mem hids hr))
    rintro claims st' ⟨rfl, hclaims⟩
    refine Call.leads_bind.2 (Call.leads_mono ?_ (fun _ _ he => he) (leads_tasks hs))
    rintro tasks _ rfl
    exact leads_commitEach hs fun c hc => hclaims _ (List.of_mem_zip hc).1

end Protocol

/-- Every call keeps to the protocol to its end and owes nothing then. -/
theorem ServiceCall.leads (c : ServiceCall) : c.call.Leads protocol
    (fun _ => Protocol.Settled) (fun _ => Protocol.Settled) (.start c.named) := by
  have ready := Protocol.ready_start c.named
  cases c with
  | write c =>
    cases c with
    | batch kind requests =>
      exact Call.leads_mono (fun _ _ h => h) (fun _ _ he => he.settled)
        (Call.leads_batchCall Protocol.idle (Protocol.leads_batch kind) ready)
    | delete tenant externalId => exact Protocol.leads_delete ready.settled
  | claim limit => exact Protocol.leads_claim ready.settled
  | find tenant externalId => exact Call.leads_orFail.2 ⟨ready.settled, fun _ _ _ => ready.settled⟩
  | _ =>
    refine Call.leads_reported_of_idle Protocol.idle (Call.leads_orFail.2 ?_)
    intro x
    cases x <;> exact ready.settled

end PartnerRelations
