/-
# `Proofs.Service.Reference` — what calls refer to, the ledger had

A call learns of ledger records in two ways: the ledger resolves a name to one, and the
relations that it is shown refer to some.  `referring D kept` are surroundings in which
all of these are in the directory `D`:

    shown        relations refer to records in `D`; those that wait for sharing have a
                 sharing state
    resolved     the ledger's records of a name are in `D`
    asked for    the call may ask for identifiers in `D`; they are found, if the ledger
                 keeps what it had (`kept`)
    stored       the call may store relations that refer to records in `D`

Every call keeps to its side of this, and a claim among a ledger that keeps what it had
does not fail for a record that is missing (`ServiceCall.leads_referring`).
-/
import PartnerRelations.Proofs.Service.Upkeep
import PartnerRelations.Proofs.Store.Reference

namespace PartnerRelations

/-- The call found a stored value that stands for nothing. -/
def RelationError.isCorrupt : RelationError → Bool
  | .store e => e.isCorrupt
  | _ => false

theorem RelationError.isCorrupt_ofDomain {externalId : ExternalId} {e : DomainError}
    (h : ∀ reason, e ≠ .invariantViolation reason) : (ofDomain externalId e).isCorrupt = false := by
  cases e with
  | invariantViolation reason => exact absurd rfl (h reason)
  | _ => rfl

/-- To start sharing a relation with a sharing state breaks no invariant. -/
theorem Relation.handleStart_refused {r : Relation} {state : RelationSharingState} {at_ : Instant}
    {e : DomainError} (hstate : r.sharingState = some state)
    (h : r.handle (.startSharing at_) = .error e) : ∀ reason, e ≠ .invariantViolation reason := by
  rintro reason rfl
  rcases bind_eq_error.1 h with h | ⟨_, -, h⟩
  · unfold ensureExists at h
    split at h <;> cases h
  · rcases bind_eq_error.1 h with h | ⟨_, -, h⟩
    · rw [currentSharingState, hstate] at h
      cases h
    · rcases bind_eq_error.1 h with h | ⟨_, -, h⟩
      · unfold RelationSharingState.ensureMove at h
        split at h <;> cases h
      · cases h

/-- A change stores the relation that calls for it. -/
theorem Tracked.stored?_of_change? {t : Tracked} {c : RelationChange} (h : t.change? = some c) :
    ∀ r ∈ c.stored?, r = t.relation := by
  obtain ⟨_ | v, r, dirty⟩ := t
  · obtain ⟨-, -, rfl⟩ := change?_new_eq_some.1 h
    rintro _ ⟨⟩
    rfl
  · obtain ⟨-, rfl⟩ := change?_persisted_eq_some.1 h
    split
    · rintro _ ⟨⟩
    · rintro _ ⟨⟩
      rfl

/-- A change of a relation that is there stores it. -/
theorem Tracked.stored?_eq_some {t : Tracked} {c : RelationChange} (h : t.change? = some c)
    (hlive : t.relation.deleted = false) : c.stored? = some t.relation := by
  obtain ⟨_ | v, r, dirty⟩ := t
  · obtain ⟨-, -, rfl⟩ := change?_new_eq_some.1 h
    rfl
  · obtain ⟨-, rfl⟩ := change?_persisted_eq_some.1 h
    rw [if_neg (by simpa using hlive)]
    rfl

/-- Everything in the unit refers to records in the directory. -/
def UnitOfWork.RefersTo (u : UnitOfWork) (D : Directory) : Prop :=
  ∀ t ∈ u.tracked, t.relation.RefersTo D

theorem UnitOfWork.RefersTo.changes {u : UnitOfWork} {D : Directory} (h : u.RefersTo D) :
    ∀ c ∈ u.changes, ∀ r ∈ c.stored?, r.RefersTo D := by
  intro c hc r hr
  obtain ⟨t, ht, hchange⟩ := List.mem_filterMap.1 hc
  exact Tracked.stored?_of_change? hchange r hr ▸ h t ht

/-- What calls may rely on where ledger records are concerned, and what they owe. -/
def referring (D : Directory) (kept : Prop) : Surroundings Query.Answer Unit where
  meets request wanted _ :=
    match request, wanted with
    | .findByKey _, wanted =>
      ∀ found : Option Relation, (∀ r ∈ found, r.RefersTo D) → wanted (.ok found) ()
    | .findInState _ _, wanted =>
      ∀ rs : List Relation, (∀ r ∈ rs, r.RefersTo D ∧ ∃ state, r.sharingState = some state) →
        wanted (.ok rs) ()
    | .commit changes, wanted => (∀ c ∈ changes, ∀ r ∈ c.stored?, r.RefersTo D) ∧
      wanted (.ok ()) () ∧ ∀ e : StoreError, e.isCorrupt = false → wanted (.error e) ()
    | .partnerRecords tenant _, wanted =>
      ∀ records : Ledger, (∀ record ∈ records, D tenant record.id) → wanted (.ok records) ()
    | .partnerRecordsByIds ids, wanted => (∀ id ∈ ids, ∃ tenant, D tenant id) ∧
      ∀ records : Ledger, (kept → ∀ id ∈ ids, (records.last? id).isSome = true) →
        wanted (.ok records) ()
    | _, wanted => ∀ x, wanted x ()
  meets_mono {request wanted wanted' _} hmono h := by
    cases request with
    | findByKey key =>
      intro found hfound
      exact hmono _ _ (h found hfound)
    | findInState state limit =>
      intro rs hrs
      exact hmono _ _ (h rs hrs)
    | commit changes =>
      exact ⟨h.1, hmono _ _ h.2.1, fun e he => hmono _ _ (h.2.2 e he)⟩
    | partnerRecords tenant externalId =>
      intro records hrecords
      exact hmono _ _ (h records hrecords)
    | partnerRecordsByIds ids =>
      exact ⟨h.1, fun records hrecords => hmono _ _ (h.2 records hrecords)⟩
    | _ =>
      intro x
      exact hmono _ _ (h x)

namespace Referring

variable {D : Directory} {kept : Prop} {u : UnitOfWork} {r : Relation}

theorem idle : (referring D kept).Idle := by
  intro q hq wanted _ h
  cases q <;> first | exact h | simp [Query.isIdle] at hq

/-- What a claim may fail with among a ledger that keeps what it had. -/
def Fails (kept : Prop) (e : RelationError) (_ : Unit) : Prop := kept → e.isCorrupt = false

/-! ## Batches -/

theorem refersTo_attach (hu : u.RefersTo D) (hr : r.RefersTo D) : (u.attach r).RefersTo D :=
  UnitOfWork.forall_attach (P := fun r => r.RefersTo D) hu hr

theorem refersTo_record {command : RelationCommand} {es : List RelationEvent}
    {envelopes : List RelationEnvelope} (hu : u.RefersTo D) (hr : r.RefersTo D)
    (hc : r.handle command = .ok es) (hends : ∀ p ∈ command.ends, D r.tenant p.id) :
    (u.record r es envelopes).RefersTo D :=
  UnitOfWork.forall_record (P := fun r => r.RefersTo D) hu (hr.handled hc hends)

/-- Entries refer to what they were shown and to what the ledger resolved. -/
def upkeep (D : Directory) (kept : Prop) : Upkeep (referring D kept) (fun _ _ => True) where
  Held u _ := u.RefersTo D
  Shown r _ _ := r.RefersTo D
  Free _ _ _ := True
  Drawn _ _ _ _ := True
  Within _ := True
  Named _ := True
  Resolved tenant p := D tenant p.id
  idle := idle
  fail _ _ := trivial
  known {u _ key t} held hf := by
    split
    · exact held t (UnitOfWork.mem_of_find? hf).1
    · trivial
  within _ _ := trivial
  lookup held _ _ _ := by
    rintro (_ | r) hfound
    · exact ⟨held, trivial⟩
    · exact ⟨refersTo_attach held (hfound r rfl), hfound r rfl⟩
  name held := fun _ => ⟨held, fun _ _ => trivial⟩
  draw held _ := fun _ => ⟨held, trivial⟩
  partners _ _ hok := hok
  create held _ hc _ hends _ := refersTo_record held (Relation.refersTo_empty _ _ _) hc hends
  amend held shown hc _ _ hends _ := refersTo_record held shown hc hends

theorem leads_commit {post : Except StoreError (List RelationEnvelope) → Unit → Prop}
    (hu : u.RefersTo D) (hok : post (.ok u.events) ())
    (herror : ∀ e : StoreError, e.isCorrupt = false → post (.error e) ()) :
    u.commit.Leads (referring D kept) post () := by
  unfold UnitOfWork.commit
  split
  · exact hok
  · exact Program.leads_bind.2 ⟨hu.changes, hok, herror⟩

/-- Publications fail as they like, and never for what the store holds. -/
theorem leads_publish {events : List RelationEnvelope} {ok : Unit → Unit → Prop}
    (hok : ok () ()) : (Call.publish events).Leads (referring D kept) ok (Fails kept) () :=
  Call.leads_publish_free idle (fun _ _ h => h) hok fun _ _ => rfl

theorem leads_finish (hu : u.RefersTo D) : (Call.finish u).Leads (referring D kept)
    (fun _ _ => True) (fun _ _ => True) () := by
  refine Call.leads_bind.2 (Call.leads_orFail.2 (leads_commit hu ?_ fun _ _ => trivial))
  exact Call.leads_mono (fun _ _ h => h) (fun _ _ _ => trivial) (leads_publish trivial)

theorem leads_batch (kind : BatchKind) (requests : List kind.Request) :
    (Call.batch kind.entry requests).Leads (referring D kept) (fun _ _ => True)
      (fun _ _ => True) () := by
  refine (upkeep D kept).leads_batch (fun _ h => absurd h List.not_mem_nil) (fun _ _ => trivial)
    (fun _ _ => trivial) ?_
  intro u _ _ held
  exact leads_finish held

theorem leads_delete {tenant : TenantBpnl} {externalId : ExternalId} :
    (Service.delete tenant externalId).Leads (referring D kept) (fun _ _ => True)
      (fun _ _ => True) () := by
  refine Call.leads_delete idle fun at_ => ?_
  rintro (_ | r) hfound
  · trivial
  · refine ⟨fun _ => trivial, fun es envelopes hc _ => ?_⟩
    have hu : (UnitOfWork.empty.attach r).RefersTo D :=
      refersTo_attach (fun _ h => absurd h List.not_mem_nil) (hfound r rfl)
    exact leads_finish (refersTo_record hu (hfound r rfl) hc fun _ h => absurd h List.not_mem_nil)

/-! ## Claims -/

theorem leads_startEach {at_ : Instant} : ∀ {candidates : List Relation},
    (∀ r ∈ candidates, r.RefersTo D ∧ ∃ state, r.sharingState = some state) →
    (Service.startEach at_ candidates).Leads (referring D kept)
      (fun claims _ => ∀ claim ∈ claims, claim.relation.RefersTo D ∧ claim.unit.RefersTo D)
      (Fails kept) ()
  | [], _ => fun _ h => absurd h List.not_mem_nil
  | candidate :: rest, hcandidates => by
    obtain ⟨⟨hr, state, hstate⟩, hrest⟩ := List.forall_mem_cons.1 hcandidates
    refine Call.leads_bind.2 (Call.leads_execute idle ?_ ?_)
    · intro e hrefused _
      exact RelationError.isCorrupt_ofDomain (Relation.handleStart_refused hstate hrefused)
    · intro es envelopes hc _
      have hu : (UnitOfWork.empty.attach candidate).RefersTo D :=
        refersTo_attach (fun _ h => absurd h List.not_mem_nil) hr
      have hends : ∀ p ∈ (RelationCommand.startSharing at_).ends, D candidate.tenant p.id :=
        fun _ h => absurd h List.not_mem_nil
      refine Call.leads_bind.2 (Call.leads_mono ?_ (fun _ _ he => he) (leads_startEach hrest))
      intro claims _ hclaims
      exact List.forall_mem_cons.2 ⟨⟨hr.handled hc hends, refersTo_record hu hr hc hends⟩, hclaims⟩

theorem reference_eq_ok {records : Ledger} {id : SharingStateId}
    (h : (records.last? id).isSome = true) : ∃ p, Service.reference records r id = .ok p := by
  obtain ⟨record, hrecord⟩ := Option.isSome_iff_exists.1 h
  exact ⟨.ofRecord record, by simp [Service.reference, hrecord]⟩

/-- A task whose partners are found fails for the relation only. -/
theorem isCorrupt_of_task {records : Ledger} {e : RelationError}
    (hfound : ∀ id ∈ Service.endIds [r], (records.last? id).isSome = true)
    (h : Service.task records r = .error e) : e.isCorrupt = false := by
  unfold Service.task at h
  cases hinput : r.input with
  | none =>
    rw [hinput] at h
    cases h
    rfl
  | some stage =>
    obtain ⟨source, hsource⟩ : ∃ p, Service.reference records r stage.source = .ok p :=
      reference_eq_ok (hfound _ (by simp [Service.endIds, hinput]))
    obtain ⟨target, htarget⟩ : ∃ p, Service.reference records r stage.target = .ok p :=
      reference_eq_ok (hfound _ (by simp [Service.endIds, hinput]))
    rw [hinput] at h
    simp only [hsource, htarget, bind, Except.bind] at h
    cases h

theorem exists_of_mapM_eq_error {ε α β : Type} {f : α → Except ε β} {e : ε} : ∀ {xs : List α},
    xs.mapM f = .error e → ∃ x ∈ xs, f x = .error e
  | [], h => by
    rw [List.mapM_nil] at h
    cases h
  | x :: xs, h => by
    rw [List.mapM_cons] at h
    rcases Relation.bind_eq_error.1 h with h | ⟨_, -, h⟩
    · exact ⟨x, List.mem_cons_self .., h⟩
    · rcases Relation.bind_eq_error.1 h with h | ⟨_, -, h⟩
      · obtain ⟨y, hy, he⟩ := exists_of_mapM_eq_error h
        exact ⟨y, List.mem_cons_of_mem _ hy, he⟩
      · cases h

theorem endIds_subset {rs : List Relation} (hr : r ∈ rs) :
    Service.endIds [r] ⊆ Service.endIds rs := by
  intro id hid
  simp only [Service.endIds, List.mem_flatMap, List.mem_filterMap] at hid ⊢
  obtain ⟨stage, ⟨r', hr', hstage⟩, hid⟩ := hid
  exact ⟨stage, ⟨r', List.mem_singleton.1 hr' ▸ hr, hstage⟩, hid⟩

theorem mem_endIds {rs : List Relation} (hrs : ∀ r ∈ rs, r.RefersTo D) :
    ∀ id ∈ Service.endIds rs, ∃ tenant, D tenant id := by
  intro id hid
  obtain ⟨stage, hstage, hid⟩ := List.mem_flatMap.1 hid
  obtain ⟨r, hr, hinput⟩ := List.mem_filterMap.1 hstage
  obtain ⟨hsource, htarget⟩ := hrs r hr stage hinput
  rcases List.mem_cons.1 hid with rfl | hid
  · exact ⟨_, hsource⟩
  · rw [List.mem_singleton.1 hid]
    exact ⟨_, htarget⟩

theorem leads_tasks {relations : List Relation} {ok : List RelationSharingTask → Unit → Prop}
    (hrs : ∀ r ∈ relations, r.RefersTo D) (hok : ∀ tasks, ok tasks ()) :
    (Service.tasks relations).Leads (referring D kept) ok (Fails kept) () := by
  refine Call.leads_bind.2 (Call.leads_orFail.2 ⟨mem_endIds hrs, ?_⟩)
  intro records hfound
  show Call.Leads (referring D kept) _ _ (Call.ofExcept (relations.mapM (Service.task records))) ()
  rw [Call.leads_ofExcept]
  cases htasks : relations.mapM (Service.task records) with
  | error e =>
    intro hkept
    obtain ⟨r, hr, he⟩ := exists_of_mapM_eq_error htasks
    exact isCorrupt_of_task (fun id hid => hfound hkept id (endIds_subset hr hid)) he
  | ok tasks => exact hok tasks

theorem leads_commitEach : ∀ {claims : List (Service.Claim × RelationSharingTask)}
    {events : List RelationEnvelope} {claimed : List RelationSharingTask},
    (∀ c ∈ claims, c.1.unit.RefersTo D) →
    (Service.commitEach events claimed claims).Leads (referring D kept) (fun _ _ => True)
      (Fails kept) ()
  | [], _, _, _ => Call.leads_bind.2 (leads_publish trivial)
  | (claim, task) :: rest, events, claimed, hclaims => by
    obtain ⟨hfirst, hrest⟩ := List.forall_mem_cons.1 hclaims
    refine Call.leads_bind.2 (Call.leads_lift.2 (leads_commit hfirst (leads_commitEach hrest) ?_))
    intro e he
    cases e with
    | concurrency reason =>
      exact Call.leads_bind.2 (Call.leads_log.2 fun _ => leads_commitEach hrest)
    | corrupt reason => cases he
    | _ => exact Call.leads_bind.2 (leads_publish fun _ => rfl)

theorem leads_claim {limit : Nat} : (Service.claim limit).Leads (referring D kept)
    (fun _ _ => True) (Fails kept) () := by
  refine Call.leads_reported_of_idle idle ?_
  split
  · exact trivial
  · refine Call.leads_bind.2 (Call.leads_now.2 fun at_ => Call.leads_bind.2
      (Call.leads_orFail.2 ?_))
    intro candidates hcandidates
    refine Call.leads_bind.2 (Call.leads_mono ?_ (fun _ _ he => he)
      (leads_startEach hcandidates))
    intro claims _ hclaims
    refine Call.leads_bind.2 (leads_tasks (List.forall_mem_map.2 fun c hc => (hclaims c hc).1) ?_)
    intro tasks
    exact leads_commitEach fun c hc => (hclaims _ (List.of_mem_zip hc).1).2

/-! ## All calls -/

theorem leads_write (c : WriteCall) :
    c.call.Leads (referring D kept) (fun _ _ => True) (fun _ _ => True) () := by
  cases c with
  | batch kind requests =>
    exact Call.leads_batchCall idle (fun _ => leads_batch kind requests) trivial
  | delete tenant externalId => exact leads_delete

end Referring

/-- A claim among a ledger that keeps what it had has no outcome of a missing record. -/
def ServiceCall.Trusts (kept : Prop) : (c : ServiceCall) → Except RelationError c.Result → Prop
  | .claim _, .error e => kept → e.isCorrupt = false
  | _, _ => True

/-- Every call stores only what refers to records that it learnt of, and a claim finds
the records that it asks for. -/
theorem ServiceCall.leads_referring (c : ServiceCall) (D : Directory) (kept : Prop) :
    c.call.run.Leads (referring D kept) (fun outcome _ => c.Trusts kept outcome) () := by
  cases c with
  | write c => exact Program.leads_mono (fun _ _ _ => trivial) (Referring.leads_write c)
  | claim limit =>
    refine Program.leads_mono ?_ Referring.leads_claim
    rintro (e | tasks) _ hout
    · exact hout
    · trivial
  | find tenant externalId => exact Program.leads_bind.2 fun _ _ => trivial
  | _ =>
    refine Program.leads_mono (fun _ _ _ => trivial) (Call.leads_reported_of_idle Referring.idle
      (Call.leads_orFail.2 ?_) : Call.Leads _ (fun _ _ => True) (fun _ _ => True) _ _)
    rintro (e | page) <;> trivial

end PartnerRelations
