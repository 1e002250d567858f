/-
# `Proofs.Service.Upkeep` — what entries keep, proved once for all surroundings

Each entry of a batch looks a name up, resolves partners, may draw an
identifier, and gives one command.  Whatever a proof wants to hold of the unit
of work between entries (`Held`), it is kept by every entry if it is kept by
those steps.  `Upkeep` lists the steps:

    known     finding a name in the unit
    lookup    looking a name up that the unit does not know
    name      drawing a name for an entry that gives none
    draw      drawing an identifier for a new relation under a free name
    partners  asking the ledger for the partners of a tenant's name
    create    the events of a creation on that relation
    amend     the events of any other command, deletions apart

and `leads_entry` is the statement for entries of every kind.  Which tenants and names
may be asked for is left open too (`Within`, `Named`).  `leads_handleEach` carries it over
the entries, and `leads_batch` over the whole batch, given how its end goes.  Deletions do
not occur in batches; a deletion handles one entry, and its unit may be kept to less.
-/
import PartnerRelations.Proofs.Relation.Ends
import PartnerRelations.Proofs.Service.Catalogue
import PartnerRelations.Proofs.UnitOfWork.Tracking

namespace PartnerRelations

/-- The failure of a call whose changes are stored already. -/
def RelationError.isPublish : RelationError → Bool
  | .publish _ => true
  | _ => false

theorem RelationError.isPublish_ofDomain (externalId : ExternalId) (e : DomainError) :
    (ofDomain externalId e).isPublish = false := by
  cases e <;> rfl

theorem RelationError.isPublish_ofStore (e : StoreError) : (ofStore e).isPublish = false := by
  cases e <;> rfl

theorem RelationError.isPublish_ofLedger (e : LedgerError) : (ofLedger e).isPublish = false := by
  cases e with
  | ambiguous => rfl
  | store e => exact isPublish_ofStore e

variable {σ : Type} {S : Surroundings Query.Answer σ} {err : RelationError → σ → Prop}

/-- What entries keep of a unit of work, step by step. -/
structure Upkeep (S : Surroundings Query.Answer σ) (err : RelationError → σ → Prop) where
  Held : UnitOfWork → σ → Prop
  /-- The relation is what the unit has under its name. -/
  Shown : Relation → UnitOfWork → σ → Prop
  /-- Nothing is there under the name, as far as the unit can see. -/
  Free : RelationKey → UnitOfWork → σ → Prop
  /-- The identifier was drawn for a relation under a free name. -/
  Drawn : RelationKey → RelationId → UnitOfWork → σ → Prop
  /-- The tenant's relations and partners may be looked up. -/
  Within : TenantBpnl → Prop
  /-- The name may be looked up. -/
  Named : ExternalId → Prop
  /-- The ledger resolves a name of the tenant to the partner. -/
  Resolved : TenantBpnl → ResolvedPartner → Prop
  idle : S.Idle
  fail : ∀ {u s e}, Held u s → e.isPublish = false → err e s
  known : ∀ {u s key t}, Held u s → u.find? key = some t →
    if t.relation.isCreated then Shown t.relation u s else Free key u s
  within : ∀ {u s r}, Held u s → Shown r u s → Within r.tenant
  lookup : ∀ {u s key}, Held u s → Within key.tenant → Named key.externalId → u.find? key = none →
    S.meets (.findByKey key) (fun x s =>
      match x with
      | .error e => err (.ofStore e) s
      | .ok none => Held u s ∧ Free key u s
      | .ok (some r) => Held (u.attach r) s ∧ Shown r (u.attach r) s) s
  name : ∀ {u s}, Held u s → S.meets (.freshId .externalId)
    (fun x s => Held u s ∧ ∀ tenant, Within tenant →
      Free ⟨tenant, Key.ofUuid .externalId x⟩ u s) s
  draw : ∀ {u s key}, Held u s → Free key u s →
    S.meets (.freshId .relation) (fun x s => Held u s ∧ Drawn key ⟨x⟩ u s) s
  partners : ∀ {tenant name s} {wanted : Except StoreError (List SharingStateRecord) → σ → Prop},
    Within tenant → (∀ e, wanted (.error e) s) →
    (∀ records, (∀ r ∈ records, Resolved tenant r.resolved) → wanted (.ok records) s) →
    S.meets (.partnerRecords tenant name) wanted s
  create : ∀ {u s key id command es envelopes}, Held u s → Drawn key id u s →
    (Relation.empty id key.tenant key.externalId).handle command = .ok es →
    RelationCommand.isDelete command = false →
    (∀ p ∈ RelationCommand.ends command, Resolved key.tenant p) →
    Carries (.empty id key.tenant key.externalId) 0 es envelopes →
    Held (u.record (.empty id key.tenant key.externalId) es envelopes) s
  amend : ∀ {u s r command es envelopes}, Held u s → Shown r u s →
    Relation.handle r command = .ok es → r.isCreated = true →
    RelationCommand.isDelete command = false →
    (∀ p ∈ RelationCommand.ends command, Resolved r.tenant p) → Carries r r.version es envelopes →
    Held (u.record r es envelopes) s

namespace Call

variable {u : UnitOfWork} {s : σ}

theorem leads_loadExisting {key : RelationKey} {ok : Relation × UnitOfWork → σ → Prop}
    (h : (load u key).Leads S (fun found s =>
      match found.1 with
      | some r => ok (r, found.2) s
      | none => err (.notFound key.externalId) s) err s) :
    (loadExisting u key).Leads S ok err s := by
  refine leads_bind.2 (leads_mono ?_ (fun _ _ he => he) h)
  rintro ⟨_ | r, u'⟩ s' hs <;> exact hs

/-- A reported call ends as the call does. -/
theorem leads_reported_of_idle (idle : S.Idle) {α : Type} {c : Call α} {ok : α → σ → Prop}
    (h : c.Leads S ok err s) : c.reported.Leads S ok err s :=
  leads_reported.2 (leads_mono (fun _ _ h => h) (fun _ _ he => idle _ rfl _ _ fun _ => he) h)

/-- Publishing reports what it does, before and after. -/
theorem leads_publish (idle : S.Idle) {events : List RelationEnvelope} {ok : Unit → σ → Prop}
    (h : (publishEach events).Leads S ok err s) : (publish events).Leads S ok err s := by
  have hlogs : ∀ (xs : List RelationEnvelope) {ok : PUnit → σ → Prop}, ok ⟨⟩ s →
      (xs.forM fun e => log (.eventCommitted e.payload.eventType e.aggregateId)).Leads
        S ok err s := by
    intro xs ok h
    induction xs with
    | nil => exact h
    | cons x xs ih => exact leads_bind.2 (leads_log.2 (idle _ rfl _ _ fun _ => ih))
  unfold publish
  split
  · next hnil =>
    obtain rfl := List.isEmpty_iff.1 hnil
    exact h
  · refine leads_bind.2 (hlogs events (leads_bind.2 (leads_mono ?_ (fun _ _ he => he) h)))
    intro _ s' hok
    exact leads_log.2 (idle _ rfl _ _ fun _ => hok)

/-- Where anybody may publish and nothing comes of it, publishing may end in any way. -/
theorem leads_publish_free (idle : S.Idle) {events : List RelationEnvelope}
    {ok : Unit → σ → Prop} (free : ∀ (envelope : RelationEnvelope)
      (wanted : Except String Unit → σ → Prop), (∀ x, wanted x s) →
        S.meets (.publish envelope) wanted s)
    (hok : ok () s) (herr : ∀ reason, err (.publish reason) s) :
    (publish events).Leads S ok err s := by
  refine leads_publish idle ?_
  induction events with
  | nil => exact hok
  | cons x xs ih =>
    refine leads_bind.2 (leads_orFail.2 (free _ _ ?_))
    rintro (reason | _)
    · exact herr reason
    · exact ih

/-- A deletion looks one name up, and ends as the unit does that has deleted what was
found. -/
theorem leads_delete (idle : S.Idle) {tenant : TenantBpnl} {externalId : ExternalId}
    {ok : Unit → σ → Prop}
    (h : ∀ at_, S.meets (.findByKey ⟨tenant, externalId⟩) (fun x s =>
      match x with
      | .error e => err (.ofStore e) s
      | .ok none => err (.notFound externalId) s
      | .ok (some r) => (∀ e, err (.ofDomain externalId e) s) ∧
        ∀ es envelopes, r.handle (.delete at_) = .ok es → Carries r r.version es envelopes →
          (finish ((UnitOfWork.empty.attach r).record r es envelopes)).Leads S ok err s) s) :
    (Service.delete tenant externalId).Leads S ok err s := by
  refine leads_reported_of_idle idle (leads_bind.2 (leads_bind.2 (leads_now.2
    (idle _ rfl _ _ fun at_ => leads_bind.2 (leads_bind.2 (leads_bind.2
      (leads_loadExisting (leads_load.2 (S.meets_mono ?_ (h at_))))))))))
  rintro (e | _ | r) s' hs
  · exact hs
  · exact hs
  · refine leads_execute idle (fun e _ => hs.1 e) fun es envelopes hes carries => ?_
    exact leads_bind.2 (leads_bind.2 (hs.2 es envelopes hes carries))

/-- An upsert that starts over is as ready as it was. -/
theorem leads_upsertAttempts (idle : S.Idle) {ready : σ → Prop} {tenant : TenantBpnl}
    {requests : List InputRelationUpsert} {ok : List Relation → σ → Prop}
    (attempt : ∀ {s}, ready s →
      (batch (Service.upsertEntry tenant) requests).Leads S ok (fun _ => ready) s) :
    ∀ {retries lost : Nat} {s : σ}, ready s →
      (Service.upsertAttempts tenant requests retries lost).Leads S ok (fun _ => ready) s
  | 0, _, _, hs => attempt hs
  | retries + 1, lost, s, hs => by
    refine leads_mk.2 (Program.leads_bind.2 (Program.leads_mono ?_ (attempt hs)))
    rintro (e | relations) s' hout
    · cases e with
      | alreadyExists externalId =>
        exact Program.leads_bind.2 (idle _ rfl _ _ fun _ => leads_upsertAttempts idle attempt hout)
      | _ => exact hout
    · exact hout

/-- A call with a batch ends as the batch does, if a failed one leaves it as ready as it
was. -/
theorem leads_batchCall (idle : S.Idle) {ready : σ → Prop} {kind : BatchKind}
    {requests : List kind.Request} {ok : List Relation → σ → Prop}
    (attempt : ∀ {s}, ready s → (batch kind.entry requests).Leads S ok (fun _ => ready) s)
    (hs : ready s) : (kind.call requests).Leads S ok (fun _ => ready) s := by
  cases kind with
  | upsert settings tenant =>
    exact leads_reported_of_idle idle (leads_upsertAttempts idle attempt hs)
  | _ => exact leads_reported_of_idle idle (attempt hs)

end Call

namespace Upkeep

variable (K : Upkeep S err) {at_ : Instant} {u : UnitOfWork} {s : σ}

theorem leads_load {key : RelationKey} (held : K.Held u s) (within : K.Within key.tenant)
    (named : K.Named key.externalId) :
    (Call.load u key).Leads S (fun found s => K.Held found.2 s ∧
      match found.1 with
      | some r => K.Shown r found.2 s
      | none => found.2 = u ∧ K.Free key u s) err s := by
  rw [Call.leads_load]
  cases hf : u.find? key with
  | some t =>
    have hk := K.known held hf
    cases hr : t.relation.isCreated <;> simpa [hr, held] using hk
  | none =>
    refine S.meets_mono ?_ (K.lookup held within named hf)
    rintro (e | _ | r) s' h
    · exact h
    · exact ⟨h.1, rfl, h.2⟩
    · exact h

theorem leads_resolve {tenant : TenantBpnl} {missing : ExternalId → RelationError}
    {name : ExternalId} {ok : ResolvedPartner → σ → Prop} (held : K.Held u s)
    (within : K.Within tenant) (hmissing : (missing name).isPublish = false)
    (resolved : ∀ p, K.Resolved tenant p → ok p s) :
    (Service.resolve tenant missing name).Leads S ok err s := by
  refine Call.leads_bind.2 (Call.leads_orFail.2 (Program.leads_bind.2 (K.partners within ?_ ?_)))
  · intro e
    exact K.fail held (RelationError.isPublish_ofStore e)
  · intro records hrecords
    match records with
    | [] => exact K.fail held hmissing
    | [record] => exact resolved _ (hrecords record (List.mem_singleton.2 rfl))
    | _ :: _ :: _ =>
      exact Program.leads_bind.2 (K.idle _ rfl _ _ fun _ =>
        K.fail held (RelationError.isPublish_ofLedger _))

/-- Both ends of an input are partners that the ledger knows. -/
theorem leads_resolveEnds {tenant : TenantBpnl} {source target : ExternalId}
    {ok : ResolvedPartner × ResolvedPartner → σ → Prop} (held : K.Held u s)
    (within : K.Within tenant)
    (resolved : ∀ ends, K.Resolved tenant ends.1 → K.Resolved tenant ends.2 → ok ends s) :
    (Service.resolveEnds tenant source target).Leads S ok err s := by
  unfold Service.resolveEnds Service.ensureDistinct
  refine Call.leads_bind.2 ?_
  split
  · exact K.fail held rfl
  · refine Call.leads_bind.2 (K.leads_resolve held within rfl fun source' hsource => ?_)
    exact Call.leads_bind.2 (K.leads_resolve held within rfl fun target' htarget =>
      resolved _ hsource htarget)

theorem leads_createEntry {tenant : TenantBpnl} {request : InputRelationUpsert}
    (held : K.Held u s) (within : K.Within tenant)
    (free : K.Free ⟨tenant, request.externalId⟩ u s) :
    (Service.createEntry tenant at_ u request).Leads S (fun out => K.Held out.2) err s := by
  refine Call.leads_bind.2 (K.leads_resolveEnds held within ?_)
  intro ends hsource htarget
  refine Call.leads_bind.2 (Call.leads_freshId.2 (S.meets_mono ?_ (K.draw held free)))
  rintro id s' ⟨held', drawn⟩
  refine Call.leads_bind.2 (Call.leads_execute K.idle
    (fun e _ => K.fail held' (RelationError.isPublish_ofDomain _ e)) ?_)
  intro es envelopes h carries
  exact Call.leads_bind.2 (Call.leads_log.2 (K.idle _ rfl _ _ fun _ =>
    K.create held' drawn h rfl (by simp [RelationCommand.ends, hsource, htarget]) carries))

theorem leads_updateEntry {existing : Relation} {request : InputRelationUpsert}
    (held : K.Held u s) (shown : K.Shown existing u s) :
    (Service.updateEntry existing at_ u request).Leads S (fun out => K.Held out.2) err s := by
  refine Call.leads_bind.2 (K.leads_resolveEnds held (K.within held shown) ?_)
  intro ends hsource htarget
  refine Call.leads_bind.2 (Call.leads_execute K.idle
    (fun e _ => K.fail held (RelationError.isPublish_ofDomain _ e)) ?_)
  intro es envelopes h carries
  have held' := K.amend held shown h (Relation.isCreated_of_handle h rfl) rfl
    (by simp [RelationCommand.ends, hsource, htarget]) carries
  dsimp only
  split
  · exact Call.leads_bind.2 (Call.leads_log.2 (K.idle _ rfl _ _ fun _ => held'))
  · exact held'

/-- A command on a relation that has to be there. -/
theorem leads_onExisting {key : RelationKey} {externalId : ExternalId} {command : RelationCommand}
    (held : K.Held u s) (within : K.Within key.tenant) (named : K.Named key.externalId)
    (hcreate : command.isCreate = false) (hdelete : command.isDelete = false)
    (hends : command.ends = []) :
    (do
      let (relation, u) ← Call.loadExisting u key
      Call.execute u externalId relation command : Call (Relation × UnitOfWork)).Leads S
        (fun out => K.Held out.2) err s := by
  refine Call.leads_bind.2 (Call.leads_loadExisting (Call.leads_mono ?_ (fun _ _ he => he)
    (K.leads_load held within named)))
  rintro ⟨_ | r, u'⟩ s' ⟨held', shown⟩
  · exact K.fail held' rfl
  · refine Call.leads_execute K.idle
      (fun e _ => K.fail held' (RelationError.isPublish_ofDomain _ e)) ?_
    intro es envelopes h carries
    exact K.amend held' shown h (Relation.isCreated_of_handle h hcreate) hdelete
      (by simp [hends]) carries

theorem leads_newEntry {tenant : TenantBpnl} {request : NewInputRelation}
    (held : K.Held u s) (within : K.Within tenant)
    (named : ∀ name ∈ request.externalId, K.Named name) :
    (Service.newEntry tenant at_ u request).Leads S (fun out => K.Held out.2) err s := by
  unfold Service.newEntry
  cases hname : request.externalId with
  | some name =>
    refine Call.leads_bind.2 (Call.leads_mono ?_ (fun _ _ he => he)
      (K.leads_load held within (named name hname)))
    rintro ⟨_ | r, u'⟩ s' ⟨held', shown⟩
    · obtain ⟨rfl, free⟩ := shown
      exact K.leads_createEntry held' within free
    · exact K.fail held' rfl
  | none =>
    refine Call.leads_bind.2 (Call.leads_freshId.2 (S.meets_mono ?_ (K.name held)))
    rintro x s' ⟨held', free⟩
    exact K.leads_createEntry held' within (free tenant within)

theorem leads_upsertEntry {tenant : TenantBpnl} {request : InputRelationUpsert}
    (held : K.Held u s) (within : K.Within tenant) (named : K.Named request.externalId) :
    (Service.upsertEntry tenant at_ u request).Leads S (fun out => K.Held out.2) err s := by
  refine Call.leads_bind.2 (Call.leads_mono ?_ (fun _ _ he => he) (K.leads_load held within named))
  rintro ⟨_ | r, u'⟩ s' ⟨held', shown⟩
  · obtain ⟨rfl, free⟩ := shown
    exact K.leads_createEntry held' within free
  · exact K.leads_updateEntry held' shown

theorem leads_existingEntry {tenant : TenantBpnl} {request : InputRelationUpsert}
    (held : K.Held u s) (within : K.Within tenant) (named : K.Named request.externalId) :
    (Service.existingEntry tenant at_ u request).Leads S (fun out => K.Held out.2) err s := by
  refine Call.leads_bind.2 (Call.leads_loadExisting (Call.leads_mono ?_ (fun _ _ he => he)
    (K.leads_load held within named)))
  rintro ⟨_ | r, u'⟩ s' ⟨held', shown⟩
  · exact K.fail held' rfl
  · exact K.leads_updateEntry held' shown

/-- Entries of every kind keep what each of their steps keeps. -/
theorem leads_entry {kind : BatchKind} {request : kind.Request} (held : K.Held u s)
    (within : K.Within (kind.tenant request)) (named : ∀ name ∈ kind.named request, K.Named name) :
    (kind.entry at_ u request).Leads S (fun out => K.Held out.2) err s := by
  cases kind with
  | create tenant => exact K.leads_newEntry held within named
  | upsert settings tenant => exact K.leads_upsertEntry held within (named _ rfl)
  | update tenant => exact K.leads_existingEntry held within (named _ rfl)
  | output =>
    show (Service.outputEntry at_ u request).Leads S _ err s
    unfold Service.outputEntry
    dsimp only
    split
    · exact K.fail held rfl
    · exact K.leads_onExisting held within (named _ rfl) rfl rfl rfl
  | report => exact K.leads_onExisting held within (named _ rfl) rfl rfl rfl

theorem leads_handleEach {kind : BatchKind} : ∀ {requests : List kind.Request} {u : UnitOfWork}
    {s : σ}, K.Held u s → (∀ request ∈ requests, K.Within (kind.tenant request)) →
      (∀ name ∈ requests.filterMap kind.named, K.Named name) →
      (Call.handleEach kind.entry at_ u requests).Leads S (fun out => K.Held out.2) err s
  | [], _, _, held, _, _ => held
  | request :: rest, _, _, held, within, named => by
    obtain ⟨hwithin, within⟩ := List.forall_mem_cons.1 within
    have hnamed : ∀ name ∈ kind.named request, K.Named name := by
      intro name hname
      exact named name (List.mem_filterMap.2 ⟨request, List.mem_cons_self .., hname⟩)
    have hrest : ∀ name ∈ rest.filterMap kind.named, K.Named name := by
      intro name hname
      obtain ⟨r, hr, hrn⟩ := List.mem_filterMap.1 hname
      exact named name (List.mem_filterMap.2 ⟨r, List.mem_cons_of_mem _ hr, hrn⟩)
    refine Call.leads_bind.2 (Call.leads_mono ?_ (fun _ _ he => he)
      (K.leads_entry held hwithin hnamed))
    intro out s' held'
    exact Call.leads_bind.2 (Call.leads_mono (fun _ _ h => h) (fun _ _ he => he)
      (leads_handleEach held' within hrest))

/-- A batch keeps what its entries keep, if its end does. -/
theorem leads_batch {kind : BatchKind} {requests : List kind.Request}
    {ok : List Relation → σ → Prop} (held : K.Held .empty s)
    (within : ∀ request ∈ requests, K.Within (kind.tenant request))
    (named : ∀ name ∈ requests.filterMap kind.named, K.Named name)
    (finish : ∀ {u s} relations, K.Held u s →
      (Call.finish u).Leads S (fun _ => ok relations) err s) :
    (Call.batch kind.entry requests).Leads S ok err s := by
  refine Call.leads_bind.2 (Call.leads_now.2 (K.idle _ rfl _ _ fun at_ => Call.leads_bind.2 ?_))
  refine Call.leads_mono ?_ (fun _ _ he => he) (K.leads_handleEach held within named)
  rintro ⟨relations, u⟩ s' held'
  exact Call.leads_bind.2 (finish relations held')

end Upkeep

end PartnerRelations
