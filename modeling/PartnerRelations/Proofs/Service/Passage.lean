/-
# `Proofs.Service.Passage` — a batch of upserts, entry by entry

The collaborators are honest here (`Turn.Honest`): every answer is one that some world
gives whose tables agree.  The worlds may differ from one query to the next, so others
may write as they like in between.

Each entry has its own part of the conversation.  What it read there, and the unit of
work before it, tell the unit after it (`Enters`):

    it takes its name up: as the unit knows it, as the store shows it, or as free
    it resolves its two ends, each to the one record that the ledger has
    it gives the one command that asks for its values

`Passed` says what comes of a list of entries.  A relation that the unit has at the end
has what the last entry of its name asked for, with the ends that this entry resolved; it
keeps the identifier that the store showed under its name; and it is new only if the
store showed nothing.  One entry has passed so (`passed_of_enters`), and lists that have
may be put one after the other (`Passed.append`).
-/
import PartnerRelations.Proofs.Relation.Effect
import PartnerRelations.Proofs.Service.Decision

namespace PartnerRelations

open Program (Conversation)

/-! ## Honest collaborators -/

/-- The answer is that of a world whose tables agree and show what is there. -/
def Turn.Honest (t : Turn) : Prop :=
  ∃ (supply : Nat → Uuid) (w : World), w.tables.Sound ∧ w.tables.Live ∧
    (w.answer supply t.request).1 = t.answer

/-- What is found has the name and is there. -/
theorem Turn.Honest.findByKey {key : RelationKey} {x : Except StoreError (Option Relation)}
    (h : Turn.Honest ⟨.findByKey key, x⟩) :
    ∃ found, x = .ok found ∧ ∀ r ∈ found, r.key = key ∧ r.isCreated = true := by
  obtain ⟨supply, w, hs, hl, hx⟩ := h
  exact ⟨_, hx.symm, fun r hr => ⟨(hs.find?_eq_some.1 hr).2, hl hr⟩⟩

theorem Turn.Honest.partnerRecords {tenant : TenantBpnl} {name : ExternalId}
    {x : Except StoreError (List SharingStateRecord)}
    (h : Turn.Honest ⟨.partnerRecords tenant name, x⟩) : ∃ records, x = .ok records := by
  obtain ⟨supply, w, -, -, hx⟩ := h
  exact ⟨_, hx.symm⟩

/-! ## What is read -/

/-- A query for what is stored under a name, or for what is known of a partner. -/
def Query.isReading : Query → Bool
  | .findByKey _ => true
  | .partnerRecords _ _ => true
  | _ => false

/-- What was read in a conversation. -/
def readings (h : List Turn) : List Turn := h.filter (·.request.isReading)

theorem mem_of_mem_readings {t : Turn} {h : List Turn} (ht : t ∈ readings h) : t ∈ h :=
  List.mem_of_mem_filter ht

theorem mem_readings {t : Turn} {h : List Turn} (hread : t.request.isReading = true) :
    t ∈ readings h ↔ t ∈ h := by
  rw [readings, List.mem_filter, and_iff_left hread]

/-- Surroundings that answer as is admitted; their state is what was read so far. -/
def noting (admits : Turn → Prop) : Surroundings Query.Answer (List Turn) where
  meets request wanted noted := ∀ x, admits ⟨request, x⟩ →
    wanted x (noted ++ readings [⟨request, x⟩])
  meets_mono hmono h x hx := hmono _ _ (h x hx)

theorem idle_noting (admits : Turn → Prop) : (noting admits).Idle := by
  intro q hq wanted noted h x _
  have hnone : readings [⟨q, x⟩] = [] := by
    cases q <;> first | rfl | cases hq
  rw [hnone, List.append_nil]
  exact h x

theorem Program.Conversation.of_leads_noting {α : Type} {admits : Turn → Prop}
    {post : α → List Turn → Prop} {p : Dialogue α} {h : List Turn} {a : α}
    (hconv : p.Conversation h a) : ∀ {noted : List Turn}, (∀ t ∈ h, admits t) →
      p.Leads (noting admits) post noted → post a (noted ++ readings h) := by
  induction hconv with
  | done a =>
    intro noted _ hp
    simpa [readings] using hp
  | @ask request next x rest a _ ih =>
    intro noted hadmits hp
    obtain ⟨hx, hrest⟩ := List.forall_mem_cons.1 hadmits
    have := ih hrest (hp x hx)
    rwa [List.append_assoc, readings, readings, ← List.filter_append] at this

/-! ## One entry -/

/-- How an entry takes a name up: what it reads for that, the relation as the unit then
has it, and the unit. -/
inductive Begins (key : RelationKey) (u : UnitOfWork) : List Turn → Tracked → UnitOfWork → Prop
  | known {t : Tracked} : u.find? key = some t → Begins key u [] t u
  | found {r : Relation} : u.find? key = none → r.key = key → r.isCreated = true →
      Begins key u [⟨.findByKey key, .ok (some r)⟩] ⟨some r.version, r, false⟩ (u.attach r)
  | free {id : RelationId} : u.find? key = none →
      Begins key u [⟨.findByKey key, .ok none⟩]
        ⟨none, .empty id key.tenant key.externalId, false⟩ u

/-- What an upsert reads to resolve its ends. -/
def resolved (tenant : TenantBpnl) (request : InputRelationUpsert)
    (source target : SharingStateRecord) : List Turn :=
  [⟨.partnerRecords tenant request.sourceExternalId, .ok [source]⟩,
    ⟨.partnerRecords tenant request.targetExternalId, .ok [target]⟩]

/-- What an upsert reads, and what becomes of the unit of work. -/
inductive Enters (tenant : TenantBpnl) (request : InputRelationUpsert) (u : UnitOfWork) :
    List Turn → UnitOfWork → Prop
  | mk {lookups : List Turn} {t : Tracked} {base : UnitOfWork}
      {source target : SharingStateRecord} {command : RelationCommand}
      {es : List RelationEvent} {envelopes : List RelationEnvelope} :
      Begins ⟨tenant, request.externalId⟩ u lookups t base →
      t.relation.handle command = .ok es →
      command.stageValues = some ⟨request.relationType, source.id, target.id⟩ →
      Enters tenant request u (lookups ++ resolved tenant request source target)
        (base.record t.relation es envelopes)

/-- No name is remembered twice, and every relation is there. -/
structure UnitOfWork.Kept (u : UnitOfWork) : Prop where
  distinct : u.Distinct
  created : ∀ t ∈ u.tracked, t.relation.isCreated = true

theorem UnitOfWork.kept_empty : UnitOfWork.empty.Kept := ⟨distinct_empty, by simp [empty]⟩

section Leads

variable {tenant : TenantBpnl} {request : InputRelationUpsert} {at_ : Instant} {u base : UnitOfWork}
  {noted lookups : List Turn} {t : Tracked}

/-- A name of a partner is resolved to its one record, which was read. -/
theorem leads_resolve_noting {missing : ExternalId → RelationError} {name : ExternalId}
    (hmissing : (missing name).isTaken = false) :
    (Service.resolve tenant missing name).Leads (noting Turn.Honest)
      (fun partner noted' => ∃ record, partner = SharingStateRecord.resolved record ∧
        noted' = noted ++ [⟨.partnerRecords tenant name, .ok [record]⟩])
      (fun e _ => e.isTaken = false) noted := by
  refine Call.leads_bind.2 (Call.leads_orFail.2 (Program.leads_bind.2 ?_))
  intro x hx
  obtain ⟨records, rfl⟩ := hx.partnerRecords
  match records with
  | [] => exact hmissing
  | [record] => exact ⟨record, rfl, rfl⟩
  | _ :: _ :: _ => exact Program.leads_bind.2 (idle_noting _ _ rfl _ _ fun _ => rfl)

theorem leads_resolveEnds_noting :
    (Service.resolveEnds tenant request.sourceExternalId request.targetExternalId).Leads
      (noting Turn.Honest)
      (fun ends noted' => ∃ source target : SharingStateRecord,
        ends = (source.resolved, target.resolved) ∧
        noted' = noted ++ resolved tenant request source target)
      (fun e _ => e.isTaken = false) noted := by
  unfold Service.resolveEnds Service.ensureDistinct
  refine Call.leads_bind.2 ?_
  split
  · exact (rfl : (RelationError.invalidRelation _).isTaken = false)
  · refine Call.leads_bind.2 (Call.leads_mono ?_ (fun _ _ he => he) (leads_resolve_noting rfl))
    rintro _ _ ⟨source, rfl, rfl⟩
    refine Call.leads_bind.2 (Call.leads_mono ?_ (fun _ _ he => he) (leads_resolve_noting rfl))
    rintro _ _ ⟨target, rfl, rfl⟩
    exact ⟨source, target, rfl, List.append_assoc ..⟩

/-- What the end of an entry reads joins what it read to take its name up. -/
theorem leads_createEntry_noting (hf : u.find? ⟨tenant, request.externalId⟩ = none) :
    (Service.createEntry tenant at_ u request).Leads (noting Turn.Honest)
      (fun out noted' => ∃ read, noted' = noted ++ read ∧ Enters tenant request u
        (⟨.findByKey ⟨tenant, request.externalId⟩, .ok none⟩ :: read) out.2)
      (fun e _ => e.isTaken = false) noted := by
  refine Call.leads_bind.2 (Call.leads_mono ?_ (fun _ _ he => he) leads_resolveEnds_noting)
  rintro _ noted' ⟨source, target, rfl, rfl⟩
  refine Call.leads_bind.2 (Call.leads_freshId.2 fun id _ => ?_)
  refine Call.leads_bind.2 (Call.leads_execute (idle_noting _)
    (fun e _ => RelationError.isTaken_ofDomain _ e) ?_)
  intro es envelopes haccepted _
  refine Call.leads_bind.2 (Call.leads_log.2 (idle_noting _ _ rfl _ _ fun _ => ?_))
  exact ⟨resolved tenant request source target, List.append_nil _,
    .mk (.free hf) haccepted rfl⟩

theorem leads_updateEntry_noting {existing : Relation} (hexisting : existing = t.relation)
    (hbegins : Begins ⟨tenant, request.externalId⟩ u lookups t base)
    (htenant : existing.tenant = tenant) :
    (Service.updateEntry existing at_ base request).Leads (noting Turn.Honest)
      (fun out noted' => ∃ read, noted' = noted ++ read ∧
        Enters tenant request u (lookups ++ read) out.2)
      (fun e _ => e.isTaken = false) noted := by
  unfold Service.updateEntry
  subst hexisting
  rw [htenant]
  refine Call.leads_bind.2 (Call.leads_mono ?_ (fun _ _ he => he) leads_resolveEnds_noting)
  rintro _ noted' ⟨source, target, rfl, rfl⟩
  refine Call.leads_bind.2 (Call.leads_execute (idle_noting _)
    (fun e _ => RelationError.isTaken_ofDomain _ e) ?_)
  intro es envelopes haccepted _
  have hout : ∃ read, noted ++ resolved tenant request source target = noted ++ read ∧
      Enters tenant request u (lookups ++ read) (base.record t.relation es envelopes) :=
    ⟨_, rfl, .mk hbegins haccepted rfl⟩
  dsimp only
  split
  · exact Call.leads_bind.2 (Call.leads_log.2 (idle_noting _ _ rfl _ _ fun _ => hout))
  · exact hout

/-- An upsert enters as its readings tell, or fails, but not on a name that is taken. -/
theorem leads_upsertEntry_noting (hu : u.Kept) :
    (Service.upsertEntry tenant at_ u request).Leads (noting Turn.Honest)
      (fun out noted' => ∃ read, noted' = noted ++ read ∧ Enters tenant request u read out.2)
      (fun e _ => e.isTaken = false) noted := by
  refine Call.leads_bind.2 (Call.leads_load.2 ?_)
  cases hf : u.find? ⟨tenant, request.externalId⟩ with
  | some t =>
    obtain ⟨ht, hkey⟩ := UnitOfWork.mem_of_find? hf
    simp only [hu.created t ht, if_true]
    exact leads_updateEntry_noting rfl (.known hf) (congrArg RelationKey.tenant hkey)
  | none =>
    intro x hx
    obtain ⟨found, rfl, hfound⟩ := hx.findByKey
    cases found with
    | none =>
      refine Call.leads_mono ?_ (fun _ _ he => he) (leads_createEntry_noting hf)
      rintro out _ ⟨read, rfl, henters⟩
      exact ⟨_, List.append_assoc .., henters⟩
    | some r =>
      obtain ⟨hkey, hr⟩ := hfound r rfl
      refine Call.leads_mono ?_ (fun _ _ he => he)
        (leads_updateEntry_noting rfl (.found hf hkey hr) (congrArg RelationKey.tenant hkey))
      rintro out _ ⟨read, rfl, henters⟩
      exact ⟨_, List.append_assoc .., henters⟩

end Leads

/-! ## What comes of entries -/

/-- An entry with its part of the conversation. -/
abbrev Part := InputRelationUpsert × List Turn

/-- No later part is about the same name. -/
def IsLast (parts : List Part) (part : Part) : Prop :=
  ∃ before later, parts = before ++ part :: later ∧
    ∀ p ∈ later, p.1.externalId ≠ part.1.externalId

/-- The relation has what the entry asked for, with the ends that it resolved. -/
structure Asserts (tenant : TenantBpnl) (part : Part) (r : Relation) : Prop where
  key : r.key = ⟨tenant, part.1.externalId⟩
  stage : ∃ source target stage,
    ⟨.partnerRecords tenant part.1.sourceExternalId, .ok [source]⟩ ∈ part.2 ∧
    ⟨.partnerRecords tenant part.1.targetExternalId, .ok [target]⟩ ∈ part.2 ∧
    r.input = some stage ∧ stage.values = ⟨part.1.relationType, source.id, target.id⟩

/-- What has come of a unit of work after a list of entries. -/
structure Passed (tenant : TenantBpnl) (u : UnitOfWork) (parts : List Part) (u' : UnitOfWork) :
    Prop where
  kept : u'.Kept
  /-- The last entry of a name decides; what no entry names is as it was. -/
  last : ∀ t ∈ u'.tracked, (∃ part, IsLast parts part ∧ Asserts tenant part t.relation) ∨
    t ∈ u.tracked ∧ ∀ p ∈ parts, t.relation.key ≠ ⟨tenant, p.1.externalId⟩
  /-- What is new was new before, or was looked up and not found. -/
  fresh : ∀ t ∈ u'.tracked, t.persisted = none →
    (∃ old ∈ u.tracked, old.relation.key = t.relation.key ∧ old.persisted = none) ∨
    ⟨.findByKey t.relation.key, .ok none⟩ ∈ parts.flatMap Prod.snd
  /-- A name keeps its identifier. -/
  stays : ∀ t ∈ u.tracked, ∃ t' ∈ u'.tracked, t'.relation.key = t.relation.key ∧
    t'.relation.id = t.relation.id
  /-- What is found has its identifier from then on. -/
  found : ∀ key r, ⟨.findByKey key, .ok (some r)⟩ ∈ parts.flatMap Prod.snd →
    ∃ t ∈ u'.tracked, t.relation.key = key ∧ t.relation.id = r.id

section Begins

variable {key : RelationKey} {u base : UnitOfWork} {lookups : List Turn} {t t' : Tracked}
  {es : List RelationEvent} {envelopes : List RelationEnvelope}

theorem Begins.key_eq (h : Begins key u lookups t base) : t.relation.key = key := by
  cases h with
  | known hf => exact (UnitOfWork.mem_of_find? hf).2
  | found _ hkey => exact hkey
  | free => rfl

/-- What was taken up goes on, and everything of another name is as it was. -/
theorem Begins.mem_record (h : Begins key u lookups t base) (hu : u.Distinct) :
    t' ∈ (base.record t.relation es envelopes).tracked ↔
      (t' ∈ u.tracked ∧ t'.relation.key ≠ key) ∨
      t' = { t with relation := t.relation.applyAll es, dirty := t.dirty || !es.isEmpty } := by
  have hkey := h.key_eq
  cases h with
  | known hf =>
    rw [hu.mem_record (UnitOfWork.mem_of_find? hf).1, hkey]
  | @found r hf =>
    obtain rfl : r.key = key := hkey
    have hmem : ⟨some r.version, r, false⟩ ∈ (u.attach r).tracked :=
      (UnitOfWork.mem_attach hf).2 (.inr rfl)
    rw [hu.attach.mem_record hmem, UnitOfWork.mem_attach hf, or_and_right]
    refine or_congr_left ⟨?_, .inl⟩
    rintro (h | ⟨rfl, hne⟩)
    · exact h
    · exact absurd rfl hne
  | free hf =>
    rw [UnitOfWork.mem_record_of_find?_none hf]
    exact or_congr_left ⟨fun ht => ⟨ht, UnitOfWork.find?_eq_none.1 hf t' ht⟩, And.left⟩

theorem Begins.distinct_record (h : Begins key u lookups t base) (hu : u.Distinct) :
    (base.record t.relation es envelopes).Distinct := by
  cases h with
  | known => exact hu.record
  | found => exact hu.attach.record
  | free => exact hu.record

/-- What the unit had under the name is what was taken up. -/
theorem Begins.eq_of_key_eq (h : Begins key u lookups t base) (hu : u.Distinct)
    (ht' : t' ∈ u.tracked) (hkey : t'.relation.key = key) : t' = t := by
  cases h with
  | known hf =>
    obtain ⟨ht, hk⟩ := UnitOfWork.mem_of_find? hf
    exact hu.eq_of_key_eq ht' ht (hkey.trans hk.symm)
  | found hf => exact absurd hkey (UnitOfWork.find?_eq_none.1 hf t' ht')
  | free hf => exact absurd hkey (UnitOfWork.find?_eq_none.1 hf t' ht')

end Begins

/-- A command for values of the input is no deletion. -/
theorem RelationCommand.isDelete_of_stageValues {command : RelationCommand} {values : StageValues}
    (h : command.stageValues = some values) : command.isDelete = false := by
  cases command with
  | delete => cases h
  | _ => rfl

section Passed

variable {tenant : TenantBpnl} {request : InputRelationUpsert} {u u' u'' : UnitOfWork}
  {segment : List Turn} {parts parts' : List Part}

/-- One entry has passed. -/
theorem passed_of_enters (hu : u.Kept) (henters : Enters tenant request u (readings segment) u') :
    Passed tenant u [(request, segment)] u' := by
  generalize hread : readings segment = read at henters
  cases henters with
  | @mk lookups t base source target command es envelopes hbegins haccepted hvalues =>
    have hsegment : ∀ turn ∈ lookups ++ resolved tenant request source target, turn ∈ segment :=
      fun turn hturn => mem_of_mem_readings (hread ▸ hturn)
    have hmem : ∀ t', t' ∈ (base.record t.relation es envelopes).tracked ↔
        (t' ∈ u.tracked ∧ t'.relation.key ≠ ⟨tenant, request.externalId⟩) ∨
        t' = { t with relation := t.relation.applyAll es, dirty := t.dirty || !es.isEmpty } :=
      fun _ => hbegins.mem_record hu.distinct
    have hkey : (t.relation.applyAll es).key = ⟨tenant, request.externalId⟩ :=
      (Relation.key_applyAll ..).trans hbegins.key_eq
    have hself := (hmem _).2 (.inr rfl)
    have hlive : t.relation.deleted = false := by
      cases hbegins with
      | known hf => exact (Relation.isCreated_iff.1 (hu.created t (UnitOfWork.mem_of_find? hf).1)).2
      | found _ _ hr => exact (Relation.isCreated_iff.1 hr).2
      | free => rfl
    refine { kept := ?kept, last := ?last, fresh := ?fresh, stays := ?stays, found := ?shown }
    case kept =>
      refine ⟨hbegins.distinct_record hu.distinct, fun t' ht' => ?_⟩
      rcases (hmem t').1 ht' with ⟨ht', -⟩ | rfl
      · exact hu.created t' ht'
      · exact Relation.isCreated_applyAll_of_handle haccepted hlive
          (RelationCommand.isDelete_of_stageValues hvalues)
    case last =>
      intro t' ht'
      rcases (hmem t').1 ht' with ⟨ht', hne⟩ | rfl
      · exact .inr ⟨ht', by simpa using hne⟩
      · obtain ⟨stage, hstage, hasked⟩ := (Relation.effect_of_handle haccepted).values hvalues
        exact .inl ⟨(request, segment), ⟨[], [], rfl, by simp⟩, hkey, source, target, stage,
          hsegment _ (by simp [resolved]), hsegment _ (by simp [resolved]), hstage, hasked⟩
    case fresh =>
      intro t' ht' hnew
      rcases (hmem t').1 ht' with ⟨ht', hne⟩ | rfl
      · exact .inl ⟨t', ht', rfl, hnew⟩
      · dsimp only
        rw [hkey]
        cases hbegins with
        | known hf =>
          obtain ⟨ht, hk⟩ := UnitOfWork.mem_of_find? hf
          exact .inl ⟨t, ht, hk, hnew⟩
        | found => cases hnew
        | free => exact .inr (by simpa using hsegment _ (List.mem_cons_self ..))
    case stays =>
      intro t' ht'
      by_cases hk : t'.relation.key = ⟨tenant, request.externalId⟩
      · obtain rfl := hbegins.eq_of_key_eq hu.distinct ht' hk
        exact ⟨_, hself, hkey.trans hk.symm, Relation.id_applyAll ..⟩
      · exact ⟨t', (hmem t').2 (.inl ⟨ht', hk⟩), rfl, rfl⟩
    case shown =>
      intro key r hr
      have hr : ⟨.findByKey key, .ok (some r)⟩ ∈ lookups := by
        have hr : ⟨.findByKey key, .ok (some r)⟩ ∈ readings segment :=
          (mem_readings rfl).2 (by simpa using hr)
        simpa [hread, resolved] using hr
      cases hbegins with
      | known => cases hr
      | found =>
        cases List.mem_singleton.1 hr
        exact ⟨_, hself, hkey, Relation.id_applyAll ..⟩
      | free => cases List.mem_singleton.1 hr

/-- Entries after entries. -/
theorem Passed.append (h : Passed tenant u parts u') (h' : Passed tenant u' parts' u'') :
    Passed tenant u (parts ++ parts') u'' where
  kept := h'.kept
  last t ht := by
    rcases h'.last t ht with ⟨part, ⟨before, later, rfl, hlater⟩, hasserts⟩ | ⟨ht, hunnamed⟩
    · exact .inl ⟨part, ⟨parts ++ before, later, by simp, hlater⟩, hasserts⟩
    rcases h.last t ht with ⟨part, ⟨before, later, rfl, hlater⟩, hasserts⟩ | ⟨ht, hunnamed'⟩
    · refine .inl ⟨part, ⟨before, later ++ parts', by simp, ?_⟩, hasserts⟩
      refine List.forall_mem_append.2 ⟨hlater, fun p hp hname => hunnamed p hp ?_⟩
      rw [hasserts.key, hname]
    · exact .inr ⟨ht, List.forall_mem_append.2 ⟨hunnamed', hunnamed⟩⟩
  fresh t ht hnew := by
    rw [List.flatMap_append, List.mem_append]
    rcases h'.fresh t ht hnew with ⟨old, hold, hkey, hnew'⟩ | hturn
    · rcases h.fresh old hold hnew' with ⟨older, holder, hkey', hnew''⟩ | hturn
      · exact .inl ⟨older, holder, hkey'.trans hkey, hnew''⟩
      · exact .inr (.inl (hkey ▸ hturn))
    · exact .inr (.inr hturn)
  stays t ht := by
    obtain ⟨t', ht', hkey, hid⟩ := h.stays t ht
    obtain ⟨t'', ht'', hkey', hid'⟩ := h'.stays t' ht'
    exact ⟨t'', ht'', hkey'.trans hkey, hid'.trans hid⟩
  found key r hr := by
    rw [List.flatMap_append, List.mem_append] at hr
    rcases hr with hr | hr
    · obtain ⟨t, ht, hkey, hid⟩ := h.found key r hr
      obtain ⟨t', ht', hkey', hid'⟩ := h'.stays t ht
      exact ⟨t', ht', hkey'.trans hkey, hid'.trans hid⟩
    · exact h'.found key r hr

theorem passed_nil (hu : u.Kept) : Passed tenant u [] u where
  kept := hu
  last t ht := .inr ⟨ht, by simp⟩
  fresh t ht hnew := .inl ⟨t, ht, rfl, hnew⟩
  stays t ht := ⟨t, ht, rfl, rfl⟩
  found _ _ hr := by cases hr

end Passed

/-! ## Entries one after the other -/

/-- The entries of a batch were handled in order, each in a part of the conversation of
its own and in the unit of work that the one before left. -/
inductive Handled (tenant : TenantBpnl) (at_ : Instant) :
    UnitOfWork → List Part → UnitOfWork → Prop
  | nil {u : UnitOfWork} : Handled tenant at_ u [] u
  | cons {u u₁ u₂ : UnitOfWork} {request : InputRelationUpsert} {segment : List Turn}
      {r : Relation} {parts : List Part} :
      (Service.upsertEntry tenant at_ u request).run.Conversation segment (.ok (r, u₁)) →
      Handled tenant at_ u₁ parts u₂ → Handled tenant at_ u ((request, segment) :: parts) u₂

section Handled

variable {tenant : TenantBpnl} {at_ : Instant} {u u' : UnitOfWork} {parts : List Part}

/-- An upsert among honest collaborators has passed, or fails, but not on a name that is
taken. -/
theorem conversation_upsertEntry (hu : u.Kept) {request : InputRelationUpsert}
    {segment : List Turn} (hhonest : ∀ t ∈ segment, t.Honest)
    {outcome : Except RelationError (Relation × UnitOfWork)}
    (hconv : (Service.upsertEntry tenant at_ u request).run.Conversation segment outcome) :
    match outcome with
    | .ok out => Passed tenant u [(request, segment)] out.2
    | .error e => e.isTaken = false := by
  have hleads : (Service.upsertEntry tenant at_ u request).Leads (noting Turn.Honest) _ _ [] :=
    leads_upsertEntry_noting hu
  have hout := hconv.of_leads_noting hhonest hleads
  rcases outcome with e | out
  · exact hout
  · obtain ⟨read, hread, henters⟩ := hout
    rw [List.nil_append] at hread
    exact passed_of_enters hu (hread ▸ henters)

theorem Handled.passed (h : Handled tenant at_ u parts u') :
    u.Kept → (∀ t ∈ parts.flatMap Prod.snd, t.Honest) → Passed tenant u parts u' := by
  induction h with
  | nil => exact fun hu _ => passed_nil hu
  | cons hconv _ ih =>
    intro hu hhonest
    rw [List.flatMap_cons, List.forall_mem_append] at hhonest
    have hpassed := conversation_upsertEntry hu hhonest.1 hconv
    exact hpassed.append (ih hpassed.kept hhonest.2)

/-- The entries of a batch are handled one after the other, or fail, but not on a name
that is taken. -/
theorem conversation_handleEach_upsert : ∀ {requests : List InputRelationUpsert} {u : UnitOfWork}
    {h : List Turn} {outcome : Except RelationError (List Relation × UnitOfWork)},
    u.Kept → (∀ t ∈ h, t.Honest) →
    (Call.handleEach (Service.upsertEntry tenant) at_ u requests).run.Conversation h outcome →
    match outcome with
    | .ok out => ∃ parts, parts.map Prod.fst = requests ∧ h = parts.flatMap Prod.snd ∧
        Handled tenant at_ u parts out.2
    | .error e => e.isTaken = false
  | [], _, _, _, _, _, hconv => by
    obtain ⟨rfl, rfl⟩ := Call.conversation_pure hconv
    exact ⟨[], rfl, rfl, .nil⟩
  | request :: rest, u, h, outcome, hu, hhonest, hconv => by
    rcases Call.conversation_bind hconv with ⟨e, rfl, hentry⟩ | ⟨⟨r, u₁⟩, h₁, h₂, rfl, hentry, hrest⟩
    · exact conversation_upsertEntry hu hhonest hentry
    obtain ⟨hhonest₁, hhonest₂⟩ := List.forall_mem_append.1 hhonest
    have hpassed := conversation_upsertEntry hu hhonest₁ hentry
    rcases Call.conversation_bind hrest with ⟨e, rfl, heach⟩ | ⟨⟨rs, u₂⟩, h₃, h₄, rfl, heach, hdone⟩
    · exact conversation_handleEach_upsert hpassed.kept hhonest₂ heach
    · obtain ⟨rfl, rfl⟩ := Call.conversation_pure hdone
      rw [List.append_nil] at hhonest₂ ⊢
      obtain ⟨parts, rfl, rfl, hhandled⟩ :=
        conversation_handleEach_upsert hpassed.kept hhonest₂ heach
      exact ⟨(request, h₁) :: parts, rfl, rfl, .cons hentry hhandled⟩

end Handled

end PartnerRelations
