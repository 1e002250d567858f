/-
# `Proofs.Service.Verdict` — when an input is refused, and what is stored when it is not

A call that submits one input is refused for the first of these reasons that applies,
and for nothing else (`InputCall.refusal?`):

    create, update    the name that is given is stored, or is not stored
    the ends          both have one name; the ledger has no record, or several, of the
                      source; of the target; both have one record

The store is in a state that calls may lead to, nobody else is at work, and the two
identifiers that the call may draw are fresh.  `refusal?` looks at the stored
relations and at the records of the ledger, and not at what the call does.

Where nothing applies the call succeeds: it returns one relation, which is then found
under its name, has what was asked for, and is the only one that changed
(`InputCall.Stored`).
-/
import PartnerRelations.Proofs.Concurrent.Reference
import PartnerRelations.Proofs.Relation.Effect
import PartnerRelations.Proofs.Service.OneByOne

namespace PartnerRelations

/-! ## Reasons to refuse an input -/

namespace RelationError

/-- The failure of an input whose ends are one partner. -/
def sameEnds (source : ExternalId) : RelationError :=
  .invalidRelation s!"source and target '{source.text}' must differ"

end RelationError

namespace Ledger

/-- Why a name is not that of one partner. -/
def unresolved? (l : Ledger) (tenant : TenantBpnl) (missing : ExternalId → RelationError)
    (externalId : ExternalId) : Option RelationError :=
  match (l.ofPartner tenant externalId).length with
  | 0 => some (missing externalId)
  | 1 => none
  | count => some (.ambiguousReference externalId count)

/-- Why two names are not those of two partners, the first reason that applies. -/
def refusal? (l : Ledger) (tenant : TenantBpnl) (source target : ExternalId) :
    Option RelationError :=
  (if source = target then some (.sameEnds source) else none) <|>
  l.unresolved? tenant .sourceNotFound source <|>
  l.unresolved? tenant .targetNotFound target <|>
  (if (l.ofPartner tenant source).map (·.id) = (l.ofPartner tenant target).map (·.id) then
    some (.sameEnds source) else none)

end Ledger

/-- A relation of the name is stored. -/
def Tables.stores (t : Tables) (key : RelationKey) : Bool :=
  t.relations.values.any fun r => r.key = key

/-- The calls that submit one input. -/
inductive InputCall where
  | create (tenant : TenantBpnl) (request : NewInputRelation)
  | upsert (settings : ServiceSettings) (tenant : TenantBpnl) (request : InputRelationUpsert)
  | update (tenant : TenantBpnl) (request : InputRelationUpsert)

namespace InputCall

/-- The kind of batch that the call is one of. -/
def kind : InputCall → BatchKind
  | .create tenant _ => .create tenant
  | .upsert settings tenant _ => .upsert settings tenant
  | .update tenant _ => .update tenant

/-- The one entry. -/
def request : (c : InputCall) → c.kind.Request
  | .create _ request => request
  | .upsert _ _ request => request
  | .update _ request => request

/-- The whole call. -/
def call (c : InputCall) : Call (List Relation) := c.kind.call [c.request]

def tenant : InputCall → TenantBpnl
  | .create tenant _ => tenant
  | .upsert _ tenant _ => tenant
  | .update tenant _ => tenant

def relationType : InputCall → RelationType
  | .create _ request => request.relationType
  | .upsert _ _ request => request.relationType
  | .update _ request => request.relationType

/-- The tenant's name for the source. -/
def source : InputCall → ExternalId
  | .create _ request => request.sourceExternalId
  | .upsert _ _ request => request.sourceExternalId
  | .update _ request => request.sourceExternalId

/-- The tenant's name for the target. -/
def target : InputCall → ExternalId
  | .create _ request => request.targetExternalId
  | .upsert _ _ request => request.targetExternalId
  | .update _ request => request.targetExternalId

/-- The name of the relation; one that is not given is made of the next identifier. -/
def key (c : InputCall) (supply : Nat → Uuid) (drawn : Nat) : RelationKey :=
  ⟨c.tenant, (c.kind.named c.request).getD (.ofUuid .externalId (supply drawn))⟩

/-- Why the name does not do. -/
def misnamed? (t : Tables) : InputCall → Option RelationError
  | .create tenant request => request.externalId.bind fun externalId =>
    if t.stores ⟨tenant, externalId⟩ then some (.alreadyExists externalId) else none
  | .upsert .. => none
  | .update tenant request =>
    if t.stores ⟨tenant, request.externalId⟩ then none else some (.notFound request.externalId)

/-- Why the call is refused, if it is. -/
def refusal? (c : InputCall) (w : World) : Option RelationError :=
  c.misnamed? w.tables <|> w.ledger.refusal? c.tenant c.source c.target

end InputCall

/-! ## The ends -/

namespace Ledger

variable {l : Ledger} {tenant : TenantBpnl} {missing : ExternalId → RelationError}
  {externalId : ExternalId}

theorem externalId_of_ofPartner {record : SharingStateRecord}
    (h : l.ofPartner tenant externalId = [record]) : record.externalId = externalId := by
  have hmem : record ∈ l.ofPartner tenant externalId := h ▸ List.mem_singleton_self record
  have hnames := List.of_mem_filter hmem
  simp only [SharingStateRecord.names, Bool.and_eq_true, decide_eq_true_eq] at hnames
  exact hnames.2

/-- A name is resolved to its one record, or fails for how many there are. -/
theorem resolve_cases (l : Ledger) (tenant : TenantBpnl) (missing : ExternalId → RelationError)
    (externalId : ExternalId) :
    (∃ e, l.resolve tenant missing externalId = .error e ∧
      l.unresolved? tenant missing externalId = some e) ∨
    ∃ record, l.ofPartner tenant externalId = [record] ∧
      l.resolve tenant missing externalId = .ok record.resolved ∧
      l.unresolved? tenant missing externalId = none := by
  unfold resolve unresolved?
  cases l.ofPartner tenant externalId with
  | nil => exact .inl ⟨_, rfl, rfl⟩
  | cons record rest =>
    cases rest with
    | nil => exact .inr ⟨record, rfl, rfl, rfl⟩
    | cons _ _ => exact .inl ⟨_, rfl, rfl⟩

/-- A command about the two ends of an input is refused for the first reason that
applies, where the relation refuses nothing but ends that are one partner. -/
theorem give_ends {r : Relation} {command : ResolvedPartner → ResolvedPartner → RelationCommand}
    {events : ResolvedPartner → ResolvedPartner → List RelationEvent}
    (hcommand : ∀ source target, r.handle (command source target) =
      (Relation.ensureDistinct source target >>= fun _ => .ok (events source target)))
    (source target externalId : ExternalId) (n : Nat) :
    (∃ e, (l.ends tenant source target >>= fun ends =>
        Decision.give externalId r (command ends.1 ends.2) n) = .error e ∧
      l.refusal? tenant source target = some e) ∨
    ∃ s t, l.ofPartner tenant source = [s] ∧ l.ofPartner tenant target = [t] ∧
      r.handle (command s.resolved t.resolved) = .ok (events s.resolved t.resolved) ∧
      (l.ends tenant source target >>= fun ends =>
        Decision.give externalId r (command ends.1 ends.2) n) =
          .ok ⟨r, events s.resolved t.resolved, n⟩ ∧
      l.refusal? tenant source target = none := by
  unfold ends refusal?
  by_cases hname : source = target
  · exact .inl ⟨_, by rw [if_pos hname]; rfl, by rw [if_pos hname]; rfl⟩
  rw [if_neg hname, if_neg hname]
  obtain ⟨e, hs, hs'⟩ | ⟨s, hsource, hs, hs'⟩ := resolve_cases l tenant .sourceNotFound source
  · exact .inl ⟨e, by rw [hs]; rfl, by rw [hs']; rfl⟩
  obtain ⟨e, ht, ht'⟩ | ⟨t, htarget, ht, ht'⟩ := resolve_cases l tenant .targetNotFound target
  · exact .inl ⟨e, by rw [hs, ht]; rfl, by rw [hs', ht']; rfl⟩
  have hnames : s.resolved.externalId ≠ t.resolved.externalId := by
    rw [SharingStateRecord.resolved, SharingStateRecord.resolved,
      externalId_of_ofPartner hsource, externalId_of_ofPartner htarget]
    exact hname
  by_cases hid : s.id = t.id
  · have hrefused : r.handle (command s.resolved t.resolved) =
        .error (.validation s!"source and target '{source.text}' must differ") := by
      rw [hcommand, Relation.ensureDistinct, if_pos (.inl hid)]
      show Except.error (DomainError.validation _) = _
      rw [SharingStateRecord.resolved, externalId_of_ofPartner hsource]
    refine .inl ⟨.sameEnds source, ?_, ?_⟩
    · rw [hs, ht]
      show Decision.give externalId r (command s.resolved t.resolved) n = _
      rw [Decision.give, hrefused]
      rfl
    · rw [hs', ht', hsource, htarget]
      exact if_pos (congrArg (fun id => [id]) hid)
  · have hdistinct : Relation.ensureDistinct s.resolved t.resolved = .ok () :=
      Relation.ensureDistinct_eq_ok.2 ⟨hid, hnames⟩
    have haccepted : r.handle (command s.resolved t.resolved) =
        .ok (events s.resolved t.resolved) := (hcommand _ _).trans (by rw [hdistinct]; rfl)
    refine .inr ⟨s, t, hsource, htarget, haccepted, ?_, ?_⟩
    · rw [hs, ht]
      show Decision.give externalId r (command s.resolved t.resolved) n = _
      rw [Decision.give, haccepted]
    · rw [hs', ht', hsource, htarget]
      exact if_neg fun h => hid (List.cons.inj h).1

end Ledger

/-! ## The decision -/

namespace Decision

variable {l : Ledger} {at_ : Instant} {id : Uuid} {n : Nat} {tenant : TenantBpnl}
  {request : InputRelationUpsert} {r : Relation} {stage : RelationStage}

theorem create_cases (l : Ledger) (at_ : Instant) (id : Uuid) (n : Nat) (tenant : TenantBpnl)
    (request : InputRelationUpsert) :
    (∃ e, create l at_ id n tenant request = .error e ∧
      l.refusal? tenant request.sourceExternalId request.targetExternalId = some e) ∨
    ∃ s t es, l.ofPartner tenant request.sourceExternalId = [s] ∧
      l.ofPartner tenant request.targetExternalId = [t] ∧
      (Relation.empty ⟨id⟩ tenant request.externalId).handle
        (.createInput request.relationType s.resolved t.resolved at_) = .ok es ∧
      create l at_ id n tenant request = .ok ⟨.empty ⟨id⟩ tenant request.externalId, es, n⟩ ∧
      l.refusal? tenant request.sourceExternalId request.targetExternalId = none := by
  have hends := @Ledger.give_ends l tenant (.empty ⟨id⟩ tenant request.externalId)
    (fun source target => .createInput request.relationType source target at_) _
    (fun _ _ => rfl) request.sourceExternalId request.targetExternalId request.externalId n
  refine hends.imp_right ?_
  rintro ⟨s, t, hs, ht, hc, h⟩
  exact ⟨s, t, _, hs, ht, hc, h⟩

theorem update_cases (l : Ledger) (at_ : Instant) (request : InputRelationUpsert)
    (hr : r.isCreated = true) (hstage : r.input = some stage) :
    (∃ e, update l at_ r request = .error e ∧
      l.refusal? r.tenant request.sourceExternalId request.targetExternalId = some e) ∨
    ∃ s t es, l.ofPartner r.tenant request.sourceExternalId = [s] ∧
      l.ofPartner r.tenant request.targetExternalId = [t] ∧
      r.handle (.updateInput request.relationType s.resolved t.resolved at_) = .ok es ∧
      update l at_ r request = .ok ⟨r, es, 0⟩ ∧
      l.refusal? r.tenant request.sourceExternalId request.targetExternalId = none := by
  have hcommand : ∀ source target,
      r.handle (.updateInput request.relationType source target at_) =
        (Relation.ensureDistinct source target >>= fun _ =>
          .ok (r.updateEvents stage request.relationType source target at_)) := by
    intro source target
    show r.handleUpdate request.relationType source target at_ = _
    rw [Relation.handleUpdate, Relation.ensureExists, if_pos hr, hstage]
    rfl
  have hends := @Ledger.give_ends l r.tenant r _ _ hcommand request.sourceExternalId
    request.targetExternalId request.externalId 0
  refine hends.imp_right ?_
  rintro ⟨s, t, hs, ht, hc, h⟩
  exact ⟨s, t, _, hs, ht, hc, h⟩

end Decision

theorem Tables.Sound.stores_eq {t : Tables} (h : t.Sound) (key : RelationKey) :
    t.stores key = (t.find? key).isSome := by
  rw [Bool.eq_iff_iff, Tables.stores, List.any_eq_true, Option.isSome_iff_exists]
  simp only [h.find?_eq_some, ← h.mem_values, decide_eq_true_eq]

/-- If one relation is shown anew under its name and nothing else is, the others are
stored as they were. -/
theorem Tables.Sound.get?_eq_of_overlay {t t' : Tables} (h : t.Sound) (h' : t'.Sound)
    {r : Relation} (hfind : ∀ key, t'.find? key = if key = r.key then some r else t.find? key)
    (hid : ∀ old, t.find? r.key = some old → old.id = r.id) {id : RelationId} (hne : id ≠ r.id) :
    t'.relations.get? id = t.relations.get? id := by
  refine Option.ext fun x => ⟨fun hx => ?_, fun hx => ?_⟩
  · obtain rfl := h'.id_eq hx
    have hshown := h'.find?_eq_some.2 ⟨hx, rfl⟩
    rw [hfind] at hshown
    split at hshown
    · exact absurd (congrArg Relation.id (Option.some.inj hshown)).symm hne
    · exact (h.find?_eq_some.1 hshown).1
  · obtain rfl := h.id_eq hx
    have hshown := h.find?_eq_some.2 ⟨hx, rfl⟩
    have hkey : x.key ≠ r.key := fun hkey => hne (hid x (hkey ▸ hshown))
    have hkept := (hfind x.key).trans (if_neg hkey)
    exact (h'.find?_eq_some.1 (hkept.trans hshown)).1

/-- A read by name returns what the store shows. -/
theorem World.run_find {supply : Nat → Uuid} {w : World} {tenant : TenantBpnl}
    {externalId : ExternalId} : (World.run supply (Service.find tenant externalId).run w).1 =
      .ok (w.tables.find? ⟨tenant, externalId⟩) := rfl

/-- What is found under a name has the name and a stage. -/
theorem World.Reachable.found {w : World} (hw : w.Reachable) {key : RelationKey} {r : Relation}
    (h : w.tables.find? key = some r) :
    r.key = key ∧ r.isCreated = true ∧ ∃ stage, r.input = some stage := by
  obtain ⟨hget, hkey⟩ := hw.sound.1.find?_eq_some.1 h
  obtain ⟨s, hs, rfl⟩ := hw
  obtain ⟨hcreated, hsane⟩ := hs.sane (Table.mem_values_of_get? hget)
  obtain ⟨stage, -, hstage, -⟩ := hsane.present hcreated
  exact ⟨hkey, hcreated, stage, hstage⟩

namespace InputCall

variable {c : InputCall} {supply : Nat → Uuid} {w : World}

/-- The command that the call gives: to update what is stored under the name, or to
create a relation of the name. -/
inductive Gives (c : InputCall) (supply : Nat → Uuid) (w : World)
    (source target : SharingStateRecord) : Relation → RelationCommand → Prop where
  | update {old : Relation} : w.tables.find? (c.key supply w.drawn) = some old →
      Gives c supply w source target old
        (.updateInput c.relationType source.resolved target.resolved w.clock)
  | create {id : RelationId} : w.tables.find? (c.key supply w.drawn) = none →
      Gives c supply w source target
        (.empty id c.tenant (c.key supply w.drawn).externalId)
        (.createInput c.relationType source.resolved target.resolved w.clock)

/-- The one entry is decided. -/
def decision (c : InputCall) (supply : Nat → Uuid) (w : World) : Except RelationError Decision :=
  c.kind.decision supply w.ledger w.drawn w.clock w.tables.find? c.request

/-- What the call comes to where it is not refused. -/
structure Carries (c : InputCall) (supply : Nat → Uuid) (w : World) (d : Decision)
    (source target : SharingStateRecord) : Prop where
  decision : c.decision supply w = .ok d
  drawn : d.drawn ≤ 2
  from_ : w.ledger.ofPartner c.tenant c.source = [source]
  to_ : w.ledger.ofPartner c.tenant c.target = [target]
  gives : ∃ command, c.Gives supply w source target d.relation command ∧
    d.relation.handle command = .ok d.events

/-- A refusal of the call, or what it carries out. -/
def Decided (c : InputCall) (supply : Nat → Uuid) (w : World) : Prop :=
  (∃ e, c.decision supply w = .error e ∧ c.refusal? w = some e) ∨
    ∃ d s t, c.Carries supply w d s t ∧ c.refusal? w = none

theorem decided_of_misnamed {e : RelationError} (h : c.decision supply w = .error e)
    (hmisnamed : c.misnamed? w.tables = some e) : c.Decided supply w :=
  .inl ⟨e, h, by rw [refusal?, hmisnamed]; rfl⟩

theorem decided_of_create {id : Uuid} {n : Nat} (hn : n ≤ 2)
    (hfree : w.tables.find? (c.key supply w.drawn) = none)
    (hmisnamed : c.misnamed? w.tables = none)
    (h : c.decision supply w = Decision.create w.ledger w.clock id n c.tenant
      ⟨(c.key supply w.drawn).externalId, c.relationType, c.source, c.target⟩) :
    c.Decided supply w := by
  have hrefusal : c.refusal? w = w.ledger.refusal? c.tenant c.source c.target := by
    rw [refusal?, hmisnamed]
    rfl
  obtain ⟨e, he, hends⟩ | ⟨s, t, es, hs, ht, hc, hd, hends⟩ :=
    Decision.create_cases w.ledger w.clock id n c.tenant
      ⟨(c.key supply w.drawn).externalId, c.relationType, c.source, c.target⟩
  · exact .inl ⟨e, h.trans he, hrefusal.trans hends⟩
  · exact .inr ⟨_, s, t, ⟨h.trans hd, hn, hs, ht, _, .create hfree, hc⟩, hrefusal.trans hends⟩

theorem decided_of_update (hw : w.Reachable) {old : Relation} {name : ExternalId}
    (hfind : w.tables.find? (c.key supply w.drawn) = some old)
    (hmisnamed : c.misnamed? w.tables = none)
    (h : c.decision supply w = Decision.update w.ledger w.clock old
      ⟨name, c.relationType, c.source, c.target⟩) : c.Decided supply w := by
  have hrefusal : c.refusal? w = w.ledger.refusal? c.tenant c.source c.target := by
    rw [refusal?, hmisnamed]
    rfl
  obtain ⟨hkey, hcreated, stage, hstage⟩ := hw.found hfind
  have htenant : old.tenant = c.tenant := congrArg RelationKey.tenant hkey
  have hcases := Decision.update_cases w.ledger w.clock
    ⟨name, c.relationType, c.source, c.target⟩ hcreated hstage
  rw [htenant] at hcases
  obtain ⟨e, he, hends⟩ | ⟨s, t, es, hs, ht, hc, hd, hends⟩ := hcases
  · exact .inl ⟨e, h.trans he, hrefusal.trans hends⟩
  · exact .inr ⟨_, s, t, ⟨h.trans hd, Nat.zero_le 2, hs, ht, _, .update hfind, hc⟩,
      hrefusal.trans hends⟩

/-- An input is refused for the first reason that applies, or carried out. -/
theorem decided (hw : w.Reachable)
    (hfree : w.tables.find? ⟨c.tenant, .ofUuid .externalId (supply w.drawn)⟩ = none) :
    c.Decided supply w := by
  have hstores := hw.sound.1.stores_eq
  cases c with
  | create tenant request =>
    obtain ⟨_ | externalId, relationType, source, target⟩ := request
    · exact decided_of_create (Nat.le_refl 2) hfree rfl rfl
    · cases hfind : w.tables.find? ⟨tenant, externalId⟩ with
      | some old =>
        refine @decided_of_misnamed _ _ _ (.alreadyExists externalId) ?_ ?_
        · simp only [decision, kind, request, BatchKind.decision, hfind]
        · simp [misnamed?, hstores, hfind]
      | none =>
        refine @decided_of_create _ _ _ (supply w.drawn) 1 (Nat.le_succ 1) hfind ?_ ?_
        · simp [misnamed?, hstores, hfind]
        · simp only [decision, kind, request, BatchKind.decision, hfind]
          rfl
  | upsert settings tenant request =>
    cases hfind : w.tables.find? ⟨tenant, request.externalId⟩ with
    | some old =>
      refine @decided_of_update _ _ _ hw old request.externalId hfind rfl ?_
      simp only [decision, kind, InputCall.request, BatchKind.decision, hfind]
      rfl
    | none =>
      refine @decided_of_create _ _ _ (supply w.drawn) 1 (Nat.le_succ 1) hfind rfl ?_
      simp only [decision, kind, InputCall.request, BatchKind.decision, hfind]
      rfl
  | update tenant request =>
    cases hfind : w.tables.find? ⟨tenant, request.externalId⟩ with
    | some old =>
      refine @decided_of_update _ _ _ hw old request.externalId hfind ?_ ?_
      · simp [misnamed?, hstores, hfind]
      · simp only [decision, kind, InputCall.request, BatchKind.decision, Decision.existing, hfind]
        rfl
    | none =>
      refine @decided_of_misnamed _ _ _ (.notFound request.externalId) ?_ ?_
      · simp only [decision, kind, InputCall.request, BatchKind.decision, Decision.existing, hfind]
        rfl
      · simp [misnamed?, hstores, hfind]

/-! ## The call -/

/-- The relation that a call returned is found under its name, has what was asked for,
and is the only one that changed. -/
structure Stored (c : InputCall) (supply : Nat → Uuid) (w : World) (r : Relation)
    (after : World) : Prop where
  key : r.key = c.key supply w.drawn
  found : (World.run supply (Service.find c.tenant (c.key supply w.drawn).externalId).run after).1 =
    .ok (some r)
  stage : ∃ source target stage, w.ledger.ofPartner c.tenant c.source = [source] ∧
    w.ledger.ofPartner c.tenant c.target = [target] ∧ r.input = some stage ∧
    stage.values = ⟨c.relationType, source.id, target.id⟩ ∧
    ∃ before command, c.Gives supply w source target before command ∧ before.Effect command r
  others : ∀ id ≠ r.id, after.tables.relations.get? id = w.tables.relations.get? id
  names : ∀ key ≠ r.key, after.tables.find? key = w.tables.find? key

theorem Gives.key_eq (hw : w.Reachable) {source target : SharingStateRecord} {before : Relation}
    {command : RelationCommand} (h : c.Gives supply w source target before command) :
    before.key = c.key supply w.drawn := by
  cases h with
  | update hfind => exact (hw.found hfind).1
  | create => rfl

theorem Gives.stageValues {source target : SharingStateRecord} {before : Relation}
    {command : RelationCommand} (h : c.Gives supply w source target before command) :
    command.stageValues = some ⟨c.relationType, source.id, target.id⟩ := by
  cases h <;> rfl

/-- What was found under the name is what is updated. -/
theorem Gives.eq_of_find? {source target : SharingStateRecord} {before old : Relation}
    {command : RelationCommand} (h : c.Gives supply w source target before command)
    (hold : w.tables.find? (c.key supply w.drawn) = some old) : old = before := by
  cases h with
  | update hfind => exact Option.some.inj (hold.symm.trans hfind)
  | create hfree => cases hold.symm.trans hfree

/-- A call that is not refused stores what it returns. -/
theorem Carries.stored (hw : w.Reachable)
    (hfresh : Fresh supply [] w.drawn (w.drawn + 2) w.tables.find?) {d : Decision}
    {source target : SharingStateRecord} (h : c.Carries supply w d source target) :
    (World.run supply c.call.run w).1 = .ok [d.relation.applyAll d.events] ∧
      c.Stored supply w (d.relation.applyAll d.events) (World.run supply c.call.run w).2 := by
  obtain ⟨hs, hl⟩ := hw.sound
  obtain ⟨command, hgives, hc⟩ := h.gives
  obtain ⟨t, hsound, hfind, hcall⟩ := BatchKind.single_ok hs hl hfresh h.decision
    (Nat.add_le_add_left h.drawn _)
  have htables : (World.run supply c.call.run w).2.tables = t := congrArg World.tables hcall.world
  have hkey : (d.relation.applyAll d.events).key = c.key supply w.drawn :=
    (Relation.key_applyAll ..).trans (hgives.key_eq hw)
  have hafter : ∀ key, t.find? key =
      if key = (d.relation.applyAll d.events).key then some (d.relation.applyAll d.events)
      else w.tables.find? key := by
    intro key
    rw [hfind, Decision.overlay, Relation.key_applyAll]
  have heffect := Relation.effect_of_handle hc
  obtain ⟨stage, hstage, hvalues⟩ := heffect.values hgives.stageValues
  refine ⟨hcall.value, ?_⟩
  exact
    { key := hkey
      found := by
        rw [World.run_find, htables, hafter]
        exact congrArg Except.ok (if_pos hkey.symm)
      stage := ⟨source, target, stage, h.from_, h.to_, hstage, hvalues, _, command, hgives, heffect⟩
      others := by
        intro id hid
        rw [htables]
        refine hs.get?_eq_of_overlay hsound hafter ?_ hid
        intro old hold
        rw [hkey] at hold
        rw [hgives.eq_of_find? hold, Relation.id_applyAll]
      names := by
        intro key hne
        rw [htables, hafter, if_neg hne] }

/-- A call of one input fails if and only if there is a reason to refuse it, and with the
first one that applies; else it stores the relation that it returns. -/
theorem refused_or_stored (hw : w.Reachable) (c : InputCall)
    (hfresh : Fresh supply [] w.drawn (w.drawn + 2) w.tables.find?) :
    (∀ e, (World.run supply c.call.run w).1 = .error e ↔ c.refusal? w = some e) ∧
      (c.refusal? w = none → ∃ r, (World.run supply c.call.run w).1 = .ok [r] ∧
        c.Stored supply w r (World.run supply c.call.run w).2) := by
  have hfree : w.tables.find? ⟨c.tenant, .ofUuid .externalId (supply w.drawn)⟩ = none := by
    rw [Option.eq_none_iff_forall_ne_some]
    intro r hr
    exact (hfresh.unseen w.drawn (Nat.le_refl _) (by omega) _ r hr).2 rfl
  obtain ⟨e, hdecision, hrefusal⟩ | ⟨d, s, t, hcarries, hrefusal⟩ := decided (c := c) hw hfree
  · obtain ⟨w', hcall⟩ := BatchKind.single_error hdecision
    have hvalue : (World.run supply c.call.run w).1 = .error e := hcall.value
    refine ⟨fun e' => ?_, fun hnone => ?_⟩
    · rw [hvalue, hrefusal, Except.error.injEq, Option.some.injEq]
    · cases hrefusal.symm.trans hnone
  · obtain ⟨hvalue, hstored⟩ := hcarries.stored hw hfresh
    refine ⟨fun e => ?_, fun _ => ⟨_, hvalue, hstored⟩⟩
    rw [hvalue, hrefusal]
    simp

private abbrev verdictTenant : TenantBpnl := ⟨"T16", by cbv, by decide⟩
private abbrev verdictName : ExternalId := ⟨"R19", by cbv, by decide⟩
private abbrev verdictPartner : ExternalId := ⟨"P20", by cbv, by decide⟩
private abbrev verdictPartner' : ExternalId := ⟨"P21", by cbv, by decide⟩
private abbrev verdictTwice : ExternalId := ⟨"P22", by cbv, by decide⟩

/-- What is written to a ledger that knows three partners, one of them twice. -/
def ambiguity : List Choice :=
  [.insert (.fresh ⟨.ofNat 1⟩ verdictTenant verdictPartner .epoch),
    .insert (.fresh ⟨.ofNat 2⟩ verdictTenant verdictPartner' .epoch),
    .insert (.fresh ⟨.ofNat 3⟩ verdictTenant verdictTwice .epoch),
    .insert (.fresh ⟨.ofNat 4⟩ verdictTenant verdictTwice .epoch)]

/-- A partner that is known twice is not taken for one that is missing; with one that is
known once, the relation is created under a name of the service's choice. -/
theorem ambiguity_refused_or_stored : ∃ s : System, (System.start .epoch).play ambiguity = some s ∧
    (World.run .ofNat (InputCall.update verdictTenant
      ⟨verdictName, .isManagedBy, verdictTwice, verdictTwice⟩).call.run s.world).1 =
        .error (.notFound verdictName) ∧
    (World.run .ofNat (InputCall.upsert .standard verdictTenant
      ⟨verdictName, .isManagedBy, verdictPartner, verdictTwice⟩).call.run s.world).1 =
        .error (.ambiguousReference verdictTwice 2) ∧
    ∃ r, (World.run .ofNat (InputCall.create verdictTenant
      ⟨none, .isManagedBy, verdictPartner, verdictPartner'⟩).call.run s.world).1 = .ok [r] ∧
      (InputCall.create verdictTenant ⟨none, .isManagedBy, verdictPartner, verdictPartner'⟩).Stored
        .ofNat s.world r (World.run .ofNat (InputCall.create verdictTenant
          ⟨none, .isManagedBy, verdictPartner, verdictPartner'⟩).call.run s.world).2 := by
  obtain ⟨s, hplay⟩ : ∃ s, (System.start .epoch).play ambiguity = some s := ⟨_, rfl⟩
  have hw : s.world.Reachable := ⟨s, ⟨.epoch, ambiguity, hplay⟩, rfl⟩
  have hempty : s.world.tables = .empty ∧ s.world.drawn = 0 := by
    cases hplay
    exact ⟨rfl, rfl⟩
  have hfresh : Fresh .ofNat [] s.world.drawn (s.world.drawn + 2) s.world.tables.find? := by
    rw [hempty.1, hempty.2]
    refine ⟨?_, ?_, fun _ _ _ => List.not_mem_nil⟩
    · intro i j _ hi _ hj h
      have := congrArg Uuid.val h
      simp only [Uuid.ofNat, uuidCount] at this
      omega
    · intro i _ _ key r hr
      cases hr
  refine ⟨s, hplay, ?_, ?_, ?_⟩
  · refine ((refused_or_stored hw _ hfresh).1 _).2 ?_
    cases hplay
    decide +kernel
  · refine ((refused_or_stored hw _ hfresh).1 _).2 ?_
    cases hplay
    decide +kernel
  · refine (refused_or_stored hw _ hfresh).2 ?_
    cases hplay
    decide +kernel

end InputCall

end PartnerRelations
