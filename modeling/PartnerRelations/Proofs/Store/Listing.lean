/-
# `Proofs.Store.Listing` — what a search lists, and in which order

There are three searches of one form (`Search`): each has views, a filter of its own, and a
call of the service.  What a search has to show is said without the store's sorting:

    Shows q ledger r view    the view that the search gives of a relation, if the relation
                             has such a part, its ends are in the ledger and the filter
                             wants it
    Precedes a b             created earlier, or at the same moment with the lower identifier
    Lists q w tenant listed  every relation of the tenant with a view, each once and with
                             that view, in this order

`Precedes` is strict and total on the relations of a store, so there is one such list, and
it does not depend on the order in which the table of relations happens to be traversed
(`exists_lists`, `ofTenant_eq_of_perm`).
-/
import PartnerRelations.Proofs.Store.Tenancy
import PartnerRelations.Service.Find

namespace PartnerRelations

/-! ## Filters -/

/-- The value is among the allowed ones, or all are allowed. -/
def Allowed {α : Type} (allowed : List α) (value : α) : Prop :=
  allowed = [] ∨ value ∈ allowed

theorem allows_iff {α : Type} [DecidableEq α] {allowed : List α} {value : α} :
    allows allowed value = true ↔ Allowed allowed value := by
  rw [allows, Allowed, Bool.or_eq_true, List.isEmpty_iff, decide_eq_true_iff]

theorem atOrAfter_iff {bound : Option Instant} {moment : Instant} :
    atOrAfter bound moment = true ↔ ∀ b ∈ bound, b ≤ moment := by
  cases bound <;> simp [atOrAfter]

/-- What a filter of inputs asks for. -/
def InputRelationFilter.Wants (f : InputRelationFilter) (view : InputRelation) : Prop :=
  Allowed f.externalIds view.externalId ∧ Allowed f.relationTypes view.relationType ∧
    Allowed f.sourceExternalIds view.sourceExternalId ∧
    Allowed f.targetExternalIds view.targetExternalId ∧ ∀ b ∈ f.updatedAfter, b ≤ view.updatedAt

/-- What a filter of outputs asks for. -/
def OutputRelationFilter.Wants (f : OutputRelationFilter) (view : OutputRelation) : Prop :=
  Allowed f.externalIds view.externalId ∧ Allowed f.relationTypes view.relationType ∧
    Allowed f.sourceBpnls view.sourceBpnl ∧ Allowed f.targetBpnls view.targetBpnl ∧
    ∀ b ∈ f.updatedAfter, b ≤ view.updatedAt

/-- What a filter of sharing states asks for. -/
def SharingStateFilter.Wants (f : SharingStateFilter) (view : RelationSharingStateView) : Prop :=
  Allowed f.externalIds view.externalId ∧ Allowed f.stateTypes view.sharingStateType

theorem InputRelationFilter.admits_iff {f : InputRelationFilter} {view : InputRelation} :
    f.admits view = true ↔ f.Wants view := by
  simp only [admits, Wants, Bool.and_eq_true, allows_iff, atOrAfter_iff, and_assoc]

theorem OutputRelationFilter.admits_iff {f : OutputRelationFilter} {view : OutputRelation} :
    f.admits view = true ↔ f.Wants view := by
  simp only [admits, Wants, Bool.and_eq_true, allows_iff, atOrAfter_iff, and_assoc]

theorem SharingStateFilter.admits_iff {f : SharingStateFilter} {view : RelationSharingStateView} :
    f.admits view = true ↔ f.Wants view := by
  simp only [admits, Wants, Bool.and_eq_true, allows_iff]

/-! ## Records of ends -/

namespace Ledger

variable {l : Ledger} {id : SharingStateId} {record : SharingStateRecord}

/-- Of the records with an identifier, the one that came last. -/
def IsLast (l : Ledger) (id : SharingStateId) (record : SharingStateRecord) : Prop :=
  record.id = id ∧ ∃ before after, l = before ++ record :: after ∧ ∀ later ∈ after, later.id ≠ id

theorem last?_eq_some : l.last? id = some record ↔ l.IsLast id record := by
  rw [last?, List.find?_eq_some_iff_append, decide_eq_true_iff]
  refine and_congr_right fun _ => ?_
  constructor
  · rintro ⟨after, before, hl, hafter⟩
    refine ⟨before.reverse, after.reverse, ?_, fun later hlater => ?_⟩
    · rw [← List.reverse_reverse l, hl]
      simp
    · simpa using hafter later (List.mem_reverse.1 hlater)
  · rintro ⟨before, after, rfl, hafter⟩
    refine ⟨after.reverse, before.reverse, by simp, fun later hlater => ?_⟩
    simpa using hafter later (List.mem_reverse.1 hlater)

/-- The partner with an identifier has this name. -/
def Names (l : Ledger) (id : SharingStateId) (name : ExternalId) : Prop :=
  ∃ record, l.IsLast id record ∧ record.externalId = name

theorem externalId?_eq_some {name : ExternalId} :
    l.externalId? id = some name ↔ l.Names id name := by
  simp only [externalId?, Option.map_eq_some_iff, last?_eq_some, Names]

end Ledger

/-! ## Searches -/

/-- A search for one of the three parts of relations. -/
inductive Search where
  | inputs (filter : InputRelationFilter)
  | outputs (filter : OutputRelationFilter)
  | sharingStates (filter : SharingStateFilter)

namespace Search

/-- What a search returns for a relation. -/
abbrev View : Search → Type
  | .inputs _ => InputRelation
  | .outputs _ => OutputRelation
  | .sharingStates _ => RelationSharingStateView

/-- The call that makes a search. -/
def call (settings : ServiceSettings) (tenant : TenantBpnl) (page : PageRequest) :
    (q : Search) → Call (Page q.View)
  | .inputs filter => Service.findInputs settings tenant filter page
  | .outputs filter => Service.findOutputs settings tenant filter page
  | .sharingStates filter => Service.findSharingStates settings tenant filter page

/-- What a search answers in a world. -/
def answer (q : Search) (supply : Nat → Uuid) (w : World) (settings : ServiceSettings)
    (tenant : TenantBpnl) (page : PageRequest) : Except RelationError (Page q.View) :=
  (w.run supply (q.call settings tenant page).run).1

/-- A relation has a part that the search is for, with this view, and the filter wants it. -/
def Shows (ledger : Ledger) (r : Relation) : (q : Search) → q.View → Prop
  | .inputs filter, view => ∃ stage source target, r.input = some stage ∧
      ledger.Names stage.source source ∧ ledger.Names stage.target target ∧
      view = ⟨r.externalId, stage.relationType, source, target, stage.createdAt,
        stage.updatedAt⟩ ∧ filter.Wants view
  | .outputs filter, view => ∃ output, r.output = some output ∧
      view = ⟨r.externalId, output.relationType, output.sourceBpnl, output.targetBpnl,
        output.updatedAt⟩ ∧ filter.Wants view
  | .sharingStates filter, view => ∃ state, r.sharingState = some state ∧
      view = ⟨r.externalId, state.relationType, state.stateType, state.errorMessage,
        state.updatedAt⟩ ∧ filter.Wants view

/-- The view of a relation that a search returns, if it returns one. -/
def view? (ledger : Ledger) : (q : Search) → Relation → Option q.View
  | .inputs filter, r => (Tables.inputView? ledger r).filter filter.admits
  | .outputs filter, r => (OutputRelation.ofRelation? r).filter filter.admits
  | .sharingStates filter, r => (RelationSharingStateView.ofRelation? r).filter filter.admits

theorem view?_eq_some {q : Search} {ledger : Ledger} {r : Relation} {view : q.View} :
    q.view? ledger r = some view ↔ q.Shows ledger r view := by
  cases q with
  | inputs filter =>
    show Option.filter _ _ = some view ↔ _
    rw [Option.filter_eq_some_iff, InputRelationFilter.admits_iff]
    simp only [Tables.inputView?, InputRelation.ofRelation?, Option.bind_eq_bind,
      Option.bind_eq_some_iff, Ledger.externalId?_eq_some]
    constructor
    · rintro ⟨⟨stage, hinput, source, hsource, target, htarget, hview⟩, hwants⟩
      rw [hinput] at hview
      exact ⟨stage, source, target, hinput, hsource, htarget, (Option.some.inj hview).symm, hwants⟩
    · rintro ⟨stage, source, target, hinput, hsource, htarget, rfl, hwants⟩
      exact ⟨⟨stage, hinput, source, hsource, target, htarget, by rw [hinput]; rfl⟩, hwants⟩
  | outputs filter =>
    show Option.filter _ _ = some view ↔ _
    rw [Option.filter_eq_some_iff, OutputRelationFilter.admits_iff]
    simp only [OutputRelation.ofRelation?, Option.map_eq_some_iff]
    constructor
    · rintro ⟨⟨output, houtput, rfl⟩, hwants⟩
      exact ⟨output, houtput, rfl, hwants⟩
    · rintro ⟨output, houtput, rfl, hwants⟩
      exact ⟨⟨output, houtput, rfl⟩, hwants⟩
  | sharingStates filter =>
    show Option.filter _ _ = some view ↔ _
    rw [Option.filter_eq_some_iff, SharingStateFilter.admits_iff]
    simp only [RelationSharingStateView.ofRelation?, Option.map_eq_some_iff]
    constructor
    · rintro ⟨⟨state, hstate, rfl⟩, hwants⟩
      exact ⟨state, hstate, rfl, hwants⟩
    · rintro ⟨state, hstate, rfl, hwants⟩
      exact ⟨⟨state, hstate, rfl⟩, hwants⟩

/-- A search returns the page of the tenant's views, at its bounded size. -/
theorem answer_eq (q : Search) (supply : Nat → Uuid) (w : World) (settings : ServiceSettings)
    (tenant : TenantBpnl) (page : PageRequest) : q.answer supply w settings tenant page =
      .ok (.ofSorted (page.clamped settings.maxPageSize)
        ((w.tables.ofTenant tenant).filterMap (q.view? w.ledger))) := by
  cases q <;> exact congrArg (fun all => Except.ok (Page.ofSorted _ all)) List.filter_filterMap

end Search

/-! ## The order of creation -/

/-- Created earlier; or at the same moment, with the lower identifier. -/
def Relation.Precedes (a b : Relation) : Prop :=
  a.createdAt < b.createdAt ∨ (a.createdAt = b.createdAt ∧ a.id.uuid.val < b.id.uuid.val)

theorem Relation.Precedes.asymm {a b : Relation} (h : a.Precedes b) : ¬ b.Precedes a := by
  have hlt : ∀ {x y : Instant}, x < y → x.rank < y.rank := fun h => h
  rintro (hba | ⟨heq, hba⟩) <;> rcases h with hab | ⟨heq', hab⟩
  · exact absurd (hlt hab) (Int.lt_asymm (hlt hba))
  · exact absurd (hlt hba) (heq' ▸ Int.lt_irrefl _)
  · exact absurd (hlt hab) (heq ▸ Int.lt_irrefl _)
  · exact Nat.lt_asymm hab hba

theorem Relation.precedes_of_createdBefore {a b : Relation} (h : a.createdBefore b = true)
    (hne : a.id ≠ b.id) : a.Precedes b := by
  rcases createdBefore_iff.1 h with hlt | ⟨heq, hle⟩
  · exact .inl hlt
  · refine .inr ⟨Instant.rank_injective heq, Nat.lt_of_le_of_ne hle fun hval => ?_⟩
    exact hne (relationId_eq_of_val hval)

/-- In a list in strict order, a pair comes in the order of its two members. -/
theorem pair_sublist_map_iff {α β : Type} {R : α → α → Prop} {l : List α} {f : α → β}
    (hasymm : ∀ {a b}, R a b → ¬ R b a) (hsorted : l.Pairwise R)
    (hinj : ∀ a ∈ l, ∀ b ∈ l, f a = f b → a = b) {a b : α} (ha : a ∈ l) (hb : b ∈ l) :
    [f a, f b].Sublist (l.map f) ↔ R a b := by
  constructor
  · intro hsub
    obtain ⟨pair, hpair, hmap⟩ := List.sublist_map_iff.1 hsub
    obtain ⟨a', rest, rfl, ha', hrest⟩ := List.map_eq_cons_iff.1 hmap.symm
    obtain ⟨b', rest, rfl, hb', hrest⟩ := List.map_eq_cons_iff.1 hrest
    obtain rfl := List.map_eq_nil_iff.1 hrest
    have hmem : ∀ c ∈ [a', b'], c ∈ l := fun c hc => hpair.subset hc
    obtain rfl := hinj a' (hmem a' (by simp)) a ha ha'
    obtain rfl := hinj b' (hmem b' (by simp)) b hb hb'
    exact List.pairwise_iff_forall_sublist.1 hsorted hpair
  · intro hab
    obtain ⟨before, after, rfl⟩ := List.append_of_mem ha
    obtain ⟨-, hafter, hbefore⟩ := List.pairwise_append.1 hsorted
    have hb : b ∈ after := by
      rcases List.mem_append.1 hb with hb | hb
      · exact absurd hab (hasymm (hbefore b hb a (List.mem_cons_self ..)))
      · rcases List.mem_cons.1 hb with rfl | hb
        · exact absurd hab (hasymm hab)
        · exact hb
    have hpair : [a, b].Sublist (a :: after) := (List.singleton_sublist.2 hb).cons_cons a
    exact (hpair.trans (List.sublist_append_right ..)).map f

namespace Tables

variable {t t' : Tables} {tenant : TenantBpnl}

/-- How the table of relations is traversed makes no difference to a search. -/
theorem ofTenant_eq_of_perm (hs : t.Sound) (h : t'.relations.rows.Perm t.relations.rows) :
    t'.ofTenant tenant = t.ofTenant tenant := by
  refine Relation.mergeSort_eq_of_perm Relation.createdBefore_trans Relation.createdBefore_total
    Relation.createdBefore_antisymm ((h.map Prod.snd).filter _) ?_
  exact fun a ha b hb => hs.eq_of_id_eq (List.mem_filter.1 ha).1 (List.mem_filter.1 hb).1

/-- A tenant's relations that are as old as each other come in the order of their identifiers. -/
theorem ofTenant_of_ids {created : Instant} {l : List Relation} (hs : t.Sound)
    (hperm : l.Perm t.relations.values)
    (hall : ∀ r ∈ t.relations.values, r.tenant = tenant ∧ r.createdAt = created)
    (hids : l.Pairwise fun a b => a.id.uuid.val < b.id.uuid.val) : t.ofTenant tenant = l := by
  have hown : t.relations.values.filter (fun r => decide (r.tenant = tenant)) = t.relations.values :=
    List.filter_eq_self.2 fun r hr => decide_eq_true (hall r hr).1
  have hid : ∀ a ∈ l, ∀ b ∈ l, a.id = b.id → a = b := fun a ha b hb =>
    hs.eq_of_id_eq (hperm.mem_iff.1 ha) (hperm.mem_iff.1 hb)
  have hcreated : ∀ r ∈ l, r.createdAt = created := fun r hr => (hall r (hperm.mem_iff.1 hr)).2
  have hsorted : l.Pairwise fun a b => a.createdBefore b = true :=
    hids.imp_of_mem fun {a b} ha hb hlt => by
      rw [Relation.createdBefore_iff, hcreated a ha, hcreated b hb]
      exact .inr ⟨rfl, Nat.le_of_lt hlt⟩
  calc t.ofTenant tenant
    _ = t.relations.values.mergeSort Relation.createdBefore := by rw [ofTenant, hown]
    _ = l.mergeSort Relation.createdBefore :=
        Relation.mergeSort_eq_of_perm Relation.createdBefore_trans Relation.createdBefore_total
          Relation.createdBefore_antisymm hperm.symm hid
    _ = l := List.mergeSort_of_pairwise hsorted

/-- A tenant's relations come in strict order. -/
theorem Sound.pairwise_ofTenant (hs : t.Sound) :
    (t.ofTenant tenant).Pairwise Relation.Precedes := by
  have hids : ((t.ofTenant tenant).map Relation.id).Nodup := by
    rw [ofTenant, ((List.mergeSort_perm _ _).map _).nodup_iff]
    exact hs.nodup_ids.sublist (List.filter_sublist.map _)
  have hsorted : ∀ l : List Relation, (l.mergeSort Relation.createdBefore).Pairwise
      fun a b => a.createdBefore b = true :=
    List.pairwise_mergeSort (fun _ _ _ => Relation.createdBefore_trans) fun a b => by
      simpa using Relation.createdBefore_total a b
  have hne : (t.ofTenant tenant).Pairwise fun a b => a.id ≠ b.id := List.pairwise_map.1 hids
  exact (hsorted _).imp₂ (fun _ _ => Relation.precedes_of_createdBefore) hne

end Tables

/-! ## The list -/

namespace Search

/-- All relations of a tenant that a search is for, each with its view, in the order of
their creation. -/
structure Lists (q : Search) (w : World) (tenant : TenantBpnl)
    (listed : List (Relation × q.View)) : Prop where
  mem : ∀ r view, (r, view) ∈ listed ↔
    w.tables.relations.get? r.id = some r ∧ r.tenant = tenant ∧ q.Shows w.ledger r view
  sorted : listed.Pairwise fun a b => a.1.Precedes b.1

variable {q : Search} {w : World} {tenant : TenantBpnl} {listed : List (Relation × q.View)}

/-- What a search goes through has the list that is asked for. -/
theorem exists_lists (q : Search) (hs : w.tables.Sound) (tenant : TenantBpnl) :
    ∃ listed, q.Lists w tenant listed ∧
      listed.map Prod.snd = (w.tables.ofTenant tenant).filterMap (q.view? w.ledger) := by
  have hpair : ∀ {r : Relation} {a : Relation × q.View},
      (q.view? w.ledger r).map (Prod.mk r) = some a ↔
        a.1 = r ∧ q.view? w.ledger r = some a.2 := by
    rintro r ⟨r', view⟩
    rw [Option.map_eq_some_iff]
    constructor
    · rintro ⟨view, hview, ⟨⟩⟩
      exact ⟨rfl, hview⟩
    · rintro ⟨rfl, hview⟩
      exact ⟨view, hview, rfl⟩
  refine ⟨(w.tables.ofTenant tenant).filterMap fun r => (q.view? w.ledger r).map (Prod.mk r),
    ⟨fun r view => ?_, ?_⟩, ?_⟩
  · rw [List.mem_filterMap]
    simp only [hpair, Tables.mem_ofTenant, hs.mem_values, view?_eq_some,
      and_assoc]
    constructor
    · rintro ⟨_, hstored, htenant, rfl, hshows⟩
      exact ⟨hstored, htenant, hshows⟩
    · rintro ⟨hstored, htenant, hshows⟩
      exact ⟨r, hstored, htenant, rfl, hshows⟩
  · refine hs.pairwise_ofTenant.filterMap _ fun a a' hprecedes b hb b' hb' => ?_
    rw [(hpair.1 hb).1, (hpair.1 hb').1]
    exact hprecedes
  · rw [List.map_filterMap]
    exact List.filterMap_congr fun r _ => by rw [Option.map_map]; exact Option.map_id'

/-- A relation is listed once. -/
theorem Lists.eq_of_id_eq (h : q.Lists w tenant listed) :
    ∀ a ∈ listed, ∀ b ∈ listed, a.1.id = b.1.id → a = b := by
  rintro ⟨r, view⟩ ha ⟨r', view'⟩ hb hid
  obtain ⟨hr, -, hshows⟩ := (h.mem _ _).1 ha
  obtain ⟨hr', -, hshows'⟩ := (h.mem _ _).1 hb
  obtain rfl : r = r' := by
    rw [show r.id = r'.id from hid, hr'] at hr
    exact (Option.some.inj hr).symm
  rw [← view?_eq_some] at hshows hshows'
  rw [Option.some.inj (hshows.symm.trans hshows')]

end Search

end PartnerRelations
