/-
# `Proofs.Store.Tenancy` — one tenant's share of a store

The store keeps the relations of all tenants in one table and their names in another.
Two stores agree on some tenants if they have the same relations of these tenants, under
the same names (`Tables.AgreeOn`).  A tenant is served from its own share only:

    `AgreeOn.commit`      stores that agree on a tenant answer its commits alike, and
                          agree on it afterwards
    `commit_owned`        a commit of a tenant leaves the shares of all others alone
    `AgreeOn.ofTenant`    stores that agree on a tenant list its relations alike

A commit is a tenant's if it stores relations of the tenant only and is about identifiers
under which nobody else has anything (`Allots`).  The store checks neither: an update or a
deletion names an identifier and no tenant.

The ledger is one list for all tenants as well, and finds a record by its identifier
without asking whose it is.  A tenant's own records decide what is found if no other
tenant has a record of that identifier (`Ledger.last?_ofTenant`); then a search for inputs
needs no others (`searchInput_ofTenant`).
-/
import Mathlib.Data.List.Find
import Mathlib.Data.List.Perm.Basic
import PartnerRelations.Proofs.Store.Reference
import PartnerRelations.Proofs.Store.Register

namespace PartnerRelations

namespace Tables

variable {t t' t₁ t₂ t₁' t₂' : Tables} {tenant : TenantBpnl} {P : TenantBpnl → Prop}
  {id : RelationId} {r : Relation} {c : RelationChange} {cs : List RelationChange}

/-- Two stores have the same relations of some tenants, under the same names. -/
structure AgreeOn (P : TenantBpnl → Prop) (t t' : Tables) : Prop where
  stored : ∀ {id r}, P r.tenant →
    (t.relations.get? id = some r ↔ t'.relations.get? id = some r)
  named : ∀ {key : RelationKey}, P key.tenant → t.keys.get? key = t'.keys.get? key

theorem AgreeOn.refl (P : TenantBpnl → Prop) (t : Tables) : AgreeOn P t t :=
  ⟨fun _ => Iff.rfl, fun _ => rfl⟩

theorem AgreeOn.trans {t'' : Tables} (h : AgreeOn P t t') (h' : AgreeOn P t' t'') :
    AgreeOn P t t'' :=
  ⟨fun hp => (h.stored hp).trans (h'.stored hp), fun hp => (h.named hp).trans (h'.named hp)⟩

/-- Stores whose two tables agree need to be compared by their relations only. -/
theorem Sound.agreeOn (h : t.Sound) (h' : t'.Sound) (hstored : ∀ {id r}, P r.tenant →
    (t.relations.get? id = some r ↔ t'.relations.get? id = some r)) : AgreeOn P t t' where
  stored := hstored
  named {key} hp := by
    refine Option.ext fun id => ?_
    rw [h.keys, h'.keys]
    constructor
    · rintro ⟨r, hr, rfl⟩
      exact ⟨r, (hstored hp).1 hr, rfl⟩
    · rintro ⟨r, hr, rfl⟩
      exact ⟨r, (hstored hp).2 hr, rfl⟩

/-- What is stored under an identifier, if anything, is the tenant's. -/
def Allots (t : Tables) (tenant : TenantBpnl) (id : RelationId) : Prop :=
  ∀ {r}, t.relations.get? id = some r → r.tenant = tenant

/-- The names of a tenant lead to its own relations, each under its own identifier. -/
def Tenanted (t : Tables) (tenant : TenantBpnl) : Prop :=
  ∀ ⦃key id r⦄, key.tenant = tenant → t.keys.get? key = some id →
    t.relations.get? id = some r → r.tenant = tenant ∧ r.id = id

theorem Sound.tenanted (h : t.Sound) : t.Tenanted tenant := by
  rintro key id r rfl hid hr
  obtain ⟨r', hr', rfl⟩ := h.keys.1 hid
  cases hr.symm.trans hr'
  exact ⟨rfl, h.id_eq hr⟩

/-- A change of a tenant's relation, under an identifier that nobody else has. -/
structure OwnedBy (t : Tables) (tenant : TenantBpnl) (c : RelationChange) : Prop where
  allots : t.Allots tenant c.relationId
  stored : ∀ r ∈ c.stored?, r.tenant = tenant

/-! ## Reading -/

theorem AgreeOn.get?_eq (h : AgreeOn (· = tenant) t t') (ht : t.Allots tenant id)
    (ht' : t'.Allots tenant id) : t.relations.get? id = t'.relations.get? id :=
  Option.ext fun _ => ⟨fun hr => (h.stored (ht hr)).1 hr, fun hr => (h.stored (ht' hr)).2 hr⟩

/-- A tenant finds the same under its names. -/
theorem AgreeOn.find?_eq {key : RelationKey} (h : AgreeOn (· = tenant) t t')
    (ht : t.Tenanted tenant) (ht' : t'.Tenanted tenant) (hkey : key.tenant = tenant) :
    t.find? key = t'.find? key := by
  have hnamed := h.named hkey
  unfold find?
  cases hid : t.keys.get? key with
  | none =>
    rw [← hnamed, hid]
    rfl
  | some id =>
    rw [← hnamed, hid]
    exact h.get?_eq (fun hr => (ht hkey hid hr).1) fun hr => (ht' hkey (hnamed ▸ hid) hr).1

/-- What a tenant finds is its own, and nobody else has anything under the identifier. -/
theorem Tenanted.find? {key : RelationKey} (ht : t.Tenanted tenant) (hkey : key.tenant = tenant)
    (hr : t.find? key = some r) : r.tenant = tenant ∧ t.Allots tenant r.id := by
  obtain ⟨id, hid, hget⟩ := Option.bind_eq_some_iff.1 hr
  obtain ⟨hr, rfl⟩ := ht hkey hid hget
  refine ⟨hr, fun hr' => ?_⟩
  cases hget.symm.trans hr'
  exact hr

/-! ## One change -/

/-- A change is about the relation that it stores. -/
theorem id_of_stored? (h : c.stored? = some r) : r.id = c.relationId := by
  cases c with
  | insert => exact congrArg Relation.id (Option.some.inj h).symm
  | update => exact congrArg Relation.id (Option.some.inj h).symm
  | delete => cases h

theorem get?_apply (h : t.apply c = .ok t') :
    t'.relations.get? id = if id = c.relationId then c.stored? else t.relations.get? id := by
  cases c with
  | insert r =>
    obtain ⟨-, rfl⟩ := apply_insert_eq_ok.1 h
    exact Table.get?_insert ..
  | update r expected =>
    obtain ⟨-, -, -, rfl⟩ := apply_update_eq_ok.1 h
    exact Table.get?_insert ..
  | delete id' expected =>
    obtain ⟨-, -, -, rfl⟩ := apply_delete_eq_ok.1 h
    exact Table.get?_erase ..

/-- A tenant's change leaves the names of the others alone. -/
theorem OwnedBy.keys_of_ne {key : RelationKey} (hc : t.OwnedBy tenant c) (h : t.apply c = .ok t')
    (hkey : key.tenant ≠ tenant) : t.keys.get? key = t'.keys.get? key := by
  cases c with
  | insert r =>
    obtain ⟨-, rfl⟩ := apply_insert_eq_ok.1 h
    have hne : key ≠ r.key := fun he => hkey (he ▸ hc.stored r rfl)
    exact ((Table.get?_insert ..).trans (if_neg hne)).symm
  | update r expected =>
    obtain ⟨-, -, -, rfl⟩ := apply_update_eq_ok.1 h
    rfl
  | delete id expected =>
    obtain ⟨old, hold, -, rfl⟩ := apply_delete_eq_ok.1 h
    have hne : key ≠ old.key := fun he => hkey (he ▸ hc.allots hold)
    exact ((Table.get?_erase ..).trans (if_neg hne)).symm

/-- A name that leads somewhere after a change led there before, or leads to what was
changed. -/
theorem keys_of_apply {key : RelationKey} (h : t.apply c = .ok t')
    (hid : t'.keys.get? key = some id) : t.keys.get? key = some id ∨ id = c.relationId := by
  cases c with
  | insert r =>
    obtain ⟨-, rfl⟩ := apply_insert_eq_ok.1 h
    have hid := (Table.get?_insert ..).symm.trans hid
    split at hid
    · exact .inr (Option.some.inj hid).symm
    · exact .inl hid
  | update r expected =>
    obtain ⟨-, -, -, rfl⟩ := apply_update_eq_ok.1 h
    exact .inl hid
  | delete id' expected =>
    obtain ⟨old, -, -, rfl⟩ := apply_delete_eq_ok.1 h
    have hid := (Table.get?_erase ..).symm.trans hid
    split at hid
    · cases hid
    · exact .inl hid

theorem OwnedBy.allots_apply (hc : t.OwnedBy tenant c) (h : t.apply c = .ok t')
    (hid : t.Allots tenant id) : t'.Allots tenant id := by
  intro r hr
  rw [get?_apply h] at hr
  split at hr
  · exact hc.stored r hr
  · exact hid hr

theorem OwnedBy.tenanted_apply (hc : t.OwnedBy tenant c) (h : t.apply c = .ok t')
    (ht : t.Tenanted tenant) : t'.Tenanted tenant := by
  intro key id r hkey hid hr
  rw [get?_apply h] at hr
  split at hr
  · next hc' => exact ⟨hc.stored r hr, (id_of_stored? hr).trans hc'.symm⟩
  · next hc' => exact ht hkey ((keys_of_apply h hid).resolve_right hc') hr

/-- A tenant's change leaves the shares of the others alone. -/
theorem OwnedBy.agreeOn_ne (hc : t.OwnedBy tenant c) (h : t.apply c = .ok t') :
    AgreeOn (· ≠ tenant) t t' where
  stored {id r} hne := by
    rw [get?_apply h]
    split
    · next hid =>
      subst hid
      exact ⟨fun hr => absurd (hc.allots hr) hne, fun hr => absurd (hc.stored r hr) hne⟩
    · exact Iff.rfl
  named hne := hc.keys_of_ne h hne

theorem AgreeOn.ensureVersion {expected : ExpectedVersion} (h : AgreeOn (· = tenant) t t')
    (ht : t.Allots tenant id) (ht' : t'.Allots tenant id) :
    t.ensureVersion id expected = t'.ensureVersion id expected := by
  unfold Tables.ensureVersion currentVersion
  rw [h.get?_eq ht ht']

/-- Stores that agree on a tenant are alike to its change. -/
theorem AgreeOn.apply (h : AgreeOn (· = tenant) t₁ t₂) (h₁ : t₁.OwnedBy tenant c)
    (h₂ : t₂.OwnedBy tenant c) :
    (∃ e, t₁.apply c = .error e ∧ t₂.apply c = .error e) ∨
    ∃ t₁' t₂', t₁.apply c = .ok t₁' ∧ t₂.apply c = .ok t₂' ∧ AgreeOn (· = tenant) t₁' t₂' := by
  have hstored : ∀ {t₁' t₂'}, t₁.apply c = .ok t₁' → t₂.apply c = .ok t₂' → ∀ {id r},
      r.tenant = tenant → (t₁'.relations.get? id = some r ↔ t₂'.relations.get? id = some r) := by
    intro t₁' t₂' ht₁ ht₂ id r hr
    rw [get?_apply ht₁, get?_apply ht₂]
    split
    · exact Iff.rfl
    · exact h.stored hr
  have hget := h.get?_eq h₁.allots h₂.allots
  cases c with
  | insert r =>
    have hnamed : t₁.keys.get? r.key = t₂.keys.get? r.key := h.named (h₁.stored r rfl)
    cases hkey : t₁.keys.get? r.key with
    | some id =>
      exact .inl ⟨.duplicateExternalId r.tenant r.externalId, by simp only [Tables.apply, hkey],
        by simp only [Tables.apply, ← hnamed, hkey]⟩
    | none =>
      have ht₁ := apply_insert_eq_ok.2 ⟨hkey, rfl⟩
      have ht₂ := apply_insert_eq_ok.2 ⟨hnamed.symm.trans hkey, rfl⟩
      refine .inr ⟨_, _, ht₁, ht₂, hstored ht₁ ht₂, fun hp => ?_⟩
      rw [Table.get?_insert, Table.get?_insert, h.named hp]
  | update r expected =>
    cases hv : t₁.ensureVersion r.id expected with
    | error e =>
      have hv₂ : t₂.ensureVersion r.id expected = .error e :=
        (h.ensureVersion h₁.allots h₂.allots).symm.trans hv
      exact .inl ⟨e, by simp [Tables.apply, hv, bind, Except.bind],
        by simp [Tables.apply, hv₂, bind, Except.bind]⟩
    | ok u =>
      obtain ⟨old, hold, hadmits⟩ := ensureVersion_eq_ok.1 hv
      have ht₁ := apply_update_eq_ok.2 ⟨old, hold, hadmits, rfl⟩
      have ht₂ := apply_update_eq_ok.2 ⟨old, hget.symm.trans hold, hadmits, rfl⟩
      exact .inr ⟨_, _, ht₁, ht₂, hstored ht₁ ht₂, h.named⟩
  | delete id expected =>
    cases hv : t₁.ensureVersion id expected with
    | error e =>
      have hv₂ : t₂.ensureVersion id expected = .error e :=
        (h.ensureVersion h₁.allots h₂.allots).symm.trans hv
      exact .inl ⟨e, by simp [Tables.apply, hv, bind, Except.bind],
        by simp [Tables.apply, hv₂, bind, Except.bind]⟩
    | ok u =>
      obtain ⟨old, hold, hadmits⟩ := ensureVersion_eq_ok.1 hv
      have ht₁ := apply_delete_eq_ok.2 ⟨old, hold, hadmits, rfl⟩
      have ht₂ := apply_delete_eq_ok.2 ⟨old, hget.symm.trans hold, hadmits, rfl⟩
      refine .inr ⟨_, _, ht₁, ht₂, hstored ht₁ ht₂, fun hp => ?_⟩
      rw [Table.get?_erase, Table.get?_erase, h.named hp]

/-! ## Commits -/

/-- A change stays a tenant's while others of the tenant are made. -/
theorem OwnedBy.apply {c' : RelationChange} (hc : t.OwnedBy tenant c) (h : t.apply c = .ok t')
    (hc' : t.OwnedBy tenant c') : t'.OwnedBy tenant c' :=
  ⟨hc.allots_apply h hc'.allots, hc'.stored⟩

/-- What a tenant's commit keeps: the tenant's identifiers, its names, and the shares of
all others. -/
theorem commit_owned (hcs : ∀ c ∈ cs, t.OwnedBy tenant c) (h : t.commit cs = .ok t') :
    (∀ id, t.Allots tenant id → t'.Allots tenant id) ∧
      (t.Tenanted tenant → t'.Tenanted tenant) ∧ AgreeOn (· ≠ tenant) t t' := by
  induction cs generalizing t with
  | nil =>
    cases h
    exact ⟨fun _ hid => hid, fun ht => ht, .refl _ _⟩
  | cons c cs ih =>
    obtain ⟨hc, hcs⟩ := List.forall_mem_cons.1 hcs
    obtain ⟨next, hfirst, hrest⟩ := commit_cons_eq_ok.1 h
    obtain ⟨hallots, htenanted, hothers⟩ := ih (fun c' hc' => hc.apply hfirst (hcs c' hc')) hrest
    exact ⟨fun id hid => hallots id (hc.allots_apply hfirst hid),
      fun ht => htenanted (hc.tenanted_apply hfirst ht), (hc.agreeOn_ne hfirst).trans hothers⟩

/-- Stores that agree on a tenant answer its commits alike. -/
theorem AgreeOn.commit (h : AgreeOn (· = tenant) t₁ t₂) (h₁ : ∀ c ∈ cs, t₁.OwnedBy tenant c)
    (h₂ : ∀ c ∈ cs, t₂.OwnedBy tenant c) :
    (∃ e, t₁.commit cs = .error e ∧ t₂.commit cs = .error e) ∨
    ∃ t₁' t₂', t₁.commit cs = .ok t₁' ∧ t₂.commit cs = .ok t₂' ∧ AgreeOn (· = tenant) t₁' t₂' := by
  induction cs generalizing t₁ t₂ with
  | nil => exact .inr ⟨t₁, t₂, rfl, rfl, h⟩
  | cons c cs ih =>
    obtain ⟨hc₁, h₁⟩ := List.forall_mem_cons.1 h₁
    obtain ⟨hc₂, h₂⟩ := List.forall_mem_cons.1 h₂
    have hcons : ∀ t : Tables, t.commit (c :: cs) = t.apply c >>= fun t' => t'.commit cs :=
      fun _ => List.foldlM_cons
    rw [hcons, hcons]
    rcases h.apply hc₁ hc₂ with ⟨e, he₁, he₂⟩ | ⟨t₁', t₂', ht₁, ht₂, h'⟩
    · rw [he₁, he₂]
      exact .inl ⟨e, rfl, rfl⟩
    · rw [ht₁, ht₂]
      exact ih h' (fun c' hc' => hc₁.apply ht₁ (h₁ c' hc')) fun c' hc' => hc₂.apply ht₂ (h₂ c' hc')

end Tables

/-! ## Searches -/

namespace Relation

variable {a b c : Relation}

theorem createdBefore_total (a b : Relation) :
    a.createdBefore b = true ∨ b.createdBefore a = true := by
  simp only [createdBefore_iff]
  omega

theorem createdBefore_trans (hab : a.createdBefore b = true) (hbc : b.createdBefore c = true) :
    a.createdBefore c = true := by
  simp only [createdBefore_iff] at hab hbc ⊢
  omega

/-- Two relations that were created before each other have one identifier. -/
theorem createdBefore_antisymm (hab : a.createdBefore b = true) (hba : b.createdBefore a = true) :
    a.id = b.id := by
  simp only [createdBefore_iff] at hab hba
  exact relationId_eq_of_val (by omega)

end Relation

/-- Stores that agree on a tenant list its relations alike. -/
theorem Tables.AgreeOn.ofTenant {t t' : Tables} {tenant : TenantBpnl}
    (h : AgreeOn (· = tenant) t t') (hs : t.Sound) (hs' : t'.Sound) :
    t.ofTenant tenant = t'.ofTenant tenant := by
  have hnodup : ∀ {t : Tables}, t.Sound →
      (t.relations.values.filter fun r => r.tenant = tenant).Nodup := fun hs =>
    (hs.nodup_ids.of_map Relation.id).filter _
  refine Relation.mergeSort_eq_of_perm Relation.createdBefore_trans Relation.createdBefore_total
    Relation.createdBefore_antisymm ?_ ?_
  · refine (List.perm_ext_iff_of_nodup (hnodup hs) (hnodup hs')).2 fun r => ?_
    rw [List.mem_filter, List.mem_filter, hs.mem_values, hs'.mem_values]
    exact and_congr_left fun hr => h.stored (by simpa using hr)
  · exact fun a ha b hb => hs'.eq_of_id_eq (List.mem_filter.1 ha).1 (List.mem_filter.1 hb).1

namespace Ledger

variable {l : Ledger} {tenant : TenantBpnl} {externalId : ExternalId} {id : SharingStateId}

/-- The records of a tenant, in their order. -/
def ofTenant (l : Ledger) (tenant : TenantBpnl) : Ledger :=
  l.filter fun record => record.tenant = tenant

theorem ofPartner_ofTenant : (l.ofTenant tenant).ofPartner tenant externalId =
    l.ofPartner tenant externalId := by
  rw [ofPartner, ofTenant, List.filter_filter, ofPartner]
  refine List.filter_congr fun record _ => ?_
  by_cases h : record.tenant = tenant <;> simp [SharingStateRecord.names, h]

/-- A record that no other tenant has one of the same identifier of is found among the
tenant's own. -/
theorem last?_ofTenant (h : ∀ record ∈ l, record.id = id → record.tenant = tenant) :
    (l.ofTenant tenant).last? id = l.last? id := by
  rw [last?, ofTenant, ← List.filter_reverse, List.find?_filter, last?]
  refine List.find?_congr fun record hrecord => ?_
  by_cases hid : record.id = id
  · simp [hid, h record (List.mem_reverse.1 hrecord) hid]
  · simp [hid]

end Ledger

/-- No identifier stands for partners of two tenants. -/
def Directory.Separate (D : Directory) : Prop :=
  ∀ ⦃tenant tenant' id⦄, D tenant id → D tenant' id → tenant = tenant'

theorem Ledger.separate_holds {l : Ledger}
    (h : ∀ r ∈ l, ∀ r' ∈ l, r.id = r'.id → r.tenant = r'.tenant) : l.Holds.Separate := by
  rintro _ _ _ ⟨r, hr, rfl, rfl⟩ ⟨r', hr', rfl, hid⟩
  exact h r hr r' hr' hid.symm

namespace Tables

variable {t : Tables} {l : Ledger} {D : Directory} {tenant : TenantBpnl}

/-- A relation is viewed with its own tenant's records, if all that it refers to are. -/
theorem inputView?_ofTenant {r : Relation} (hD : D.Separate) (hl : l.Holds ≤ D)
    (hr : r.RefersTo D) : inputView? (l.ofTenant r.tenant) r = inputView? l r := by
  have hlast : ∀ {id}, D r.tenant id → (l.ofTenant r.tenant).last? id = l.last? id :=
    fun hid => Ledger.last?_ofTenant fun record hmem he =>
      hD (he ▸ hl _ _ (Ledger.holds_of_mem hmem)) hid
  unfold inputView? Ledger.externalId?
  cases hinput : r.input with
  | none => rfl
  | some stage =>
    obtain ⟨hsource, htarget⟩ := hr stage hinput
    simp only [Option.bind_eq_bind, Option.bind_some, hlast hsource, hlast htarget]

/-- A search for inputs needs no ledger records but the tenant's. -/
theorem searchInput_ofTenant {filter : InputRelationFilter} {page : PageRequest}
    (hD : D.Separate) (hl : l.Holds ≤ D) (hr : ∀ r ∈ t.relations.values, r.RefersTo D) :
    t.searchInput (l.ofTenant tenant) tenant filter page = t.searchInput l tenant filter page := by
  unfold searchInput
  refine congrArg (fun views => Page.ofSorted page (views.filter filter.admits))
    (List.filterMap_congr fun r hmem => ?_)
  obtain ⟨hstored, rfl⟩ := mem_ofTenant.1 hmem
  exact inputView?_ofTenant hD hl (hr r hstored)

end Tables

end PartnerRelations
