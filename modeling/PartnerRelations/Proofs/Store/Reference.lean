/-
# `Proofs.Store.Reference` — relations that refer to ledger records

Relations and the ledger are stored apart, and relations hold identifiers of ledger
records.  What is read of both together needs the identifiers to be there:

    l.Holds tenant id     a record of the tenant in `l` has the identifier

If all stored relations of a tenant refer to records that the ledger holds, a search for
inputs without a filter counts them all (`totalElements_searchInput`), and records asked
for by identifier are found (`Ledger.isSome_last?_withIds`).

An accepted commit stores nothing that it was not told to (`forall_values_commit`).  An
insert into the ledger keeps all records.  An upsert takes the place of a record, and
the identifier of that one stays only if it is the same (`Ledger.holds_upsert`).
-/
import PartnerRelations.Proofs.Relation.Ends
import PartnerRelations.Proofs.Store.Index

namespace PartnerRelations

/-- A stored value stands for nothing in the domain. -/
def StoreError.isCorrupt : StoreError → Bool
  | .corrupt _ => true
  | _ => false

/-- The relation that a change stores. -/
def RelationChange.stored? : RelationChange → Option Relation
  | .insert relation => some relation
  | .update relation _ => some relation
  | .delete _ _ => none

/-! ## The ledger -/

theorem SharingStateRecord.names_iff {r : SharingStateRecord} {tenant : TenantBpnl}
    {externalId : ExternalId} :
    r.names tenant externalId = true ↔ r.tenant = tenant ∧ r.externalId = externalId := by
  simp [names]

namespace Ledger

variable {l : Ledger} {record r : SharingStateRecord} {tenant : TenantBpnl} {id : SharingStateId}
  {ids : List SharingStateId}

/-- The identifiers of a tenant's records. -/
def Holds (l : Ledger) : Directory :=
  fun tenant id => ∃ record ∈ l, record.tenant = tenant ∧ record.id = id

instance (l : Ledger) (tenant : TenantBpnl) (id : SharingStateId) : Decidable (l.Holds tenant id) :=
  inferInstanceAs (Decidable (∃ record ∈ l, record.tenant = tenant ∧ record.id = id))

theorem holds_of_mem (h : r ∈ l) : l.Holds r.tenant r.id := ⟨r, h, rfl, rfl⟩

theorem holds_ofPartner {externalId : ExternalId} (h : r ∈ l.ofPartner tenant externalId) :
    l.Holds tenant r.id := by
  obtain ⟨hmem, hnames⟩ := List.mem_filter.1 h
  exact ⟨r, hmem, (SharingStateRecord.names_iff.1 hnames).1, rfl⟩

theorem isSome_last? (h : l.Holds tenant id) : (l.last? id).isSome = true := by
  obtain ⟨record, hmem, -, hid⟩ := h
  rw [last?, List.find?_isSome]
  exact ⟨record, List.mem_reverse.2 hmem, by simpa using hid⟩

/-- What is asked for and held is among the records found. -/
theorem isSome_last?_withIds (h : l.Holds tenant id) (hid : id ∈ ids) :
    ((l.withIds ids).last? id).isSome = true := by
  obtain ⟨record, hmem, htenant, rfl⟩ := h
  exact isSome_last? ⟨record, List.mem_filter.2 ⟨hmem, by simpa using hid⟩, htenant, rfl⟩

theorem mem_upsert (h : r ∈ upsert record l) : r ∈ l ∨ r = record := by
  induction l with
  | nil => exact .inr (List.mem_singleton.1 h)
  | cons first rest ih =>
    rw [upsert] at h
    split at h
    · rcases List.mem_cons.1 h with h | h
      · exact .inr h
      · exact .inl (List.mem_cons_of_mem _ h)
    · rcases List.mem_cons.1 h with rfl | h
      · exact .inl (List.mem_cons_self ..)
      · exact (ih h).imp_left (List.mem_cons_of_mem _)

theorem self_mem_upsert : record ∈ upsert record l := by
  induction l with
  | nil => exact List.mem_cons_self ..
  | cons first rest ih =>
    rw [upsert]
    split
    · exact List.mem_cons_self ..
    · exact List.mem_cons_of_mem _ ih

/-- An upsert that gives a partner the identifier it has keeps all identifiers. -/
theorem holds_upsert (h : ∀ r ∈ l, r.names record.tenant record.externalId = true →
    r.id = record.id) : l.Holds ≤ (upsert record l).Holds := by
  induction l with
  | nil =>
    rintro _ _ ⟨r, hr, -⟩
    cases hr
  | cons first rest ih =>
    obtain ⟨hfirst, hrest⟩ := List.forall_mem_cons.1 h
    rintro _ _ ⟨r, hr, rfl, rfl⟩
    rw [upsert]
    split
    · next hnames =>
      rcases List.mem_cons.1 hr with rfl | hr
      · have htenant := (SharingStateRecord.names_iff.1 hnames).1
        exact ⟨record, List.mem_cons_self .., htenant.symm, (hfirst hnames).symm⟩
      · exact holds_of_mem (List.mem_cons_of_mem _ hr)
    · rcases List.mem_cons.1 hr with rfl | hr
      · exact holds_of_mem (List.mem_cons_self ..)
      · obtain ⟨r', hr', hsame⟩ := ih hrest _ _ (holds_of_mem hr)
        exact ⟨r', List.mem_cons_of_mem _ hr', hsame⟩

end Ledger

/-! ## The relations -/

namespace Table

variable {κ ν : Type} [DecidableEq κ] {t : Table κ ν} {k : κ} {v w : ν}

theorem mem_values_of_erase (h : w ∈ (t.erase k).values) : w ∈ t.values :=
  (List.filter_sublist.map Prod.snd).subset h

theorem mem_values_of_insert (h : w ∈ (t.insert k v).values) : w ∈ t.values ∨ w = v := by
  rw [values, insert, List.map_append, List.mem_append] at h
  exact h.imp mem_values_of_erase List.mem_singleton.1

end Table

namespace Tables

variable {t t' : Tables} {P : Relation → Prop} {c : RelationChange} {cs : List RelationChange}
  {l : Ledger} {r : Relation} {tenant : TenantBpnl} {e : StoreError}

theorem forall_values_apply (h : ∀ r ∈ t.relations.values, P r) (hc : ∀ r ∈ c.stored?, P r)
    (happly : t.apply c = .ok t') : ∀ r ∈ t'.relations.values, P r := by
  intro r hr
  cases c with
  | insert new =>
    obtain ⟨-, rfl⟩ := apply_insert_eq_ok.1 happly
    rcases Table.mem_values_of_insert hr with hr | rfl
    · exact h r hr
    · exact hc r rfl
  | update new expected =>
    obtain ⟨_, -, -, rfl⟩ := apply_update_eq_ok.1 happly
    rcases Table.mem_values_of_insert hr with hr | rfl
    · exact h r hr
    · exact hc r rfl
  | delete id expected =>
    obtain ⟨_, -, -, rfl⟩ := apply_delete_eq_ok.1 happly
    exact h r (Table.mem_values_of_erase hr)

/-- What holds of all stored relations and of what a commit stores holds afterwards. -/
theorem forall_values_commit (h : ∀ r ∈ t.relations.values, P r)
    (hcs : ∀ c ∈ cs, ∀ r ∈ c.stored?, P r) (hcommit : t.commit cs = .ok t') :
    ∀ r ∈ t'.relations.values, P r := by
  induction cs generalizing t with
  | nil =>
    cases hcommit
    exact h
  | cons c cs ih =>
    obtain ⟨hc, hcs⟩ := List.forall_mem_cons.1 hcs
    obtain ⟨next, happly, hrest⟩ := commit_cons_eq_ok.1 hcommit
    exact ih (forall_values_apply h hc happly) hcs hrest

/-- A store in memory refuses changes for their names and their versions only. -/
theorem isCorrupt_of_commit (h : t.commit cs = .error e) : e.isCorrupt = false := by
  rcases commit_eq_error h with ⟨_, rfl⟩ | ⟨_, -, rfl⟩ <;> rfl

theorem isSome_inputView? {stage : RelationStage} (hinput : r.input = some stage)
    (hr : r.RefersTo l.Holds) : (inputView? l r).isSome = true := by
  obtain ⟨hsource, htarget⟩ := hr stage hinput
  obtain ⟨source, hsource⟩ := Option.isSome_iff_exists.1 (Ledger.isSome_last? hsource)
  obtain ⟨target, htarget⟩ := Option.isSome_iff_exists.1 (Ledger.isSome_last? htarget)
  simp [inputView?, InputRelation.ofRelation?, Ledger.externalId?, hinput, hsource, htarget]

/-- Nothing is filtered by a filter that asks for nothing. -/
theorem admits_default (view : InputRelation) :
    (default : InputRelationFilter).admits view = true := by
  rfl

theorem mem_ofTenant : r ∈ t.ofTenant tenant ↔ r ∈ t.relations.values ∧ r.tenant = tenant := by
  rw [ofTenant, List.mem_mergeSort, List.mem_filter, decide_eq_true_iff]

/-- Relations with an input whose ends the ledger holds are all counted by a search for
anything. -/
theorem totalElements_searchInput (page : PageRequest)
    (h : ∀ r ∈ t.relations.values, r.tenant = tenant →
      (∃ stage, r.input = some stage) ∧ r.RefersTo l.Holds) :
    (t.searchInput l tenant default page).totalElements =
      (t.relations.values.filter fun r => r.tenant = tenant).length := by
  have hviews : ((t.ofTenant tenant).filterMap (inputView? l)).length =
      (t.ofTenant tenant).length := by
    rw [List.filterMap_length_eq_length]
    intro r hr
    obtain ⟨hmem, htenant⟩ := mem_ofTenant.1 hr
    obtain ⟨⟨stage, hinput⟩, hrefers⟩ := h r hmem htenant
    exact isSome_inputView? hinput hrefers
  show (((t.ofTenant tenant).filterMap (inputView? l)).filter _).length = _
  rw [List.filter_eq_self.2 fun view _ => admits_default view, hviews, ofTenant,
    List.length_mergeSort]

end Tables

end PartnerRelations
