/-
# `Proofs.Sql.Ledger` — the ledger in memory and the ledger in a database

Both keep one record for each partner that is upserted, and they differ in what makes two
records the same one.

    memory     the tenant and the external identifier; the later record takes the place of
               the earlier one as it is
    database   the identifier; the later record gives its state, number and moment to the
               earlier one, which keeps its name

So after any sequence of upserts the memory shows for a name the last record that was
written under it, and the database shows for each identifier the name of its first record
with the state of its last one (`Ledger.first?_renewed`).  `upserts_agree_iff` says when
these are the same records for every name after every part of the sequence: exactly when
the sequence never gives two identifiers to one name, nor two names to one identifier.
-/
import Mathlib.Data.List.Induction
import PartnerRelations.Proofs.Sql.PartnerTable
import PartnerRelations.Proofs.Store.Reference

namespace PartnerRelations

/-- The record after `last` was written over it by identifier. -/
def SharingStateRecord.renewed (first last : SharingStateRecord) : SharingStateRecord :=
  { first with
    sharingStateType := last.sharingStateType, bpnl := last.bpnl, updatedAt := last.updatedAt }

namespace Ledger

variable {l : Ledger} {records : List SharingStateRecord} {record r : SharingStateRecord}
  {tenant : TenantBpnl} {externalId : ExternalId} {id : SharingStateId}

/-! ## By name -/

/-- The ledger in memory after records were upserted one after the other. -/
def upserted (records : List SharingStateRecord) : Ledger :=
  records.foldl (fun l record => l.upsert record) []

/-- The last record of a partner. -/
def latest? (l : Ledger) (tenant : TenantBpnl) (externalId : ExternalId) :
    Option SharingStateRecord :=
  (l.ofPartner tenant externalId).getLast?

theorem ofPartner_cons_of_names (h : r.names tenant externalId = true) :
    ofPartner (r :: l) tenant externalId = r :: l.ofPartner tenant externalId :=
  List.filter_cons_of_pos h

theorem ofPartner_cons_of_not_names (h : ¬r.names tenant externalId = true) :
    ofPartner (r :: l) tenant externalId = l.ofPartner tenant externalId :=
  List.filter_cons_of_neg h

theorem upserted_concat :
    upserted (records ++ [record]) = (upserted records).upsert record := by
  rw [upserted, List.foldl_concat]
  rfl

theorem mem_upserted (h : r ∈ upserted records) : r ∈ records := by
  induction records using List.reverseRecOn with
  | nil => exact h
  | append_singleton records record ih =>
    rw [upserted_concat] at h
    rcases mem_upsert h with h | rfl
    · exact List.mem_append_left _ (ih h)
    · exact List.mem_concat_self

theorem ofPartner_upsert_of_names (hnames : record.names tenant externalId = true)
    (h : (l.ofPartner tenant externalId).length ≤ 1) :
    (l.upsert record).ofPartner tenant externalId = [record] := by
  obtain ⟨rfl, rfl⟩ := SharingStateRecord.names_iff.1 hnames
  induction l with
  | nil => exact ofPartner_cons_of_names hnames
  | cons first rest ih =>
    rw [upsert]
    by_cases hfirst : first.names record.tenant record.externalId = true
    · have hrest : ofPartner rest record.tenant record.externalId = [] := by
        rw [ofPartner_cons_of_names hfirst, List.length_cons] at h
        exact List.eq_nil_of_length_eq_zero (by omega)
      rw [if_pos hfirst, ofPartner_cons_of_names hnames, hrest]
    · rw [ofPartner_cons_of_not_names hfirst] at h
      rw [if_neg hfirst, ofPartner_cons_of_not_names hfirst, ih h]

theorem ofPartner_upsert_of_not_names (hnames : ¬record.names tenant externalId = true) :
    (l.upsert record).ofPartner tenant externalId = l.ofPartner tenant externalId := by
  induction l with
  | nil => exact ofPartner_cons_of_not_names hnames
  | cons first rest ih =>
    rw [upsert]
    split
    · next hreplaced =>
      -- the record that is replaced has the name of the new one, so neither is listed
      have hfirst : ¬first.names tenant externalId = true := by
        rw [SharingStateRecord.names_iff] at hreplaced hnames ⊢
        rwa [hreplaced.1, hreplaced.2]
      rw [ofPartner_cons_of_not_names hnames, ofPartner_cons_of_not_names hfirst]
    · by_cases hfirst : first.names tenant externalId = true
      · rw [ofPartner_cons_of_names hfirst, ofPartner_cons_of_names hfirst, ih]
      · rw [ofPartner_cons_of_not_names hfirst, ofPartner_cons_of_not_names hfirst, ih]

theorem latest?_concat : latest? (records ++ [record]) tenant externalId =
    if record.names tenant externalId = true then some record
    else latest? records tenant externalId := by
  rw [latest?, latest?, ofPartner, ofPartner, List.filter_append]
  split
  · next hnames => simp [hnames]
  · next hnames => simp [hnames]

/-- The memory shows the last record that was written under a name, and nothing else. -/
theorem ofPartner_upserted :
    (upserted records).ofPartner tenant externalId =
      (latest? records tenant externalId).toList := by
  induction records using List.reverseRecOn with
  | nil => rfl
  | append_singleton records record ih =>
    rw [upserted_concat, latest?_concat]
    split
    · next hnames =>
      have hlength : ((upserted records).ofPartner tenant externalId).length ≤ 1 := by
        rw [ih]
        exact Option.length_toList_le
      exact ofPartner_upsert_of_names hnames hlength
    · next hnames => rw [ofPartner_upsert_of_not_names hnames, ih]

/-! ## By identifier -/

/-- Write a record over the first one with its identifier, or add it. -/
def renew (record : SharingStateRecord) : Ledger → Ledger
  | [] => [record]
  | first :: rest =>
    if first.id = record.id then first.renewed record :: rest else first :: renew record rest

/-- The ledger after records were written by identifier one after the other. -/
def renewed (records : List SharingStateRecord) : Ledger :=
  records.foldl (fun l record => l.renew record) []

/-- The first record with an identifier. -/
def first? (l : Ledger) (id : SharingStateId) : Option SharingStateRecord :=
  l.find? fun r => r.id = id

theorem renewed_concat : renewed (records ++ [record]) = (renewed records).renew record := by
  rw [renewed, List.foldl_concat]
  rfl

theorem first?_cons_of_eq (h : r.id = id) : first? (r :: l) id = some r :=
  List.find?_cons_of_pos (by simpa using h)

theorem first?_cons_of_ne (h : r.id ≠ id) : first? (r :: l) id = l.first? id :=
  List.find?_cons_of_neg (by simpa using h)

theorem first?_concat :
    first? (l ++ [record]) id = (l.first? id).or (if record.id = id then some record else none) := by
  rw [first?, List.find?_append]
  split
  · next h => exact congrArg _ (first?_cons_of_eq h)
  · next h => exact congrArg _ (first?_cons_of_ne h)

theorem last?_concat :
    last? (l ++ [record]) id = if record.id = id then some record else l.last? id := by
  rw [last?, List.reverse_concat]
  split
  · next h => exact first?_cons_of_eq h
  · next h => exact first?_cons_of_ne h

theorem mem_of_first? (h : l.first? id = some r) : r ∈ l :=
  List.mem_of_find?_eq_some h

theorem id_of_first? (h : l.first? id = some r) : r.id = id := by
  rw [first?] at h
  simpa using List.find?_some h

theorem exists_first? (h : r ∈ l) : ∃ first, l.first? r.id = some first := by
  rw [← Option.isSome_iff_exists, first?, List.find?_isSome]
  exact ⟨r, h, by simp⟩

theorem exists_last? (h : l.first? id = some r) : ∃ last, l.last? id = some last := by
  rw [← Option.isSome_iff_exists, last?, List.find?_isSome]
  exact ⟨r, List.mem_reverse.2 (mem_of_first? h), by simpa using id_of_first? h⟩

theorem first?_renew : (l.renew record).first? id =
    if record.id = id then some (((l.first? id).map (·.renewed record)).getD record)
    else l.first? id := by
  induction l with
  | nil =>
    split
    · next h => exact first?_cons_of_eq h
    · next h => exact first?_cons_of_ne h
  | cons first rest ih =>
    rw [renew]
    split
    · next hsame =>
      split
      · next hid =>
        have hfirst : first.id = id := hsame.trans hid
        rw [first?_cons_of_eq (r := first) hfirst]
        exact first?_cons_of_eq hfirst
      · next hid =>
        have hfirst : first.id ≠ id := fun h => hid (hsame.symm.trans h)
        rw [first?_cons_of_ne (r := first) hfirst]
        exact first?_cons_of_ne hfirst
    · next hother =>
      by_cases hfirst : first.id = id
      · rw [first?_cons_of_eq hfirst, first?_cons_of_eq hfirst,
          if_neg fun h => hother (hfirst.trans h.symm)]
      · rw [first?_cons_of_ne hfirst, first?_cons_of_ne hfirst, ih]

/-- The database shows for an identifier the name of its first record, and the state of its
last one. -/
theorem first?_renewed : (renewed records).first? id =
    (first? records id).bind fun first => (last? records id).map first.renewed := by
  induction records using List.reverseRecOn with
  | nil => rfl
  | append_singleton records record ih =>
    rw [renewed_concat, first?_renew, first?_concat, last?_concat, ih]
    split
    · next h =>
      cases hfirst : first? records id with
      | none => rfl
      | some first =>
        obtain ⟨last, hlast⟩ := exists_last? hfirst
        rw [hlast]
        rfl
    · next h => rw [Option.or_none]

theorem ids_renew : (l.renew record).map (·.id) =
    if record.id ∈ l.map (·.id) then l.map (·.id) else l.map (·.id) ++ [record.id] := by
  induction l with
  | nil => rfl
  | cons first rest ih =>
    rw [renew]
    split
    · next h => simp [SharingStateRecord.renewed, h]
    · next h =>
      rw [List.map_cons, ih]
      by_cases hmem : record.id ∈ rest.map (·.id)
      · rw [if_pos hmem, List.map_cons, if_pos (List.mem_cons_of_mem _ hmem)]
      · rw [if_neg hmem, List.map_cons,
          if_neg fun hin => hmem (List.mem_of_ne_of_mem (Ne.symm h) hin), List.cons_append]

theorem nodup_ids_renewed : ((renewed records).map (·.id)).Nodup := by
  induction records using List.reverseRecOn with
  | nil => exact List.nodup_nil
  | append_singleton records record ih =>
    rw [renewed_concat, ids_renew]
    split
    · exact ih
    · next h => exact List.nodup_append.2 ⟨ih, List.nodup_singleton _, by simpa using h⟩

theorem mem_iff_first? (h : (l.map (·.id)).Nodup) : r ∈ l ↔ l.first? r.id = some r := by
  refine ⟨fun hr => ?_, mem_of_first?⟩
  induction l with
  | nil => cases hr
  | cons first rest ih =>
    obtain ⟨hfirst, hrest⟩ := List.nodup_cons.1 h
    rcases List.mem_cons.1 hr with rfl | hr
    · exact first?_cons_of_eq rfl
    · have hne : first.id ≠ r.id := fun heq => hfirst (List.mem_map.2 ⟨r, hr, heq.symm⟩)
      rw [first?_cons_of_ne hne, ih hrest hr]

/-- What the database holds after records were written. -/
theorem mem_renewed_iff : r ∈ renewed records ↔ ∃ first last,
    first? records r.id = some first ∧ last? records r.id = some last ∧
      r = first.renewed last := by
  rw [mem_iff_first? nodup_ids_renewed, first?_renewed]
  simp only [Option.bind_eq_some_iff, Option.map_eq_some_iff]
  constructor
  · rintro ⟨first, hfirst, last, hlast, hr⟩
    exact ⟨first, last, hfirst, hlast, hr.symm⟩
  · rintro ⟨first, last, hfirst, hlast, hr⟩
    exact ⟨first, hfirst, last, hlast, hr.symm⟩

/-! ## Both -/

/-- Records with the same name have the same identifier, and the other way round. -/
def Consistent (records : List SharingStateRecord) : Prop :=
  ∀ a ∈ records, ∀ b ∈ records, a.id = b.id ↔ a.names b.tenant b.externalId = true

theorem Consistent.mono {part : List SharingStateRecord} (h : Consistent records)
    (hpart : part ⊆ records) : Consistent part :=
  fun a ha b hb => h a (hpart ha) b (hpart hb)

theorem upsert_eq_renew
    (h : ∀ r ∈ l, r.id = record.id ↔ r.names record.tenant record.externalId = true) :
    l.upsert record = l.renew record := by
  induction l with
  | nil => rfl
  | cons first rest ih =>
    obtain ⟨hfirst, hrest⟩ := List.forall_mem_cons.1 h
    rw [upsert, renew, ih hrest]
    by_cases hid : first.id = record.id
    · obtain ⟨htenant, hname⟩ := SharingStateRecord.names_iff.1 (hfirst.1 hid)
      rw [if_pos (hfirst.1 hid), if_pos hid]
      -- nothing of the earlier record is left: its name is that of the later one as well
      have hrenewed : first.renewed record = record := by
        rw [SharingStateRecord.renewed, hid, htenant, hname]
      rw [hrenewed]
    · rw [if_neg (fun hnames => hid (hfirst.2 hnames)), if_neg hid]

/-- Where names and identifiers tell the same records apart, both stores hold the same list. -/
theorem Consistent.upserted_eq (h : Consistent records) : upserted records = renewed records := by
  induction records using List.reverseRecOn with
  | nil => rfl
  | append_singleton records record ih =>
    rw [upserted_concat, renewed_concat, ← ih (h.mono (List.subset_append_left ..))]
    refine upsert_eq_renew fun r hr => ?_
    exact h r (List.mem_append_left _ (mem_upserted hr)) record List.mem_concat_self

/-- The database shows the identifier of a record under the name of that record, whatever is
written later. -/
theorem Consistent.exists_renewed (h : Consistent records) (hr : r ∈ records)
    (more : List SharingStateRecord) : ∃ shown ∈ renewed (records ++ more),
      shown.id = r.id ∧ shown.names r.tenant r.externalId = true := by
  obtain ⟨first, hfirst⟩ := exists_first? hr
  have hid := id_of_first? hfirst
  have hnames := (h first (mem_of_first? hfirst) r hr).1 hid
  have hfirst' : first? (records ++ more) first.id = some first := by
    rw [hid, first?, List.find?_append]
    exact congrArg (Option.or · _) hfirst
  obtain ⟨last, hlast⟩ := exists_last? hfirst'
  exact ⟨first.renewed last, mem_renewed_iff.2 ⟨first, last, hfirst', hlast, rfl⟩, hid, hnames⟩

/-- If the database shows under the name of the last record that record only, then it goes
by its name and by its identifier alike. -/
theorem Consistent.concat (h : Consistent records)
    (hlast : (renewed (records ++ [record])).ofPartner record.tenant record.externalId = [record]) :
    Consistent (records ++ [record]) := by
  have hrecord : record ∈ renewed (records ++ [record]) :=
    (List.mem_filter.1 (hlast ▸ List.mem_singleton_self record)).1
  have hiff : ∀ r ∈ records, r.id = record.id ↔ r.names record.tenant record.externalId = true := by
    intro r hr
    obtain ⟨shown, hshown, hid, hnames⟩ := h.exists_renewed hr [record]
    constructor
    · intro heq
      have hfirst := (mem_iff_first? nodup_ids_renewed).1 hshown
      rw [hid, heq, (mem_iff_first? nodup_ids_renewed).1 hrecord] at hfirst
      cases hfirst
      obtain ⟨htenant, hname⟩ := SharingStateRecord.names_iff.1 hnames
      exact SharingStateRecord.names_iff.2 ⟨htenant.symm, hname.symm⟩
    · intro hr
      obtain ⟨htenant, hname⟩ := SharingStateRecord.names_iff.1 hr
      rw [htenant, hname] at hnames
      have hsame : shown ∈ [record] := hlast ▸ List.mem_filter.2 ⟨hshown, hnames⟩
      rw [← hid, List.mem_singleton.1 hsame]
  intro a ha b hb
  rcases List.mem_append.1 ha with ha | ha <;> rcases List.mem_append.1 hb with hb | hb
  · exact h a ha b hb
  · cases List.mem_singleton.1 hb
    exact hiff a ha
  · cases List.mem_singleton.1 ha
    rw [eq_comm, hiff b hb, SharingStateRecord.names_iff, SharingStateRecord.names_iff]
    exact ⟨fun h => ⟨h.1.symm, h.2.symm⟩, fun h => ⟨h.1.symm, h.2.symm⟩⟩
  · cases List.mem_singleton.1 ha
    cases List.mem_singleton.1 hb
    exact ⟨fun _ => SharingStateRecord.names_iff.2 ⟨rfl, rfl⟩, fun _ => rfl⟩

end Ledger

/-! ## The table of the database -/

namespace Sql

variable {l : Ledger} {records : List SharingStateRecord} {record : SharingStateRecord}
  {tenant : TenantBpnl} {externalId : ExternalId}

/-- The rows of records. -/
def PartnerTable.ofLedger (l : Ledger) : PartnerTable :=
  l.map (rowOf partnerColumns)

/-- Overwriting the columns of the state leaves the columns of the identity. -/
theorem overwrite_rowOf (first last : SharingStateRecord) :
    (rowOf partnerColumns first).overwrite (names partnerState) (rowOf partnerColumns last) =
      rowOf partnerColumns (first.renewed last) := by
  rfl

theorem lookup_id_eq_iff {a b : SharingStateRecord} :
    (rowOf partnerColumns a).lookup "id" = (rowOf partnerColumns b).lookup "id" ↔ a.id = b.id := by
  have hcell : ∀ r : SharingStateRecord,
      (rowOf partnerColumns r).lookup "id" = some (cell r.id.uuid) := fun _ => rfl
  rw [hcell, hcell]
  constructor
  · intro h
    have huuid : a.id.uuid = b.id.uuid := cell_injective (Option.some.inj h)
    exact congrArg SharingStateId.mk huuid
  · intro h
    rw [h]

theorem upsert_ofLedger :
    (PartnerTable.ofLedger l).upsert (names partnerState) (rowOf partnerColumns record) =
      PartnerTable.ofLedger (l.renew record) := by
  induction l with
  | nil => rfl
  | cons first rest ih =>
    rw [PartnerTable.ofLedger, List.map_cons, PartnerTable.upsert, Ledger.renew]
    by_cases hid : first.id = record.id
    · rw [if_pos (lookup_id_eq_iff.2 hid), if_pos hid, overwrite_rowOf]
      rfl
    · rw [if_neg fun h => hid (lookup_id_eq_iff.1 h), if_neg hid]
      exact congrArg _ ih

theorem ofPartner_ofLedger : (PartnerTable.ofLedger l).ofPartner tenant externalId =
    PartnerTable.ofLedger (l.ofPartner tenant externalId) := by
  have htext {kind : KeyKind} (a b : Key kind) : some (cell a.text) = some (cell b.text) ↔ a = b :=
    ⟨fun h => Key.eq_of_text (cell_injective (Option.some.inj h)), fun h => h ▸ rfl⟩
  rw [PartnerTable.ofPartner, PartnerTable.ofLedger, List.filter_map]
  refine congrArg (List.map _) (List.filter_congr fun r _ => ?_)
  have htenant : (rowOf partnerColumns r).lookup "tenant_bpnl" = some (cell r.tenant.text) := rfl
  have hname : (rowOf partnerColumns r).lookup "external_id" = some (cell r.externalId.text) := rfl
  simp only [Function.comp, htenant, hname, htext, SharingStateRecord.names]

theorem mapM_readPartner : (PartnerTable.ofLedger l).mapM readPartner = .ok l := by
  induction l with
  | nil => rfl
  | cons first rest ih =>
    rw [PartnerTable.ofLedger] at ih ⊢
    simp only [List.map_cons, List.mapM_cons, readPartner_rowOf, ih]
    rfl

/-- Write records one after the other, and then look a partner up. -/
def upsertAll (records : List SharingStateRecord) (tenant : TenantBpnl) (externalId : ExternalId) :
    Operation (List SharingStateRecord) := do
  records.forM upsertPartner
  partnerRecords tenant externalId

theorem on_forM_upsertPartner : (records.forM upsertPartner).on (PartnerTable.ofLedger l) =
    (.ok (), PartnerTable.ofLedger (records.foldl (fun l record => l.renew record) l)) := by
  induction records generalizing l with
  | nil => rfl
  | cons record rest ih =>
    have hfirst : (upsertPartner record).on (PartnerTable.ofLedger l) =
        (.ok (), PartnerTable.ofLedger (l.renew record)) := by
      rw [on_upsertPartner, upsert_ofLedger]
    exact (Operation.on_bind_ok hfirst).trans ih

/-- All writes succeed, and the look-up shows what was written by identifier. -/
theorem on_upsertAll : (upsertAll records tenant externalId).on [] =
    (.ok ((Ledger.renewed records).ofPartner tenant externalId),
      PartnerTable.ofLedger (Ledger.renewed records)) := by
  have hwritten : (records.forM upsertPartner).on [] =
      (.ok (), PartnerTable.ofLedger (Ledger.renewed records)) := on_forM_upsertPartner (l := [])
  rw [upsertAll, Operation.on_bind_ok hwritten, on_partnerRecords, ofPartner_ofLedger,
    mapM_readPartner]

/-! ## Agreement -/

/-- After the same upserts, the database and the memory show the same records of a partner,
in whatever order. -/
def StoresAgree (records : List SharingStateRecord) (tenant : TenantBpnl)
    (externalId : ExternalId) : Prop :=
  ∃ found, ((upsertAll records tenant externalId).on []).1 = .ok found ∧
    found.Perm ((Ledger.upserted records).ofPartner tenant externalId)

theorem storesAgree_iff : StoresAgree records tenant externalId ↔
    ((Ledger.renewed records).ofPartner tenant externalId).Perm
      ((Ledger.upserted records).ofPartner tenant externalId) := by
  rw [StoresAgree, on_upsertAll]
  exact ⟨fun ⟨found, hfound, h⟩ => Except.ok.inj hfound ▸ h, fun h => ⟨_, rfl, h⟩⟩

theorem consistent_of_agree
    (h : ∀ part, part <+: records → ∀ tenant externalId, StoresAgree part tenant externalId) :
    Ledger.Consistent records := by
  induction records using List.reverseRecOn with
  | nil =>
    intro a ha
    cases ha
  | append_singleton records record ih =>
    have hearlier : Ledger.Consistent records :=
      ih fun part hpart => h part (hpart.trans (List.prefix_append ..))
    refine hearlier.concat ?_
    have hagree := storesAgree_iff.1 (h _ List.prefix_rfl record.tenant record.externalId)
    rw [Ledger.ofPartner_upserted, Ledger.latest?_concat,
      if_pos (SharingStateRecord.names_iff.2 ⟨rfl, rfl⟩)] at hagree
    exact List.perm_singleton.1 hagree

/-- What the two stores show after any sequence of upserts, and when it is the same. -/
theorem upserts_agree_iff (records : List SharingStateRecord) :
    (∀ tenant externalId, (Ledger.upserted records).ofPartner tenant externalId =
      (Ledger.latest? records tenant externalId).toList) ∧
    (∀ tenant externalId, ∃ found, ((upsertAll records tenant externalId).on []).1 = .ok found ∧
      (found.map (·.id)).Nodup ∧
      ∀ r, r ∈ found ↔ r.names tenant externalId = true ∧
        ∃ first last, Ledger.first? records r.id = some first ∧
          Ledger.last? records r.id = some last ∧ r = first.renewed last) ∧
    ((∀ part, part <+: records → ∀ tenant externalId, StoresAgree part tenant externalId) ↔
      Ledger.Consistent records) := by
  refine ⟨fun _ _ => Ledger.ofPartner_upserted, fun tenant externalId => ?_,
    consistent_of_agree, ?_⟩
  · refine ⟨_, congrArg Prod.fst on_upsertAll, ?_, fun r => ?_⟩
    · exact Ledger.nodup_ids_renewed.sublist (List.filter_sublist.map _)
    · rw [Ledger.ofPartner, List.mem_filter, Ledger.mem_renewed_iff, and_comm]
  · intro h part hpart tenant externalId
    rw [storesAgree_iff, (h.mono hpart.subset).upserted_eq]

/-! Two identifiers under one name. -/

private abbrev renamedTenant : TenantBpnl := ⟨"T10", by cbv, by decide⟩
private abbrev renamedPartner : ExternalId := ⟨"P13", by cbv, by decide⟩
private abbrev firstNumber : SharingStateRecord :=
  .fresh ⟨.ofNat 1⟩ renamedTenant renamedPartner .epoch
private abbrev secondNumber : SharingStateRecord :=
  .fresh ⟨.ofNat 2⟩ renamedTenant renamedPartner .epoch

/-- The database shows both records, the memory the second one only. -/
theorem second_number_disagrees :
    ¬StoresAgree [firstNumber, secondNumber] renamedTenant renamedPartner := by
  intro h
  have hlength := (storesAgree_iff.1 h).length_eq
  have hdatabase : (Ledger.renewed [firstNumber, secondNumber]).ofPartner renamedTenant
      renamedPartner = [firstNumber, secondNumber] := by decide
  have hmemory : (Ledger.upserted [firstNumber, secondNumber]).ofPartner renamedTenant
      renamedPartner = [secondNumber] := by decide
  rw [hdatabase, hmemory] at hlength
  cases hlength

end Sql

end PartnerRelations
