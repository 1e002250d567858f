/-
# `Proofs.Store.History` — a store and what was ever committed to it

A `History` lists, for every identifier, the envelopes of all units of work that
changed the relation, in the order of their commits, and remembers the name that
the relation was created under.  It accounts for a store if every stored relation
is what comes of applying its events to a relation that nothing has happened to,
and whatever has events but is not stored was deleted (`History.Accounts`).

A writer may have read a relation long ago.  What it read is a state that the
history recalls: some number of the first events, applied.  The version counts
them, so

    `Accounts.eq_of_version`    what was read is what is stored,
                                if only the version is the same

and that is all that an optimistic check needs.  `Accounts.commit` takes the
changes of a grounded unit of work through a store that accepts them: each
replaces the very state that it was computed from (`RelationChange.Replaces`),
and the history goes on with the unit's envelopes.
-/
import Mathlib.Logic.Function.Basic
import PartnerRelations.Proofs.Store.Index
import PartnerRelations.Proofs.UnitOfWork.Grounding

namespace PartnerRelations

/-- What was committed of every relation, oldest first, and its name. -/
structure History where
  name : RelationId → RelationKey
  envelopes : RelationId → List RelationEnvelope

namespace History

variable {h h' : History} {t t' : Tables} {id : RelationId} {key : RelationKey}
  {base r : Relation} {es : List RelationEvent} {envelopes : List RelationEnvelope}

/-- Nothing was ever committed. -/
def empty : History where
  name id := ⟨Key.ofUuid .tenant id.uuid, Key.ofUuid .externalId id.uuid⟩
  envelopes _ := []

/-- The events of a relation. -/
def events (h : History) (id : RelationId) : List RelationEvent :=
  (h.envelopes id).map (·.payload)

/-- A relation after its first `n` events. -/
def past (h : History) (id : RelationId) (n : Nat) : Relation :=
  (Relation.empty id (h.name id).tenant (h.name id).externalId).applyAll ((h.events id).take n)

/-- A relation after all its events. -/
def current (h : History) (id : RelationId) : Relation :=
  (Relation.empty id (h.name id).tenant (h.name id).externalId).applyAll (h.events id)

/-- The relation was once like this. -/
def Recalls (h : History) (r : Relation) : Prop :=
  ∃ n ≤ (h.events r.id).length, r = h.past r.id n

/-- The history with more envelopes of one relation. -/
def extend (h : History) (id : RelationId) (key : RelationKey)
    (envelopes : List RelationEnvelope) : History where
  name := Function.update h.name id key
  envelopes := Function.update h.envelopes id (h.envelopes id ++ envelopes)

theorem envelopes_extend : (h.extend id key envelopes).envelopes id = h.envelopes id ++ envelopes :=
  Function.update_self ..

theorem envelopes_extend_of_ne {id' : RelationId} (hne : id' ≠ id) :
    (h.extend id key envelopes).envelopes id' = h.envelopes id' :=
  Function.update_of_ne hne ..

theorem name_extend : (h.extend id key envelopes).name id = key :=
  Function.update_self ..

theorem name_extend_of_ne {id' : RelationId} (hne : id' ≠ id) :
    (h.extend id key envelopes).name id' = h.name id' :=
  Function.update_of_ne hne ..

theorem current_extend_of_ne {id' : RelationId} (hne : id' ≠ id) :
    (h.extend id key envelopes).current id' = h.current id' := by
  rw [current, events, envelopes_extend_of_ne hne, name_extend_of_ne hne]
  rfl

/-! ## Going on -/

/-- The second history goes on where the first one ends. -/
structure Extends (h h' : History) : Prop where
  envelopes : ∀ id, ∃ more, h'.envelopes id = h.envelopes id ++ more
  name : ∀ id, h.envelopes id ≠ [] → h'.name id = h.name id

theorem Extends.refl (h : History) : h.Extends h :=
  ⟨fun _ => ⟨[], (List.append_nil _).symm⟩, fun _ _ => rfl⟩

theorem Extends.trans {h'' : History} (hh : h.Extends h') (hh' : h'.Extends h'') :
    h.Extends h'' where
  envelopes id := by
    obtain ⟨more, hm⟩ := hh.envelopes id
    obtain ⟨more', hm'⟩ := hh'.envelopes id
    exact ⟨more ++ more', by rw [hm', hm, List.append_assoc]⟩
  name id hid := by
    obtain ⟨more, hm⟩ := hh.envelopes id
    rw [hh'.name id (by rw [hm]; exact List.append_ne_nil_of_left_ne_nil hid more), hh.name id hid]

theorem extends_extend (hkey : h.envelopes id = [] ∨ h.name id = key) :
    h.Extends (h.extend id key envelopes) where
  envelopes id' := by
    by_cases hid : id' = id
    · subst hid
      exact ⟨envelopes, envelopes_extend⟩
    · exact ⟨[], by rw [envelopes_extend_of_ne hid, List.append_nil]⟩
  name id' hid' := by
    by_cases hid : id' = id
    · subst hid
      exact name_extend.trans (hkey.resolve_left hid').symm
    · exact name_extend_of_ne hid

/-- A relation that was created has events. -/
theorem Recalls.envelopes_ne_nil (hr : h.Recalls r) (hc : r.created = true) :
    h.envelopes r.id ≠ [] := by
  rintro hnil
  obtain ⟨n, -, hn⟩ := hr
  rw [past, events, hnil, List.map_nil, List.take_nil] at hn
  rw [hn] at hc
  cases hc

theorem Recalls.name_eq (hr : h.Recalls r) : h.name r.id = r.key := by
  obtain ⟨n, -, hn⟩ := hr
  have : r.key = (h.past r.id n).key := by rw [← hn]
  rw [this, past, Relation.key_applyAll]
  rfl

/-- What was once so, was so for ever. -/
theorem Recalls.mono (hr : h.Recalls r) (hc : r.created = true) (hh : h.Extends h') :
    h'.Recalls r := by
  have hname := hh.name r.id (hr.envelopes_ne_nil hc)
  obtain ⟨n, hle, hn⟩ := hr
  obtain ⟨more, hm⟩ := hh.envelopes r.id
  have hevents : h'.events r.id = h.events r.id ++ more.map (·.payload) := by
    rw [events, hm, List.map_append, events]
  refine ⟨n, ?_, ?_⟩
  · rw [hevents, List.length_append]
    exact Nat.le_add_right_of_le hle
  · rw [past, hevents, hname, List.take_append_of_le_length hle]
    exact hn

/-! ## Accounting for a store -/

/-- The history tells of everything in the store and everything that was. -/
structure Accounts (h : History) (t : Tables) : Prop where
  sound : t.Sound
  stored : ∀ {id r}, t.relations.get? id = some r → r = h.current id ∧ r.isCreated = true
  gone : ∀ {id}, t.relations.get? id = none → h.envelopes id = [] ∨ (h.current id).deleted = true
  numbers : ∀ id, (h.envelopes id).map (·.sequenceNumber) =
    List.range' 1 (h.envelopes id).length
  origin : ∀ id, ∀ e ∈ h.envelopes id, e.tenant = (h.name id).tenant ∧ e.aggregateId = id
  lawful : ∀ id, (Relation.empty id (h.name id).tenant (h.name id).externalId).Evolves
    (h.events id) (h.current id)

theorem accounts_empty : empty.Accounts .empty where
  sound := Tables.sound_empty
  stored h := by simp [Tables.empty] at h
  gone _ := .inl rfl
  numbers _ := rfl
  origin _ _ h := by simp [empty] at h
  lawful _ := .refl _

theorem current_eq_past : h.current id = h.past id (h.events id).length := by
  rw [current, past, List.take_length]

/-- What is stored is recalled from now on. -/
theorem Accounts.recalls (ha : h.Accounts t) (hr : t.relations.get? id = some r) :
    h.Recalls r := by
  obtain rfl := ha.sound.id_eq hr
  exact ⟨_, Nat.le_refl _, (ha.stored hr).1.trans current_eq_past⟩

/-- A version tells a state. -/
theorem Recalls.eq_of_version (hb : h.Recalls base) (hr : h.Recalls r) (hid : base.id = r.id)
    (hv : base.version = r.version) : base = r := by
  have hversion : ∀ {n}, n ≤ (h.events r.id).length → (h.past r.id n).version = n := by
    intro n hle
    rw [past, Relation.version_applyAll, List.length_take, Nat.min_eq_left hle]
    exact Nat.zero_add n
  obtain ⟨n, hle, hn⟩ := hb
  obtain ⟨n', hle', hn'⟩ := hr
  rw [hid] at hle hn
  have hnn' : n = n' := by rw [← hversion hle, ← hversion hle', ← hn, ← hn', hv]
  rw [hn, hnn']
  exact hn'.symm

/-- What was read is what is stored, if only the version is the same. -/
theorem Accounts.eq_of_version (ha : h.Accounts t) (hr : t.relations.get? base.id = some r)
    (hb : h.Recalls base) (hv : base.version = r.version) : base = r :=
  hb.eq_of_version (ha.recalls hr) (ha.sound.id_eq hr).symm hv

/-- The relation is where the history is with it, be that nowhere yet. -/
structure Arrives (h : History) (base : Relation) : Prop where
  eq : base = (Relation.empty base.id base.tenant base.externalId).applyAll (h.events base.id)
  name : h.envelopes base.id = [] ∨ h.name base.id = base.key

theorem Arrives.version_eq (hb : h.Arrives base) : base.version = (h.envelopes base.id).length := by
  have := congrArg Relation.version hb.eq
  rw [Relation.version_applyAll, events, List.length_map] at this
  exact this.trans (Nat.zero_add _)

theorem Accounts.arrives (ha : h.Accounts t) (hr : t.relations.get? r.id = some r) :
    h.Arrives r := by
  have hname := (ha.recalls hr).name_eq
  refine ⟨?_, .inr hname⟩
  have := (ha.stored hr).1
  rwa [current, hname] at this

theorem arrives_empty {tenant : TenantBpnl} {externalId : ExternalId} (hid : h.envelopes id = []) :
    h.Arrives (Relation.empty id tenant externalId) where
  eq := by
    show _ = (Relation.empty id tenant externalId).applyAll (h.events id)
    rw [events, hid]
    rfl
  name := .inl hid

theorem current_extend (hb : h.Arrives base) (he : base.Evolves es r)
    (hc : Carries base base.version es envelopes) :
    (h.extend base.id base.key envelopes).current base.id = r := by
  rw [current, events, envelopes_extend, name_extend, List.map_append, Relation.applyAll_append,
    hc.payloads, he.eq_applyAll]
  exact congrArg (Relation.applyAll · es) hb.eq.symm

/-- Commands led to a relation that is where the history is with it. -/
theorem Accounts.evolves (ha : h.Accounts t) (hb : h.Arrives base) :
    (Relation.empty base.id base.tenant base.externalId).Evolves (h.events base.id) base := by
  rcases hb.name with hnil | hname
  · have hevents : h.events base.id = [] := by rw [events, hnil, List.map_nil]
    have heq := hb.eq
    rw [hevents, Relation.applyAll_nil] at heq
    rw [hevents]
    exact heq ▸ .refl base
  · have hlawful := ha.lawful base.id
    rw [current, hname] at hlawful
    rwa [show (Relation.empty base.id base.key.tenant base.key.externalId).applyAll
      (h.events base.id) = base from hb.eq.symm] at hlawful

/-- Events of a relation, brought to the store, keep it accounted for. -/
theorem Accounts.extend (ha : h.Accounts t) (hb : h.Arrives base) (he : base.Evolves es r)
    (hc : Carries base base.version es envelopes) (hcreated : r.created = true)
    (hsound : t'.Sound)
    (hframe : ∀ id ≠ r.id, t'.relations.get? id = t.relations.get? id)
    (hget : t'.relations.get? r.id = if r.deleted then none else some r) :
    (h.extend r.id r.key envelopes).Accounts t' := by
  rw [he.id_eq] at hframe hget
  rw [he.id_eq, he.key_eq]
  refine ⟨hsound, fun {id r'} hr => ?_, fun {id} hn => ?_, fun id => ?_, fun id e hmem => ?_,
    fun id => ?_⟩ <;> by_cases hid : id = base.id
  · subst hid
    rw [hget] at hr
    split at hr
    · cases hr
    · next hd =>
      cases hr
      exact ⟨(current_extend hb he hc).symm, Relation.isCreated_iff.2 ⟨hcreated, by simpa using hd⟩⟩
  · rw [hframe id hid] at hr
    rw [current_extend_of_ne hid]
    exact ha.stored hr
  · subst hid
    rw [hget] at hn
    split at hn
    · next hd => exact .inr (by rw [current_extend hb he hc]; exact hd)
    · cases hn
  · rw [hframe id hid] at hn
    rw [current_extend_of_ne hid, envelopes_extend_of_ne hid]
    exact ha.gone hn
  · subst hid
    have hlength : envelopes.length = es.length := by rw [← hc.payloads, List.length_map]
    rw [envelopes_extend, List.map_append, ha.numbers, hc.numbers, List.length_append,
      hlength, hb.version_eq, ← List.range'_append_1, Nat.add_comm 1]
  · rw [envelopes_extend_of_ne hid]
    exact ha.numbers id
  · subst hid
    rw [name_extend]
    rw [envelopes_extend, List.mem_append] at hmem
    rcases hmem with hmem | hmem
    · obtain ⟨htenant, hid⟩ := ha.origin _ e hmem
      exact ⟨by rw [htenant, hb.name.resolve_left (List.ne_nil_of_mem hmem)], hid⟩
    · exact hc.origin e hmem
  · rw [name_extend_of_ne hid]
    rw [envelopes_extend_of_ne hid] at hmem
    exact ha.origin id e hmem
  · subst hid
    rw [current_extend hb he hc, events, name_extend, envelopes_extend, List.map_append,
      hc.payloads]
    exact (ha.evolves hb).trans he
  · rw [current_extend_of_ne hid, events, name_extend_of_ne hid, envelopes_extend_of_ne hid]
    exact ha.lawful id

end History

/-! ## Commits -/

/-- The change replaces the relation that it was computed from, as it was shown,
by the relation that came of it. -/
def RelationChange.Replaces (shown : RelationId → Option Relation) (t t' : Tables) :
    RelationChange → Prop
  | .insert r => ∃ es, (Relation.empty r.id r.tenant r.externalId).Evolves es r ∧
      t.relations.get? r.id = none ∧ t'.relations.get? r.id = some r
  | .update r _ => ∃ base es, shown r.id = some base ∧ base.Evolves es r ∧
      t.relations.get? r.id = some base ∧ t'.relations.get? r.id = some r
  | .delete id _ => ∃ base es r, shown id = some base ∧ base.Evolves es r ∧ r.deleted = true ∧
      t.relations.get? id = some base ∧ t'.relations.get? id = none

theorem RelationChange.Replaces.congr {shown : RelationId → Option Relation}
    {t₁ t₁' t₂ t₂' : Tables} {c : RelationChange} (h : c.Replaces shown t₁ t₁')
    (ht : t₂.relations.get? c.relationId = t₁.relations.get? c.relationId)
    (ht' : t₂'.relations.get? c.relationId = t₁'.relations.get? c.relationId) :
    c.Replaces shown t₂ t₂' := by
  cases c with
  | insert r =>
    obtain ⟨es, he, hold, hnew⟩ := h
    exact ⟨es, he, ht.trans hold, ht'.trans hnew⟩
  | update r expected =>
    obtain ⟨base, es, hb, he, hold, hnew⟩ := h
    exact ⟨base, es, hb, he, ht.trans hold, ht'.trans hnew⟩
  | delete id expected =>
    obtain ⟨base, es, r, hb, he, hd, hold, hnew⟩ := h
    exact ⟨base, es, r, hb, he, hd, ht.trans hold, ht'.trans hnew⟩

/-- A relation that was shown, as far as the history recalls it. -/
def History.Read (h : History) (shown : RelationId → Option Relation) (base : Relation) : Prop :=
  shown base.id = some base ∧ h.Recalls base ∧ base.created = true

/-- A relation without a history. -/
def History.Unborn (h : History) (base : Relation) : Prop :=
  base = .empty base.id base.tenant base.externalId ∧ h.envelopes base.id = []

namespace History

variable {h : History} {shown : RelationId → Option Relation} {t t' : Tables} {tr : Tracked}
  {envelopes : List RelationEnvelope}

/-- What was read is stored, if a relation of its identifier and version is. -/
theorem Accounts.found (ha : h.Accounts t) {base r old : Relation} {es : List RelationEvent}
    (hread : h.Read shown base) (he : base.Evolves es r)
    (hold : t.relations.get? r.id = some old)
    (hv : (ExpectedVersion.exact base.version).admits old.version = true) : base = old :=
  ha.eq_of_version (he.id_eq ▸ hold) hread.2.1 (by simpa [ExpectedVersion.admits] using hv)

theorem Accounts.apply_update (ha : h.Accounts t) {base r : Relation} {es : List RelationEvent}
    (hread : h.Read shown base) (he : base.Evolves es r)
    (hcarries : Carries base base.version es envelopes) (hd : r.deleted = false)
    (happly : t.apply (.update r (.exact base.version)) = .ok t') :
    (h.extend r.id r.key envelopes).Accounts t' ∧
      (RelationChange.update r (.exact base.version)).Replaces shown t t' := by
  obtain ⟨old, hold, hv, rfl⟩ := Tables.apply_update_eq_ok.1 happly
  obtain rfl := ha.found hread he hold hv
  have hget : (t.relations.insert r.id r).get? r.id = some r :=
    (Table.get?_insert ..).trans (if_pos rfl)
  refine ⟨?_, base, es, he.id_eq ▸ hread.1, he, hold, hget⟩
  exact ha.extend (ha.arrives (he.id_eq ▸ hold)) he hcarries (he.created_of_created hread.2.2)
    (ha.sound.update hold he.key_eq.symm) (fun _ => Tables.apply_frame happly)
    (by rw [hd]; exact hget)

theorem Accounts.apply_delete (ha : h.Accounts t) {base r : Relation} {es : List RelationEvent}
    (hread : h.Read shown base) (he : base.Evolves es r)
    (hcarries : Carries base base.version es envelopes) (hd : r.deleted = true)
    (happly : t.apply (.delete r.id (.exact base.version)) = .ok t') :
    (h.extend r.id r.key envelopes).Accounts t' ∧
      (RelationChange.delete r.id (.exact base.version)).Replaces shown t t' := by
  obtain ⟨old, hold, hv, rfl⟩ := Tables.apply_delete_eq_ok.1 happly
  obtain rfl := ha.found hread he hold hv
  have hget : (t.relations.erase r.id).get? r.id = none :=
    (Table.get?_erase ..).trans (if_pos rfl)
  refine ⟨?_, base, es, r, he.id_eq ▸ hread.1, he, hd, hold, hget⟩
  exact ha.extend (ha.arrives (he.id_eq ▸ hold)) he hcarries (he.created_of_created hread.2.2)
    (ha.sound.delete hold) (fun _ => Tables.apply_frame happly) (by rw [hd]; exact hget)

theorem Accounts.apply_insert (ha : h.Accounts t) {base r : Relation} {es : List RelationEvent}
    (hnew : h.Unborn base) (he : base.Evolves es r) (hlive : r.isCreated = true)
    (hcarries : Carries base base.version es envelopes) (happly : t.apply (.insert r) = .ok t') :
    (h.extend r.id r.key envelopes).Accounts t' ∧
      (RelationChange.insert r).Replaces shown t t' := by
  obtain ⟨hcreated, hd⟩ := Relation.isCreated_iff.1 hlive
  have hnil : h.envelopes r.id = [] := by rw [he.id_eq, hnew.2]
  obtain ⟨hkey, rfl⟩ := Tables.apply_insert_eq_ok.1 happly
  have hget : (t.relations.insert r.id r).get? r.id = some r :=
    (Table.get?_insert ..).trans (if_pos rfl)
  have hnone : t.relations.get? r.id = none := by
    cases hold : t.relations.get? r.id with
    | none => rfl
    | some old =>
      have hcr := (Relation.isCreated_iff.1 (ha.stored hold).2).1
      exact absurd (ha.sound.id_eq hold ▸ hnil) ((ha.recalls hold).envelopes_ne_nil hcr)
  have hbase : Relation.empty r.id r.tenant r.externalId = base := by
    have hk := he.key_eq
    rw [hnew.1, he.id_eq]
    exact congrArg (fun k : RelationKey => Relation.empty base.id k.tenant k.externalId) hk
  refine ⟨?_, es, hbase ▸ he, hnone, hget⟩
  exact ha.extend (hbase ▸ arrives_empty hnil) he hcarries hcreated (ha.sound.insert hkey hnone)
    (fun _ => Tables.apply_frame happly) (by rw [hd]; exact hget)

/-- The change of one remembered relation, accepted by the store. -/
theorem Accounts.apply (ha : h.Accounts t)
    (hg : tr.Grounded (h.Read shown) h.Unborn envelopes) {c : RelationChange}
    (hc : tr.change? = some c) (happly : t.apply c = .ok t') :
    (h.extend tr.relation.id tr.relation.key envelopes).Accounts t' ∧
      (h.envelopes tr.relation.id = [] ∨ h.name tr.relation.id = tr.relation.key) ∧
      c.Replaces shown t t' := by
  cases hg with
  | @read base r es hread he hcarries =>
    have hname : h.name r.id = r.key := by rw [he.id_eq, he.key_eq, hread.2.1.name_eq]
    obtain ⟨-, rfl⟩ := Tracked.change?_persisted_eq_some.1 hc
    cases hd : r.deleted with
    | false =>
      rw [hd] at happly
      obtain ⟨ha', hrep⟩ := ha.apply_update hread he hcarries hd happly
      exact ⟨ha', .inr hname, hrep⟩
    | true =>
      rw [hd] at happly
      obtain ⟨ha', hrep⟩ := ha.apply_delete hread he hcarries hd happly
      exact ⟨ha', .inr hname, hrep⟩
  | @new base r es hnew hv he hne hlive hcarries =>
    obtain ⟨-, -, rfl⟩ := Tracked.change?_new_eq_some.1 hc
    obtain ⟨ha', hrep⟩ := ha.apply_insert hnew he hlive hcarries happly
    exact ⟨ha', .inl (by rw [he.id_eq, hnew.2]), hrep⟩

/-- Another relation is as far from the store as it was. -/
theorem grounded_extend (hg : tr.Grounded (h.Read shown) h.Unborn envelopes) {id : RelationId}
    {key : RelationKey} {more : List RelationEnvelope} (hne : tr.relation.id ≠ id)
    (hext : h.Extends (h.extend id key more)) :
    tr.Grounded ((h.extend id key more).Read shown) (h.extend id key more).Unborn envelopes := by
  refine hg.mono ?_ ?_
  · intro base _ hread
    exact ⟨hread.1, hread.2.1.mono hread.2.2 hext, hread.2.2⟩
  · intro base hid hnew
    exact ⟨hnew.1, by rw [envelopes_extend_of_ne (hid ▸ hne), hnew.2]⟩

/-- The changes of remembered relations, one after the other. -/
theorem Accounts.commit_tracked {envelopes : RelationId → List RelationEnvelope}
    {trs : List Tracked} (ha : h.Accounts t) (hids : (trs.map (·.relation.id)).Nodup)
    (hg : ∀ tr ∈ trs, tr.Grounded (h.Read shown) h.Unborn (envelopes tr.relation.id))
    (hcommit : t.commit (trs.filterMap Tracked.change?) = .ok t') :
    ∃ h' : History, h'.Accounts t' ∧ h.Extends h' ∧
      (∀ id, h'.envelopes id =
        h.envelopes id ++ if id ∈ trs.map (·.relation.id) then envelopes id else []) ∧
      ∀ c ∈ trs.filterMap Tracked.change?, c.Replaces shown t t' := by
  induction trs generalizing h t with
  | nil =>
    cases hcommit
    exact ⟨h, ha, .refl h, by simp, by simp⟩
  | cons tr trs ih =>
    rw [List.map_cons, List.nodup_cons] at hids
    have hne : ∀ tr' ∈ trs, tr'.relation.id ≠ tr.relation.id := by
      intro tr' htr' he
      exact hids.1 (he ▸ List.mem_map_of_mem htr')
    have hg' := hg tr (List.mem_cons_self ..)
    cases hc : tr.change? with
    | none =>
      rw [List.filterMap_cons_none hc] at hcommit ⊢
      obtain ⟨h', ha', hext, henv, hrep⟩ :=
        ih ha hids.2 (fun tr' htr' => hg tr' (List.mem_cons_of_mem _ htr')) hcommit
      refine ⟨h', ha', hext, ?_, hrep⟩
      intro id
      rw [henv, List.map_cons]
      by_cases hid : id = tr.relation.id
      · subst hid
        rw [if_neg hids.1, if_pos (List.mem_cons_self ..), hg'.envelopes_eq_nil hc]
      · simp [hid]
    | some c =>
      rw [List.filterMap_cons_some hc] at hcommit ⊢
      obtain ⟨t₁, hfirst, hrest⟩ := Tables.commit_cons_eq_ok.1 hcommit
      obtain ⟨ha₁, hname, hrep⟩ := ha.apply hg' hc hfirst
      have hext₁ : h.Extends (h.extend tr.relation.id tr.relation.key (envelopes tr.relation.id)) :=
        extends_extend hname
      have hcid := Tracked.relationId_of_change? hc
      obtain ⟨h', ha', hext, henv, hreps⟩ := ih ha₁ hids.2
        (fun tr' htr' => grounded_extend (hg tr' (List.mem_cons_of_mem _ htr')) (hne tr' htr') hext₁)
        hrest
      refine ⟨h', ha', hext₁.trans hext, ?_, ?_⟩
      · intro id
        rw [henv, List.map_cons]
        by_cases hid : id = tr.relation.id
        · subst hid
          rw [if_neg hids.1, if_pos (List.mem_cons_self ..), envelopes_extend, List.append_nil]
        · simp [hid, envelopes_extend_of_ne hid]
      · intro c' hc'
        have hother := Tracked.relationId_ne_of_mem hne
        rcases List.mem_cons.1 hc' with rfl | hc'
        · exact hrep.congr rfl (Tables.commit_frame hrest fun c' hc' => hcid ▸ hother c' hc')
        · exact (hreps c' hc').congr
            (Tables.apply_frame hfirst (hcid ▸ hother c' hc')).symm rfl

/-- A grounded unit of work, accepted by the store: each change replaces what it
was computed from, and the history goes on with the unit's envelopes. -/
theorem Accounts.commit {u : UnitOfWork} (ha : h.Accounts t)
    (hg : u.Grounded (h.Read shown) h.Unborn) (hcommit : t.commit u.changes = .ok t') :
    ∃ h' : History, h'.Accounts t' ∧ h.Extends h' ∧
      (∀ id, h'.envelopes id = h.envelopes id ++ u.envelopesOf id) ∧
      ∀ c ∈ u.changes, c.Replaces shown t t' := by
  obtain ⟨h', ha', hext, henv, hrep⟩ := ha.commit_tracked hg.ids hg.tracked hcommit
  refine ⟨h', ha', hext, ?_, hrep⟩
  intro id
  rw [henv]
  split
  · rfl
  · next hid =>
    rw [hg.envelopesOf_eq_nil fun tr htr he => hid (List.mem_map.2 ⟨tr, htr, he⟩)]

end History

end PartnerRelations
