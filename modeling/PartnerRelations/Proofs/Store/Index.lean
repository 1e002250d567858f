/-
# `Proofs.Store.Index` — two tables that agree

The store keeps relations by identifier and identifiers by name.  `Tables.Sound`
says that the two agree: every relation is stored under its own identifier, and a
name leads to exactly the relation that has it.  Then `find?` and `get?` show the
same relations.

A change that is accepted is described once (`apply_insert_eq_ok`,
`apply_update_eq_ok`, `apply_delete_eq_ok`).  It keeps agreement if

    insert r        nothing is stored under the identifier of `r`
    update r        the relation it replaces has the name of `r`
    delete          always

Neither condition is checked by the store; both are owed by its users.
-/
import Mathlib.Data.List.Nodup
import PartnerRelations.Proofs.Relation.Evolution
import PartnerRelations.Store.Search

namespace PartnerRelations

namespace Table

variable {κ ν : Type} {t : Table κ ν} {k : κ} {v : ν}

/-- No key has two rows. -/
def Keyed (t : Table κ ν) : Prop :=
  (t.rows.map Prod.fst).Nodup

theorem keyed_empty : (empty : Table κ ν).Keyed := List.nodup_nil

variable [DecidableEq κ]

theorem Keyed.erase (h : t.Keyed) (k : κ) : (t.erase k).Keyed :=
  List.Nodup.sublist (List.filter_sublist.map _) h

theorem Keyed.insert (h : t.Keyed) (k : κ) (v : ν) : (t.insert k v).Keyed := by
  rw [Keyed, Table.insert, List.map_append, List.nodup_append]
  refine ⟨h.erase k, by simp, ?_⟩
  rintro _ hj _ hk rfl
  obtain ⟨row, hrow, rfl⟩ := List.mem_map.1 hj
  have hne : row.1 ≠ k := by simpa using (List.mem_filter.1 hrow).2
  exact hne (by simpa using hk)

theorem mem_values_of_get? (h : t.get? k = some v) : v ∈ t.values := by
  obtain ⟨row, hrow, rfl⟩ := Option.map_eq_some_iff.1 h
  exact List.mem_map_of_mem (List.mem_of_find?_eq_some hrow)

/-- What can be got is what has a row. -/
theorem Keyed.get?_eq_some (h : t.Keyed) : t.get? k = some v ↔ (k, v) ∈ t.rows := by
  rw [get?, Option.map_eq_some_iff]
  constructor
  · rintro ⟨row, hf, rfl⟩
    have hk : row.1 = k := by simpa using List.find?_some hf
    subst hk
    exact List.mem_of_find?_eq_some hf
  · intro hrow
    cases hf : t.rows.find? fun row => row.1 = k with
    | none => simpa using List.find?_eq_none.1 hf _ hrow
    | some row =>
      have hk : row.1 = k := by simpa using List.find?_some hf
      exact ⟨row, rfl, congrArg Prod.snd
        (List.inj_on_of_nodup_map h (List.mem_of_find?_eq_some hf) hrow hk)⟩

end Table

namespace Tables

/-- The relations by identifier and the identifiers by name agree. -/
structure Sound (t : Tables) : Prop where
  keyed : t.relations.Keyed
  id_eq : ∀ {id r}, t.relations.get? id = some r → r.id = id
  keys : ∀ {key id}, t.keys.get? key = some id ↔ ∃ r, t.relations.get? id = some r ∧ r.key = key

/-- Every relation that the store shows is there. -/
def Live (t : Tables) : Prop :=
  ∀ {key r}, t.find? key = some r → r.isCreated = true

variable {t t' : Tables} {r old : Relation} {id : RelationId} {key : RelationKey}
  {expected : ExpectedVersion}

theorem sound_empty : empty.Sound where
  keyed := Table.keyed_empty
  id_eq h := by simp [empty] at h
  keys := by simp [empty]

theorem Sound.find?_eq_some (h : t.Sound) :
    t.find? key = some r ↔ t.relations.get? r.id = some r ∧ r.key = key := by
  rw [find?, Option.bind_eq_some_iff]
  constructor
  · rintro ⟨id, hid, hr⟩
    obtain ⟨r', hr', hk⟩ := h.keys.1 hid
    obtain rfl : r' = r := Option.some.inj (hr'.symm.trans hr)
    exact ⟨by rwa [h.id_eq hr], hk⟩
  · rintro ⟨hr, hk⟩
    exact ⟨r.id, h.keys.2 ⟨r, hr, hk⟩, hr⟩

theorem Sound.find?_eq_none (h : t.Sound) : t.find? key = none ↔ t.keys.get? key = none := by
  rw [find?, Option.bind_eq_none_iff]
  constructor
  · intro hall
    cases hk : t.keys.get? key with
    | none => rfl
    | some id =>
      obtain ⟨r, hr, -⟩ := h.keys.1 hk
      rw [hall id hk] at hr
      cases hr
  · intro hk id hid
    rw [hk] at hid
    cases hid

/-- A name leads to one identifier. -/
theorem Sound.id_eq_of_key_eq (h : t.Sound) {id' : RelationId} (hr : t.relations.get? id = some r)
    (hold : t.relations.get? id' = some old) (hk : r.key = old.key) : id = id' := by
  have := h.keys.2 ⟨r, hr, rfl⟩
  rw [hk, h.keys.2 ⟨old, hold, rfl⟩] at this
  exact (Option.some.inj this).symm

/-- A relation has one row, under its identifier. -/
theorem Sound.values_eq (h : t.Sound) :
    t.relations.values.map Relation.id = t.relations.rows.map Prod.fst := by
  rw [Table.values, List.map_map]
  exact List.map_congr_left fun row hrow => h.id_eq (h.keyed.get?_eq_some.2 hrow)

/-- No identifier is listed twice. -/
theorem Sound.nodup_ids (h : t.Sound) : (t.relations.values.map Relation.id).Nodup := by
  rw [h.values_eq]
  exact h.keyed

/-- What is listed is what can be got. -/
theorem Sound.mem_values (h : t.Sound) :
    r ∈ t.relations.values ↔ t.relations.get? r.id = some r := by
  refine ⟨fun hr => ?_, Table.mem_values_of_get?⟩
  obtain ⟨row, hrow, rfl⟩ := List.mem_map.1 hr
  have hrow := h.keyed.get?_eq_some.2 hrow
  rwa [h.id_eq hrow]

/-- Stored relations are told apart by their identifiers. -/
theorem Sound.eq_of_id_eq (h : t.Sound) {a b : Relation} (ha : a ∈ t.relations.values)
    (hb : b ∈ t.relations.values) (hid : a.id = b.id) : a = b := by
  have ha := h.mem_values.1 ha
  rw [hid, h.mem_values.1 hb] at ha
  exact (Option.some.inj ha).symm

/-- A name has one relation, and that is listed once. -/
theorem Sound.filter_values (h : t.Sound) (hr : t.relations.get? r.id = some r) :
    t.relations.values.filter (fun x => x.key = r.key) = [r] := by
  have hnodup : t.relations.values.Nodup := h.nodup_ids.of_map Relation.id
  refine List.perm_singleton.1 ((List.perm_ext_iff_of_nodup (hnodup.filter _)
    (List.nodup_singleton r)).2 fun x => ?_)
  rw [List.mem_filter, List.mem_singleton, h.mem_values, decide_eq_true_eq]
  constructor
  · rintro ⟨hx, hkey⟩
    have hid := h.id_eq_of_key_eq hx hr hkey
    rw [hid] at hx
    exact Option.some.inj (hx.symm.trans hr)
  · rintro rfl
    exact ⟨hr, rfl⟩

/-- What waits in a sharing state is stored and in that state. -/
theorem mem_inState {state : RelationSharingStateType} {limit : Nat}
    (hr : r ∈ t.inState state limit) : r ∈ t.relations.values ∧
      ∃ s, r.sharingState = some s ∧ s.stateType = state := by
  obtain ⟨hmem, hstate⟩ :=
    List.mem_filter.1 ((List.mergeSort_perm _ _).mem_iff.1 (List.mem_of_mem_take hr))
  obtain ⟨s, hs, htype⟩ := (Option.any_eq_true _ _).1 hstate
  exact ⟨hmem, s, hs, by simpa using htype⟩

theorem Sound.mem_inState (h : t.Sound) {state : RelationSharingStateType} {limit : Nat}
    (hr : r ∈ t.inState state limit) : t.relations.get? r.id = some r :=
  h.mem_values.1 (Tables.mem_inState hr).1

/-- No relation is listed twice. -/
theorem Sound.nodup_inState (h : t.Sound) {state : RelationSharingStateType} {limit : Nat} :
    ((t.inState state limit).map Relation.id).Nodup := by
  refine List.Nodup.sublist ((List.take_sublist _ _).map _) ?_
  rw [((List.mergeSort_perm _ _).map _).nodup_iff]
  exact h.nodup_ids.sublist (List.filter_sublist.map _)

/-! ## What accepted changes do -/

theorem apply_insert_eq_ok : t.apply (.insert r) = .ok t' ↔ t.keys.get? r.key = none ∧
    t' = ⟨t.relations.insert r.id r, t.keys.insert r.key r.id⟩ := by
  simp only [apply]
  split
  · next h => simp [h]
  · next h => simp [h, eq_comm]

theorem ensureVersion_eq_ok {u : Unit} : t.ensureVersion id expected = .ok u ↔
    ∃ old, t.relations.get? id = some old ∧ expected.admits old.version = true := by
  unfold ensureVersion currentVersion
  cases t.relations.get? id with
  | none => simp [bind, Except.bind]
  | some old => by_cases h : expected.admits old.version = true <;> simp [bind, Except.bind, h]

/-- A version that is not as expected is a failed race. -/
theorem ensureVersion_eq_error {e : StoreError} (h : t.ensureVersion id expected = .error e) :
    ∃ reason, e = .concurrency reason := by
  unfold ensureVersion currentVersion at h
  cases hget : t.relations.get? id with
  | none =>
    simp only [hget, bind, Except.bind, Except.error.injEq] at h
    exact ⟨_, h.symm⟩
  | some old =>
    simp only [hget, bind, Except.bind] at h
    split at h
    · cases h
    · cases h
      exact ⟨_, rfl⟩

theorem apply_update_eq_ok : t.apply (.update r expected) = .ok t' ↔
    ∃ old, t.relations.get? r.id = some old ∧ expected.admits old.version = true ∧
      t' = ⟨t.relations.insert r.id r, t.keys⟩ := by
  simp only [apply, Relation.bind_eq_ok, Relation.pure_eq_ok, ensureVersion_eq_ok]
  constructor
  · rintro ⟨_, ⟨old, hold, hv⟩, rfl⟩
    exact ⟨old, hold, hv, rfl⟩
  · rintro ⟨old, hold, hv, rfl⟩
    exact ⟨(), ⟨old, hold, hv⟩, rfl⟩

theorem apply_delete_eq_ok : t.apply (.delete id expected) = .ok t' ↔
    ∃ old, t.relations.get? id = some old ∧ expected.admits old.version = true ∧
      t' = ⟨t.relations.erase id, t.keys.erase old.key⟩ := by
  simp only [apply, Relation.bind_eq_ok, ensureVersion_eq_ok]
  constructor
  · rintro ⟨_, ⟨old, hold, hv⟩, ht⟩
    simp only [hold, Relation.pure_eq_ok] at ht
    exact ⟨old, hold, hv, ht⟩
  · rintro ⟨old, hold, hv, rfl⟩
    refine ⟨(), ⟨old, hold, hv⟩, ?_⟩
    simp only [hold, Relation.pure_eq_ok]

/-- A change is refused for its version; or it is an insert, and its name is taken. -/
theorem apply_eq_error {c : RelationChange} {e : StoreError} (h : t.apply c = .error e) :
    (∃ reason, e = .concurrency reason) ∨
    ∃ new, c = .insert new ∧ e = .duplicateExternalId new.tenant new.externalId := by
  cases c with
  | insert new =>
    simp only [apply] at h
    split at h
    · cases h
      exact .inr ⟨new, rfl, rfl⟩
    · cases h
  | update new expected =>
    rcases Relation.bind_eq_error.1 h with h | ⟨_, -, h⟩
    · exact .inl (ensureVersion_eq_error h)
    · cases h
  | delete id expected =>
    rcases Relation.bind_eq_error.1 h with h | ⟨_, -, h⟩
    · exact .inl (ensureVersion_eq_error h)
    · split at h <;> cases h

/-- A change leaves the relations of other identifiers alone. -/
theorem apply_frame {c : RelationChange} (h : t.apply c = .ok t') (hid : id ≠ c.relationId) :
    t'.relations.get? id = t.relations.get? id := by
  cases c with
  | insert r =>
    obtain ⟨-, rfl⟩ := apply_insert_eq_ok.1 h
    exact (Table.get?_insert ..).trans (if_neg hid)
  | update r expected =>
    obtain ⟨-, -, -, rfl⟩ := apply_update_eq_ok.1 h
    exact (Table.get?_insert ..).trans (if_neg hid)
  | delete id' expected =>
    obtain ⟨-, -, -, rfl⟩ := apply_delete_eq_ok.1 h
    exact (Table.get?_erase ..).trans (if_neg hid)

theorem commit_cons_eq_ok {c : RelationChange} {cs : List RelationChange} :
    t.commit (c :: cs) = .ok t' ↔ ∃ next, t.apply c = .ok next ∧ next.commit cs = .ok t' := by
  rw [commit, List.foldlM_cons, Relation.bind_eq_ok]
  rfl

theorem commit_eq_error {cs : List RelationChange} {e : StoreError} (h : t.commit cs = .error e) :
    (∃ reason, e = .concurrency reason) ∨
    ∃ new, .insert new ∈ cs ∧ e = .duplicateExternalId new.tenant new.externalId := by
  induction cs generalizing t with
  | nil => cases h
  | cons c cs ih =>
    rw [commit, List.foldlM_cons] at h
    rcases Relation.bind_eq_error.1 h with h | ⟨next, -, h⟩
    · refine (apply_eq_error h).imp_right ?_
      rintro ⟨new, rfl, he⟩
      exact ⟨new, List.mem_cons_self .., he⟩
    · refine (ih h).imp_right ?_
      rintro ⟨new, hnew, he⟩
      exact ⟨new, List.mem_cons_of_mem _ hnew, he⟩

theorem commit_frame {cs : List RelationChange} (h : t.commit cs = .ok t')
    (hid : ∀ c ∈ cs, c.relationId ≠ id) : t'.relations.get? id = t.relations.get? id := by
  induction cs generalizing t with
  | nil => cases h; rfl
  | cons c cs ih =>
    obtain ⟨next, hc, hcs⟩ := commit_cons_eq_ok.1 h
    rw [ih hcs fun c' hc' => hid c' (List.mem_cons_of_mem _ hc')]
    exact apply_frame hc (hid c (List.mem_cons_self ..)).symm

/-- A relation may be added under a free name and an identifier not in use. -/
theorem Sound.insert (h : t.Sound) (hkey : t.keys.get? r.key = none)
    (hid : t.relations.get? r.id = none) :
    Sound ⟨t.relations.insert r.id r, t.keys.insert r.key r.id⟩ where
  keyed := h.keyed.insert _ _
  id_eq {id r'} hr := by
    rw [Table.get?_insert] at hr
    split at hr
    · next he => cases hr; exact he.symm
    · exact h.id_eq hr
  keys {key id} := by
    rw [Table.get?_insert, Table.get?_insert]
    by_cases hk : key = r.key
    · subst hk
      rw [if_pos rfl]
      constructor
      · rintro ⟨⟩
        exact ⟨r, if_pos rfl, rfl⟩
      · rintro ⟨r', hr', hk⟩
        split at hr'
        · next he => rw [he]
        · rw [h.keys.2 ⟨r', hr', hk⟩] at hkey
          cases hkey
    · rw [if_neg hk, h.keys]
      constructor
      · rintro ⟨r', hr', hk'⟩
        have hne : id ≠ r.id := by rintro rfl; rw [hid] at hr'; cases hr'
        exact ⟨r', by rwa [if_neg hne], hk'⟩
      · rintro ⟨r', hr', hk'⟩
        split at hr'
        · cases hr'; exact absurd hk'.symm hk
        · exact ⟨r', hr', hk'⟩

/-- A relation may be replaced by one of its name. -/
theorem Sound.update (h : t.Sound) (hold : t.relations.get? r.id = some old)
    (hk : old.key = r.key) : Sound ⟨t.relations.insert r.id r, t.keys⟩ where
  keyed := h.keyed.insert _ _
  id_eq {id r'} hr := by
    rw [Table.get?_insert] at hr
    split at hr
    · next he => cases hr; exact he.symm
    · exact h.id_eq hr
  keys {key id} := by
    rw [Table.get?_insert, h.keys]
    by_cases hid : id = r.id
    · subst hid
      simp only [if_pos, hold, Option.some.injEq, exists_eq_left', hk]
    · rw [if_neg hid]

/-- Any relation may be removed. -/
theorem Sound.delete (h : t.Sound) (hold : t.relations.get? id = some old) :
    Sound ⟨t.relations.erase id, t.keys.erase old.key⟩ where
  keyed := h.keyed.erase _
  id_eq {id' r'} hr := by
    rw [Table.get?_erase] at hr
    split at hr
    · cases hr
    · exact h.id_eq hr
  keys {key id'} := by
    rw [Table.get?_erase, Table.get?_erase]
    constructor
    · intro hk
      split at hk
      · cases hk
      · next hne =>
        obtain ⟨r', hr', rfl⟩ := h.keys.1 hk
        refine ⟨r', ?_, rfl⟩
        rw [if_neg]
        · exact hr'
        · rintro rfl
          rw [hold] at hr'
          cases hr'
          exact hne rfl
    · rintro ⟨r', hr', rfl⟩
      split at hr'
      · cases hr'
      · next hne =>
        rw [if_neg]
        · exact h.keys.2 ⟨r', hr', rfl⟩
        · intro hk
          exact hne (h.id_eq_of_key_eq hr' hold hk)

/-! ## What accepted changes show -/

theorem Sound.find?_insert (h : t.Sound) (hkey : t.keys.get? r.key = none)
    (hid : t.relations.get? r.id = none) (key : RelationKey) :
    find? ⟨t.relations.insert r.id r, t.keys.insert r.key r.id⟩ key =
      if key = r.key then some r else t.find? key := by
  refine Option.ext ?_
  intro r'
  rw [(h.insert hkey hid).find?_eq_some, Table.get?_insert]
  constructor
  · rintro ⟨hr', rfl⟩
    split at hr'
    · cases hr'
      exact if_pos rfl
    · have hne : r'.key ≠ r.key := by
        intro hk
        rw [← hk, h.keys.2 ⟨r', hr', rfl⟩] at hkey
        cases hkey
      rw [if_neg hne]
      exact h.find?_eq_some.2 ⟨hr', rfl⟩
  · intro hr'
    split at hr'
    · next hk =>
      cases hr'
      exact ⟨if_pos rfl, hk.symm⟩
    · obtain ⟨hr', hk⟩ := h.find?_eq_some.1 hr'
      have hne : r'.id ≠ r.id := by
        intro he
        rw [he, hid] at hr'
        cases hr'
      exact ⟨by rwa [if_neg hne], hk⟩

theorem Sound.find?_update (h : t.Sound) (hold : t.relations.get? r.id = some old)
    (hk : old.key = r.key) (key : RelationKey) :
    find? ⟨t.relations.insert r.id r, t.keys⟩ key =
      if key = r.key then some r else t.find? key := by
  refine Option.ext ?_
  intro r'
  rw [(h.update hold hk).find?_eq_some, Table.get?_insert]
  constructor
  · rintro ⟨hr', rfl⟩
    split at hr'
    · cases hr'
      exact if_pos rfl
    · next hne =>
      have hkey : r'.key ≠ r.key := by
        intro he
        exact hne (h.id_eq_of_key_eq hr' hold (he.trans hk.symm))
      rw [if_neg hkey]
      exact h.find?_eq_some.2 ⟨hr', rfl⟩
  · intro hr'
    split at hr'
    · next hkey =>
      cases hr'
      exact ⟨if_pos rfl, hkey.symm⟩
    · next hkey =>
      obtain ⟨hget, rfl⟩ := h.find?_eq_some.1 hr'
      have hne : r'.id ≠ r.id := by
        intro he
        rw [he, hold] at hget
        cases hget
        exact hkey hk
      exact ⟨by rwa [if_neg hne], rfl⟩

theorem Sound.find?_delete (h : t.Sound) (hold : t.relations.get? id = some old)
    (key : RelationKey) : find? ⟨t.relations.erase id, t.keys.erase old.key⟩ key =
      if key = old.key then none else t.find? key := by
  refine Option.ext ?_
  intro r'
  rw [(h.delete hold).find?_eq_some, Table.get?_erase]
  constructor
  · rintro ⟨hr', rfl⟩
    split at hr'
    · cases hr'
    · next hne =>
      rw [if_neg fun he => hne (h.id_eq_of_key_eq hr' hold he)]
      exact h.find?_eq_some.2 ⟨hr', rfl⟩
  · intro hr'
    split at hr'
    · cases hr'
    · next hkey =>
      obtain ⟨hget, rfl⟩ := h.find?_eq_some.1 hr'
      have hne : r'.id ≠ id := by
        intro he
        rw [he, hold] at hget
        cases hget
        exact hkey rfl
      exact ⟨by rwa [if_neg hne], rfl⟩

/-- Stores that show the same under every name store the same. -/
theorem Sound.get?_eq_of_find?_eq (h : t.Sound) (h' : t'.Sound)
    (hfind : ∀ key, t.find? key = t'.find? key) :
    (∀ id, t.relations.get? id = t'.relations.get? id) ∧
      ∀ key, t.keys.get? key = t'.keys.get? key := by
  have hget : ∀ id, t.relations.get? id = t'.relations.get? id := by
    intro id
    refine Option.ext fun r => ⟨?_, ?_⟩
    · intro hr
      have hid := h.id_eq hr
      subst hid
      exact (h'.find?_eq_some.1 (hfind r.key ▸ h.find?_eq_some.2 ⟨hr, rfl⟩)).1
    · intro hr
      have hid := h'.id_eq hr
      subst hid
      exact (h.find?_eq_some.1 (hfind r.key ▸ h'.find?_eq_some.2 ⟨hr, rfl⟩)).1
  refine ⟨hget, fun key => Option.ext fun id => ?_⟩
  simp only [h.keys, h'.keys, hget]

end Tables

end PartnerRelations
