/-
# `Proofs.Store.Register` — the store as one map from names to relations

A `Register` holds at most one relation under a name, and every relation under its
own.  It says what a batch of changes should do:

    refusal? c    why a change cannot be made, if it cannot
    make c        the register after a change that can
    commit cs     every change in turn, or the refusal of the first that cannot be made

The two tables of the store simulate it (`Tables.Shows`): batch by batch the store
gives the register's answers, and whatever is read of it is read off the register: a stage
is the input of its relation, and relations wait in the order `Relation.Ahead`.

The store does not check that the identifier of an inserted relation is new, nor that
an updated relation keeps its name.  Both are asked of each change when its turn comes
(`Tables.Suits`), and of changes that are never tried nothing is asked.
-/
import Mathlib.Data.List.Perm.Basic
import PartnerRelations.Proofs.Instant
import PartnerRelations.Proofs.Store.Index
import PartnerRelations.World

namespace PartnerRelations

/-! ## The order of waiting -/

namespace Relation

variable {a b c : Relation}

theorem relationId_eq_of_val {id id' : RelationId} (h : id.uuid.val = id'.uuid.val) :
    id = id' := by
  obtain ⟨⟨n, hn⟩⟩ := id
  obtain ⟨⟨n', hn'⟩⟩ := id'
  cases h
  rfl

theorem createdBefore_iff : a.createdBefore b = true ↔
    a.createdAt.rank < b.createdAt.rank ∨
      (a.createdAt.rank = b.createdAt.rank ∧ a.id.uuid.val ≤ b.id.uuid.val) := by
  have heq : a.createdAt = b.createdAt ↔ a.createdAt.rank = b.createdAt.rank :=
    ⟨congrArg Instant.rank, Instant.rank_injective⟩
  simp only [createdBefore, Bool.or_eq_true, Bool.and_eq_true, decide_eq_true_eq, heq]
  rfl

theorem waitsBefore_total (a b : Relation) : a.waitsBefore b = true ∨ b.waitsBefore a = true := by
  cases ha : a.stateSince <;> cases hb : b.stateSince <;>
    simp only [waitsBefore, ha, hb, createdBefore_iff, Bool.or_eq_true, Bool.and_eq_true,
      decide_eq_true_eq, Bool.false_eq_true, true_or, or_true] <;> omega

theorem waitsBefore_trans (hab : a.waitsBefore b = true) (hbc : b.waitsBefore c = true) :
    a.waitsBefore c = true := by
  cases ha : a.stateSince <;> cases hb : b.stateSince <;> cases hc : c.stateSince <;>
    simp only [waitsBefore, ha, hb, hc, createdBefore_iff, Bool.or_eq_true, Bool.and_eq_true,
      decide_eq_true_eq, Bool.false_eq_true] at hab hbc ⊢ <;> omega

/-- Two relations that wait before each other have one identifier. -/
theorem waitsBefore_antisymm (hab : a.waitsBefore b = true) (hba : b.waitsBefore a = true) :
    a.id = b.id := by
  have hval : a.id.uuid.val = b.id.uuid.val := by
    cases ha : a.stateSince <;> cases hb : b.stateSince <;>
      simp only [waitsBefore, ha, hb, createdBefore_iff, Bool.or_eq_true, Bool.and_eq_true,
        decide_eq_true_eq, Bool.false_eq_true] at hab hba <;> omega
  exact relationId_eq_of_val hval

/-- Relations told apart by their identifiers have one sorted order, if only relations of
one identifier come before each other. -/
theorem mergeSort_eq_of_perm {le : Relation → Relation → Bool} {l l' : List Relation}
    (trans : ∀ {a b c}, le a b = true → le b c = true → le a c = true)
    (total : ∀ a b, le a b = true ∨ le b a = true)
    (antisymm : ∀ {a b}, le a b = true → le b a = true → a.id = b.id) (h : l.Perm l')
    (hid : ∀ a ∈ l', ∀ b ∈ l', a.id = b.id → a = b) : l.mergeSort le = l'.mergeSort le := by
  have hsorted : ∀ l : List Relation, (l.mergeSort le).Pairwise fun a b => le a b = true :=
    List.pairwise_mergeSort (fun _ _ _ => trans) fun a b => by simpa using total a b
  have hperm := List.mergeSort_perm l' le
  refine List.Perm.eq_of_pairwise ?_ (hsorted l) (hsorted l')
    ((List.mergeSort_perm l le).trans (h.trans hperm.symm))
  intro a b ha hb hab hba
  have ha : a ∈ l' := h.mem_iff.1 ((List.mergeSort_perm l le).mem_iff.1 ha)
  exact hid a ha b (hperm.mem_iff.1 hb) (antisymm hab hba)

/-- Since when a relation is in its sharing state, as a number. -/
def since (r : Relation) : Int :=
  (r.sharingState.map (·.updatedAt.rank)).getD 0

/-- Longer in its sharing state than the other; for the same time, created before it; and if that
was at the same moment, its identifier is not the larger one. -/
def Ahead (a b : Relation) : Prop :=
  a.since < b.since ∨ (a.since = b.since ∧ (a.createdAt.rank < b.createdAt.rank ∨
    (a.createdAt.rank = b.createdAt.rank ∧ a.id.uuid.val ≤ b.id.uuid.val)))

instance (a b : Relation) : Decidable (a.Ahead b) :=
  inferInstanceAs (Decidable (_ ∨ _))

theorem waitsBefore_eq (ha : a.sharingState.isSome = true) (hb : b.sharingState.isSome = true) :
    a.waitsBefore b = decide (a.Ahead b) := by
  obtain ⟨s, hs⟩ := Option.isSome_iff_exists.1 ha
  obtain ⟨s', hs'⟩ := Option.isSome_iff_exists.1 hb
  rw [Bool.eq_iff_iff, decide_eq_true_iff]
  simp only [waitsBefore, stateSince, Ahead, since, hs, hs', Option.map_some, Option.getD_some,
    createdBefore_iff, Bool.or_eq_true, Bool.and_eq_true, decide_eq_true_eq]

/-- Relations in a sharing state, told apart by their identifiers, have one order of waiting. -/
theorem mergeSort_waitsBefore_eq {l l' : List Relation} (h : l.Perm l')
    (hid : ∀ a ∈ l', ∀ b ∈ l', a.id = b.id → a = b)
    (hstate : ∀ a ∈ l', a.sharingState.isSome = true) :
    l.mergeSort waitsBefore = l'.mergeSort fun a b => decide (a.Ahead b) := by
  have hkey : ∀ a ∈ l', ∀ b ∈ l', a.waitsBefore b = decide (a.Ahead b) :=
    fun a ha b hb => waitsBefore_eq (hstate a ha) (hstate b hb)
  calc l.mergeSort waitsBefore
    _ = l'.mergeSort waitsBefore :=
        mergeSort_eq_of_perm waitsBefore_trans waitsBefore_total waitsBefore_antisymm h hid
    _ = l'.mergeSort fun a b => decide (a.Ahead b) := by
        simpa only [List.map_id'] using List.map_mergeSort (f := fun a => a) hkey

end Relation

/-! ## The register -/

/-- Relations by name. -/
structure Register where
  table : Table RelationKey Relation
  keyed : table.Keyed
  named : ∀ row ∈ table.rows, row.2.key = row.1

namespace Register

variable {m : Register} {r : Relation} {key : RelationKey}

/-- No relations. -/
def empty : Register := ⟨.empty, Table.keyed_empty, fun _ h => absurd h List.not_mem_nil⟩

/-- The register with a relation under its name. -/
def put (m : Register) (r : Relation) : Register where
  table := m.table.insert r.key r
  keyed := m.keyed.insert r.key r
  named row hrow := by
    rcases List.mem_append.1 hrow with hrow | hrow
    · exact m.named row (List.mem_filter.1 hrow).1
    · rw [List.mem_singleton.1 hrow]

/-- The register without the relation under a name. -/
def drop (m : Register) (key : RelationKey) : Register where
  table := m.table.erase key
  keyed := m.keyed.erase key
  named row hrow := m.named row (List.mem_filter.1 hrow).1

/-- The relation under a name. -/
def find? (m : Register) (key : RelationKey) : Option Relation :=
  m.table.get? key

/-- The relations of the register. -/
def values (m : Register) : List Relation :=
  m.table.values

/-- The relation with an identifier. -/
def ofId? (m : Register) (id : RelationId) : Option Relation :=
  m.values.find? fun r => r.id = id

/-- A stage of the relation with an identifier.  No relation has one for the output. -/
def findStage? (m : Register) (id : RelationId) : StageType → Option RelationStage
  | .input => (m.ofId? id).bind (·.input)
  | .output => none

/-- At most `limit` relations in a sharing state, those that wait longest. -/
def inState (m : Register) (state : RelationSharingStateType) (limit : Nat) : List Relation :=
  ((m.values.filter fun r => r.sharingState.any fun s => s.stateType = state).mergeSort
    fun a b => decide (a.Ahead b)).take limit

/-- Why the relation with an identifier is not at an expected version. -/
def mismatch? (m : Register) (id : RelationId) (expected : ExpectedVersion) : Option StoreError :=
  match m.ofId? id with
  | none => some (.concurrency s!"relation {id.text} no longer exists")
  | some r =>
    if expected = .any ∨ expected = .exact r.version then none
    else some (.concurrency s!"relation {id.text}: expected {expected.text}, found {r.version}")

/-- Why a change cannot be made. -/
def refusal? (m : Register) : RelationChange → Option StoreError
  | .insert r => (m.find? r.key).map fun _ => .duplicateExternalId r.tenant r.externalId
  | .update r expected => m.mismatch? r.id expected
  | .delete id expected => m.mismatch? id expected

/-- The register after a change. -/
def make (m : Register) : RelationChange → Register
  | .insert r => m.put r
  | .update r _ => m.put r
  | .delete id _ => (m.ofId? id).elim m fun r => m.drop r.key

/-- Make the changes in turn, up to the first that cannot be made. -/
def commit (m : Register) : List RelationChange → Except StoreError Register
  | [] => .ok m
  | c :: cs =>
    match m.refusal? c with
    | some error => .error error
    | none => (m.make c).commit cs

/-- The answers to batches of changes, and the register after them; a batch with a
refused change changes nothing. -/
def commitAll (m : Register) : List (List RelationChange) → List (Except StoreError Unit) × Register
  | [] => ([], m)
  | changes :: batches =>
    match m.commit changes with
    | .ok m =>
      let (answers, m) := m.commitAll batches
      (.ok () :: answers, m)
    | .error error =>
      let (answers, m) := m.commitAll batches
      (.error error :: answers, m)

@[simp] theorem find?_empty (key : RelationKey) : empty.find? key = none := rfl

theorem find?_put (m : Register) (r : Relation) (key : RelationKey) :
    (m.put r).find? key = if key = r.key then some r else m.find? key :=
  Table.get?_insert ..

theorem find?_drop (m : Register) (key key' : RelationKey) :
    (m.drop key).find? key' = if key' = key then none else m.find? key' :=
  Table.get?_erase ..

/-- A relation of the register is found under its name. -/
theorem mem_values : r ∈ m.values ↔ m.find? r.key = some r := by
  rw [find?, m.keyed.get?_eq_some]
  constructor
  · intro hr
    obtain ⟨row, hrow, rfl⟩ := List.mem_map.1 hr
    rwa [m.named row hrow]
  · exact List.mem_map_of_mem

theorem nodup_values (m : Register) : m.values.Nodup := by
  have hkeys : m.values.map Relation.key = m.table.rows.map Prod.fst := by
    rw [values, Table.values, List.map_map]
    exact List.map_congr_left m.named
  exact List.Nodup.of_map Relation.key (hkeys ▸ m.keyed)

end Register

namespace Tables

variable {t t' : Tables} {m : Register} {r : Relation} {id : RelationId} {c : RelationChange}
  {cs : List RelationChange}

/-! ## The store shows the register -/

/-- The two tables agree, and show under every name what the register holds. -/
structure Shows (t : Tables) (m : Register) : Prop where
  sound : t.Sound
  find? : ∀ key, t.find? key = m.find? key

theorem shows_empty : empty.Shows .empty where
  sound := sound_empty
  find? _ := rfl

theorem Shows.mem_values (h : t.Shows m) : r ∈ m.values ↔ t.relations.get? r.id = some r := by
  rw [Register.mem_values, ← h.find?, h.sound.find?_eq_some, and_iff_left rfl]

theorem Shows.ofId? (h : t.Shows m) (id : RelationId) : m.ofId? id = t.relations.get? id := by
  have hfound : ∀ {r}, m.ofId? id = some r → t.relations.get? id = some r := fun {r} hr => by
    have hid : r.id = id := by simpa using List.find?_some hr
    rw [← hid]
    exact h.mem_values.1 (List.mem_of_find?_eq_some hr)
  cases hr : m.ofId? id with
  | some r => exact (hfound hr).symm
  | none =>
    cases hget : t.relations.get? id with
    | none => rfl
    | some r =>
      have hid := h.sound.id_eq hget
      have hmem : r ∈ m.values := h.mem_values.2 (hid ▸ hget)
      simpa [hid] using List.find?_eq_none.1 hr r hmem

theorem Shows.findStage? (h : t.Shows m) (id : RelationId) (stage : StageType) :
    t.findStage? id stage = m.findStage? id stage := by
  cases stage with
  | input => rw [Tables.findStage?, Register.findStage?, h.ofId?]; rfl
  | output =>
    rw [Tables.findStage?, Register.findStage?]
    cases t.relations.get? id <;> rfl

theorem Shows.perm_values (h : t.Shows m) : t.relations.values.Perm m.values := by
  refine (List.perm_ext_iff_of_nodup (h.sound.nodup_ids.of_map _) m.nodup_values).2 fun r => ?_
  rw [h.mem_values, h.sound.mem_values]

theorem Shows.inState (h : t.Shows m) (state : RelationSharingStateType) (limit : Nat) :
    t.inState state limit = m.inState state limit := by
  have hstored : ∀ {p : Relation → Bool} {r}, r ∈ m.values.filter p → r ∈ t.relations.values :=
    fun hr => h.perm_values.mem_iff.2 (List.mem_filter.1 hr).1
  rw [Tables.inState, Register.inState,
    Relation.mergeSort_waitsBefore_eq (h.perm_values.filter _) ?distinct ?stated]
  case distinct =>
    exact fun a ha b hb => h.sound.eq_of_id_eq (hstored ha) (hstored hb)
  case stated =>
    intro a ha
    obtain ⟨s, hs, -⟩ := Option.any_eq_true _ _ |>.1 (List.mem_filter.1 ha).2
    exact Option.isSome_iff_exists.2 ⟨s, hs⟩

/-! ## Changes and batches -/

/-- What the store leaves to its users: an inserted relation has a new identifier, and
an updated one keeps its name. -/
def Suits (t : Tables) : RelationChange → Prop
  | .insert r => t.relations.get? r.id = none
  | .update r _ => ∀ old ∈ t.relations.get? r.id, old.key = r.key
  | .delete _ _ => True

instance (t : Tables) (c : RelationChange) : Decidable (t.Suits c) :=
  match c with
  | .insert r => inferInstanceAs (Decidable (t.relations.get? r.id = none))
  | .update r _ => inferInstanceAs (Decidable (∀ old ∈ t.relations.get? r.id, old.key = r.key))
  | .delete _ _ => isTrue trivial

/-- Every change of a batch suits the tables when its turn comes. -/
def Proper (t : Tables) : List RelationChange → Prop
  | [] => True
  | c :: cs => t.Suits c ∧
    match t.apply c with
    | .ok t => t.Proper cs
    | .error _ => True

instance decidableProper : (t : Tables) → (cs : List RelationChange) → Decidable (t.Proper cs)
  | _, [] => isTrue trivial
  | t, c :: cs =>
    have : Decidable (match t.apply c with | .ok t => t.Proper cs | .error _ => True) :=
      match t.apply c with
      | .ok t => decidableProper t cs
      | .error _ => isTrue trivial
    inferInstanceAs (Decidable (_ ∧ _))

/-- Every batch of a list is proper when its turn comes. -/
def ProperAll (t : Tables) : List (List RelationChange) → Prop
  | [] => True
  | changes :: batches => t.Proper changes ∧
    match t.commit changes with
    | .ok t => t.ProperAll batches
    | .error _ => t.ProperAll batches

instance decidableProperAll :
    (t : Tables) → (batches : List (List RelationChange)) → Decidable (t.ProperAll batches)
  | _, [] => isTrue trivial
  | t, changes :: batches =>
    have : Decidable (match t.commit changes with
        | .ok t => t.ProperAll batches
        | .error _ => t.ProperAll batches) :=
      match t.commit changes with
      | .ok t => decidableProperAll t batches
      | .error _ => decidableProperAll t batches
    inferInstanceAs (Decidable (_ ∧ _))

theorem admits_iff {expected : ExpectedVersion} {version : Nat} :
    expected.admits version = true ↔ expected = .any ∨ expected = .exact version := by
  cases expected <;> simp [ExpectedVersion.admits]

/-- The store finds a relation at the expected version if and only if the register does. -/
theorem Shows.ensureVersion (h : t.Shows m) (id : RelationId) (expected : ExpectedVersion) :
    (m.mismatch? id expected = none ∧ t.ensureVersion id expected = .ok () ∧
      ∃ old, t.relations.get? id = some old) ∨
    ∃ error, m.mismatch? id expected = some error ∧ t.ensureVersion id expected = .error error := by
  rw [Tables.ensureVersion, currentVersion, Register.mismatch?, h.ofId?]
  cases t.relations.get? id with
  | none => exact .inr ⟨_, rfl, rfl⟩
  | some old =>
    by_cases hv : expected.admits old.version = true
    · exact .inl ⟨if_pos (admits_iff.1 hv), by simp [bind, Except.bind, hv], old, rfl⟩
    · exact .inr ⟨_, if_neg (mt admits_iff.2 hv), by simp [bind, Except.bind, hv]⟩

theorem Shows.inserted (h : t.Shows m) (hkey : t.keys.get? r.key = none)
    (hid : t.relations.get? r.id = none) :
    Shows ⟨t.relations.insert r.id r, t.keys.insert r.key r.id⟩ (m.put r) where
  sound := h.sound.insert hkey hid
  find? key := by rw [h.sound.find?_insert hkey hid, Register.find?_put, h.find?]

theorem Shows.updated (h : t.Shows m) {old : Relation} (hold : t.relations.get? r.id = some old)
    (hk : old.key = r.key) : Shows ⟨t.relations.insert r.id r, t.keys⟩ (m.put r) where
  sound := h.sound.update hold hk
  find? key := by rw [h.sound.find?_update hold hk, Register.find?_put, h.find?]

theorem Shows.deleted (h : t.Shows m) {old : Relation} (hold : t.relations.get? id = some old) :
    Shows ⟨t.relations.erase id, t.keys.erase old.key⟩ (m.drop old.key) where
  sound := h.sound.delete hold
  find? key := by rw [h.sound.find?_delete hold, Register.find?_drop, h.find?]

/-- The store makes a change if and only if the register can, and refuses it for the same
reason. -/
theorem Shows.apply (h : t.Shows m) (hc : t.Suits c) :
    (m.refusal? c = none ∧ ∃ t', t.apply c = .ok t' ∧ t'.Shows (m.make c)) ∨
      ∃ error, m.refusal? c = some error ∧ t.apply c = .error error := by
  cases c with
  | insert r =>
    cases hkey : t.keys.get? r.key with
    | some id =>
      obtain ⟨old, hold⟩ : ∃ old, m.find? r.key = some old := by
        rw [← Option.ne_none_iff_exists', ← h.find?, ne_eq, h.sound.find?_eq_none, hkey]
        exact Option.some_ne_none id
      exact .inr ⟨_, by rw [Register.refusal?, hold]; rfl, by simp only [Tables.apply, hkey]⟩
    | none =>
      have hfind : m.find? r.key = none := h.find? r.key ▸ h.sound.find?_eq_none.2 hkey
      exact .inl ⟨by rw [Register.refusal?, hfind]; rfl, _, apply_insert_eq_ok.2 ⟨hkey, rfl⟩,
        h.inserted hkey hc⟩
  | update r expected =>
    obtain ⟨hm, hv, old, hold⟩ | ⟨error, hm, hv⟩ := h.ensureVersion r.id expected
    · exact .inl ⟨hm, _, by simp only [Tables.apply, hv]; rfl, h.updated hold (hc old hold)⟩
    · exact .inr ⟨error, hm, by simp only [Tables.apply, hv]; rfl⟩
  | delete id expected =>
    obtain ⟨hm, hv, old, hold⟩ | ⟨error, hm, hv⟩ := h.ensureVersion id expected
    · have hmake : m.make (.delete id expected) = m.drop old.key := by
        rw [Register.make, h.ofId?, hold, Option.elim_some]
      exact .inl ⟨hm, _, by simp only [Tables.apply, hv, hold]; rfl, hmake ▸ h.deleted hold⟩
    · exact .inr ⟨error, hm, by simp only [Tables.apply, hv]; rfl⟩

/-- So it is with a batch. -/
theorem Shows.commit (h : t.Shows m) (hcs : t.Proper cs) :
    (∃ t' m', t.commit cs = .ok t' ∧ m.commit cs = .ok m' ∧ t'.Shows m') ∨
      ∃ error, t.commit cs = .error error ∧ m.commit cs = .error error := by
  induction cs generalizing t m with
  | nil => exact .inl ⟨t, m, rfl, rfl, h⟩
  | cons c cs ih =>
    obtain ⟨hc, hcs⟩ := hcs
    obtain ⟨hm, next, ht, hnext⟩ | ⟨error, hm, ht⟩ := h.apply hc
    · have htcs : t.commit (c :: cs) = next.commit cs := by
        rw [Tables.commit, List.foldlM_cons, ht]
        rfl
      rw [ht] at hcs
      simpa only [htcs, Register.commit, hm] using ih hnext hcs
    · refine .inr ⟨error, ?_, by rw [Register.commit, hm]⟩
      rw [Tables.commit, List.foldlM_cons, ht]
      rfl

end Tables

namespace World

/-- The answers to batches of changes, and the world after them. -/
def commitAll (supply : Nat → Uuid) (w : World) :
    List (List RelationChange) → List (Except StoreError Unit) × World
  | [] => ([], w)
  | changes :: batches =>
    let (answer, w) := w.answer supply (.commit changes)
    let (answers, w) := w.commitAll supply batches
    (answer :: answers, w)

theorem commitAll_simulates (supply : Nat → Uuid) {w : World} {m : Register}
    (h : w.tables.Shows m) {batches : List (List RelationChange)}
    (hb : w.tables.ProperAll batches) :
    (w.commitAll supply batches).1 = (m.commitAll batches).1 ∧
      (w.commitAll supply batches).2.tables.Shows (m.commitAll batches).2 := by
  induction batches generalizing w m with
  | nil => exact ⟨rfl, h⟩
  | cons changes batches ih =>
    obtain ⟨hproper, hb⟩ := hb
    obtain ⟨t, m', ht, hm, hshows⟩ | ⟨error, ht, hm⟩ := h.commit hproper <;>
      simp only [ht] at hb <;>
      simp only [commitAll, answer, ht, Register.commitAll, hm]
    · obtain ⟨hanswers, hshows⟩ := ih (w := { w with tables := t }) hshows hb
      exact ⟨congrArg _ hanswers, hshows⟩
    · obtain ⟨hanswers, hshows⟩ := ih h hb
      exact ⟨congrArg _ hanswers, hshows⟩

end World

/-- Batch after batch, the store answers as the register does, its two tables agree, and
what is read of it is read off the register. -/
theorem commits_simulate_register (supply : Nat → Uuid) (clock : Instant)
    (batches : List (List RelationChange)) (h : Tables.empty.ProperAll batches) :
    let (answers, w) := (World.start clock).commitAll supply batches
    let (expected, m) := Register.empty.commitAll batches
    answers = expected ∧ w.tables.Sound ∧
      (∀ key, (w.answer supply (.findByKey key)).1 = .ok (m.find? key)) ∧
      (∀ id stage, w.tables.findStage? id stage = m.findStage? id stage) ∧
      ∀ state limit,
        (w.answer supply (.findInState state limit)).1 = .ok (m.inState state limit) := by
  obtain ⟨hanswers, hshows⟩ :=
    World.commitAll_simulates supply (w := .start clock) Tables.shows_empty h
  refine ⟨hanswers, hshows.sound, fun key => ?_, hshows.findStage?, fun state limit => ?_⟩
  · rw [World.answer, hshows.find?]
  · rw [World.answer, hshows.inState]

private abbrev registerTenant : TenantBpnl := ⟨"T6", by cbv, by decide⟩
private abbrev registerName : ExternalId := ⟨"R8", by cbv, by decide⟩
private abbrev registerName' : ExternalId := ⟨"R9", by cbv, by decide⟩

/-- A relation at a version, not yet claimed. -/
private def entry (n : Nat) (externalId : ExternalId) (version : Nat) : Relation :=
  { Relation.empty ⟨.ofNat n⟩ registerTenant externalId with
    sharingState := some (.initial .isManagedBy .epoch), version, created := true }

/-- A name is freed and taken again in one batch; another batch is refused for its second
change, and the last one comes too late. -/
def registerBatches : List (List RelationChange) :=
  [[.insert (entry 1 registerName 1)],
    [.delete ⟨.ofNat 1⟩ (.exact 1), .insert (entry 2 registerName 1),
      .update (entry 2 registerName 2) (.exact 1)],
    [.insert (entry 3 registerName' 1), .insert (entry 4 registerName 1)],
    [.update (entry 2 registerName 3) (.exact 1)]]

theorem registerBatches_simulated :
    Tables.empty.ProperAll registerBatches ∧
    let (answers, w) := (World.start .epoch).commitAll Uuid.ofNat registerBatches
    let (expected, m) := Register.empty.commitAll registerBatches
    (m.values = [entry 2 registerName 2] ∧ answers.map Except.isOk = [true, true, false, false]) ∧
    answers = expected ∧ w.tables.Sound ∧
      (∀ key, (w.answer Uuid.ofNat (.findByKey key)).1 = .ok (m.find? key)) ∧
      (∀ id stage, w.tables.findStage? id stage = m.findStage? id stage) ∧
      ∀ state limit,
        (w.answer Uuid.ofNat (.findInState state limit)).1 = .ok (m.inState state limit) :=
  have hproper : Tables.empty.ProperAll registerBatches := by decide
  ⟨hproper, ⟨by rfl, by rfl⟩, commits_simulate_register Uuid.ofNat .epoch registerBatches hproper⟩

end PartnerRelations
