/-
# `Proofs.Store.Queue` — the relations that wait, and what starts do to them

The relations of a store in state initial form its queue (`Tables.Queue`): each once, in
the strict order of

    the moment it came into the state,  the moment it was created,  its identifier.

A store has one queue, and what it selects for a claim is the beginning of it
(`exists_queue`, `Queue.unique`).

Between two stores, the relations of a list were started and nothing else was touched
(`Tables.Starts`).  Starts of lists come one after the other, and when the beginning of the
queue was started, the queue of the store is the rest (`Queue.drop`).
-/
import PartnerRelations.Proofs.Relation.Effect
import PartnerRelations.Proofs.Store.Listing

namespace PartnerRelations

namespace Relation

variable {a b r : Relation}

/-- The relation is in the first sharing state. -/
def IsInitial (r : Relation) : Prop :=
  ∃ state ∈ r.sharingState, state.stateType = .initial

/-- Longer in its sharing state than the other; for the same time, created before it. -/
def WaitsLonger (a b : Relation) : Prop :=
  ∃ s ∈ a.sharingState, ∃ s' ∈ b.sharingState,
    s.updatedAt < s'.updatedAt ∨ (s.updatedAt = s'.updatedAt ∧ a.Precedes b)

theorem WaitsLonger.asymm (h : a.WaitsLonger b) : ¬ b.WaitsLonger a := by
  obtain ⟨s, hs, s', hs', hab⟩ := h
  rintro ⟨s'', hs'', s''', hs''', hba⟩
  obtain rfl := Option.mem_unique hs' hs''
  obtain rfl := Option.mem_unique hs hs'''
  have hlt : ∀ {x y : Instant}, x < y → ¬ y < x := fun {x y} (h : x.rank < y.rank) h' =>
    Int.lt_asymm h h'
  have hne : ∀ {x y : Instant}, x < y → x ≠ y := fun h heq => hlt h (heq ▸ h)
  rcases hab with hab | ⟨heq, hab⟩ <;> rcases hba with hba | ⟨heq', hba⟩
  · exact hlt hab hba
  · exact hne hab heq'.symm
  · exact hne hba heq.symm
  · exact hab.asymm hba

theorem waitsLonger_of_waitsBefore (h : a.waitsBefore b = true) (ha : a.IsInitial)
    (hb : b.IsInitial) (hne : a.id ≠ b.id) : a.WaitsLonger b := by
  obtain ⟨s, hs, -⟩ := ha
  obtain ⟨s', hs', -⟩ := hb
  have hs : a.sharingState = some s := hs
  have hs' : b.sharingState = some s' := hs'
  refine ⟨s, hs, s', hs', ?_⟩
  simp only [waitsBefore, stateSince, hs, hs', Option.map_some, Bool.or_eq_true,
    Bool.and_eq_true, decide_eq_true_eq] at h
  rcases h with hlt | ⟨heq, hcreated⟩
  · exact .inl hlt
  · exact .inr ⟨Instant.rank_injective heq, precedes_of_createdBefore hcreated hne⟩

/-- What was started is not initial. -/
theorem Effect.not_isInitial {at_ : Instant} (h : a.Effect (.startSharing at_) b) :
    ¬ b.IsInitial := by
  cases h with
  | started hr hstate =>
    rintro ⟨state, ⟨⟩, hinitial⟩
    cases hinitial

end Relation

namespace Tables

variable {t t' t'' : Tables} {queue queue' rs rs' : List Relation} {moments moments' : List Instant}

/-! ## The queue -/

/-- The relations in state initial, those that wait longest first. -/
structure Queue (t : Tables) (queue : List Relation) : Prop where
  mem : ∀ r, r ∈ queue ↔ t.relations.get? r.id = some r ∧ r.IsInitial
  sorted : queue.Pairwise Relation.WaitsLonger

/-- What a store selects is the beginning of its queue. -/
theorem exists_queue (hs : t.Sound) :
    ∃ queue, t.Queue queue ∧ ∀ limit, t.inState .initial limit = queue.take limit := by
  let queue := (t.relations.values.filter fun r =>
    r.sharingState.any fun s => s.stateType = .initial).mergeSort Relation.waitsBefore
  have hmem : ∀ r, r ∈ queue ↔ t.relations.get? r.id = some r ∧ r.IsInitial := fun r => by
    rw [(List.mergeSort_perm _ _).mem_iff, List.mem_filter, hs.mem_values, Option.any_eq_true]
    simp only [decide_eq_true_eq, Relation.IsInitial, Option.mem_def]
  have hids : (queue.map Relation.id).Nodup := by
    rw [((List.mergeSort_perm _ _).map _).nodup_iff]
    exact hs.nodup_ids.sublist (List.filter_sublist.map _)
  have hsorted : ∀ l : List Relation, (l.mergeSort Relation.waitsBefore).Pairwise
      fun a b => a.waitsBefore b = true :=
    List.pairwise_mergeSort (fun _ _ _ => Relation.waitsBefore_trans) fun a b => by
      simpa using Relation.waitsBefore_total a b
  refine ⟨queue, ⟨hmem, ?_⟩, fun _ => rfl⟩
  have hne : queue.Pairwise fun a b => a.id ≠ b.id := List.pairwise_map.1 hids
  refine ((hsorted _).and hne).imp_of_mem fun {a b} ha hb h => ?_
  exact Relation.waitsLonger_of_waitsBefore h.1 ((hmem a).1 ha).2 ((hmem b).1 hb).2 h.2

/-- Nothing waits twice. -/
theorem Queue.nodup (h : t.Queue queue) : queue.Nodup := by
  refine h.sorted.imp ?_
  rintro a _ hab rfl
  exact hab.asymm hab

theorem Queue.nodup_ids (h : t.Queue queue) : (queue.map Relation.id).Nodup := by
  refine List.Nodup.map_on (fun a ha b hb hid => ?_) h.nodup
  have ha := ((h.mem a).1 ha).1
  rw [hid, ((h.mem b).1 hb).1] at ha
  exact (Option.some.inj ha).symm

/-- A store has one queue. -/
theorem Queue.unique (h : t.Queue queue) (h' : t.Queue queue') : queue = queue' := by
  refine List.Perm.eq_of_pairwise (fun a b _ _ hab hba => absurd hba hab.asymm) h.sorted h'.sorted
    ((List.perm_ext_iff_of_nodup h.nodup h'.nodup).2 fun r => ?_)
  rw [h.mem, h'.mem]

/-- Relations that are as old as each other, and as long in their state, wait in the order of
their identifiers. -/
theorem queue_of_ids {created since : Instant} (hs : t.Sound) (hperm : queue.Perm t.relations.values)
    (hall : ∀ r ∈ t.relations.values, r.createdAt = created ∧
      r.sharingState.map (fun state => (state.stateType, state.updatedAt)) = some (.initial, since))
    (hids : queue.Pairwise fun a b => a.id.uuid.val < b.id.uuid.val) : t.Queue queue := by
  have hstate : ∀ r ∈ t.relations.values, ∃ state ∈ r.sharingState,
      state.stateType = .initial ∧ state.updatedAt = since := fun r hr => by
    obtain ⟨state, hstate, heq⟩ := Option.map_eq_some_iff.1 (hall r hr).2
    exact ⟨state, hstate, Prod.mk.inj heq⟩
  constructor
  · intro r
    rw [hperm.mem_iff, hs.mem_values]
    refine ⟨fun hget => ⟨hget, ?_⟩, And.left⟩
    obtain ⟨state, hmem, hinitial, -⟩ := hstate r (hs.mem_values.2 hget)
    exact ⟨state, hmem, hinitial⟩
  · refine hids.imp_of_mem fun {a b} ha hb hid => ?_
    have ha := hperm.mem_iff.1 ha
    have hb := hperm.mem_iff.1 hb
    obtain ⟨s, hs, -, hsince⟩ := hstate a ha
    obtain ⟨s', hs', -, hsince'⟩ := hstate b hb
    have hcreated : a.createdAt = b.createdAt := (hall a ha).1.trans (hall b hb).1.symm
    exact ⟨s, hs, s', hs', .inr ⟨hsince.trans hsince'.symm, .inr ⟨hcreated, hid⟩⟩⟩

/-! ## Starts -/

/-- From one store to the other, these relations were started, each at one of the moments,
and nothing else was touched. -/
structure Starts (t t' : Tables) (rs : List Relation) (moments : List Instant) : Prop where
  started : ∀ r ∈ rs, ∃ at_ ∈ moments, ∃ r', t'.relations.get? r.id = some r' ∧
    r.Effect (.startSharing at_) r'
  others : ∀ id, id ∉ rs.map Relation.id → t'.relations.get? id = t.relations.get? id
  keys : t'.keys = t.keys

theorem starts_nil (t : Tables) (moments : List Instant) : t.Starts t [] moments where
  started _ h := absurd h List.not_mem_nil
  others _ _ := rfl
  keys := rfl

theorem Starts.mono (h : t.Starts t' rs moments) (hsub : moments ⊆ moments') :
    t.Starts t' rs moments' where
  started r hr := by
    obtain ⟨at_, hat, hstarted⟩ := h.started r hr
    exact ⟨at_, hsub hat, hstarted⟩
  others := h.others
  keys := h.keys

theorem Starts.append (h : t.Starts t' rs moments) (h' : t'.Starts t'' rs' moments)
    (hdisjoint : ((rs ++ rs').map Relation.id).Nodup) : t.Starts t'' (rs ++ rs') moments where
  started r hr := by
    rcases List.mem_append.1 hr with hr | hr
    · -- started first, and left alone since
      have hid : r.id ∉ rs'.map Relation.id := by
        rw [List.map_append] at hdisjoint
        exact (List.disjoint_of_nodup_append hdisjoint) (List.mem_map_of_mem hr)
      rw [h'.others r.id hid]
      exact h.started r hr
    · exact h'.started r hr
  others id hid := by
    rw [List.map_append, List.mem_append, not_or] at hid
    rw [h'.others id hid.2, h.others id hid.1]
  keys := h'.keys.trans h.keys

/-- Where the beginning of the queue was started, the rest is the queue. -/
theorem Queue.drop {n : Nat} (hq : t.Queue queue) (hs : t.Starts t' (queue.take n) moments) :
    t'.Queue (queue.drop n) where
  mem r := by
    have hids := hq.nodup_ids
    rw [← List.take_append_drop n queue, List.map_append] at hids
    have hapart := List.disjoint_of_nodup_append hids
    constructor
    · intro hr
      have hid : r.id ∉ (queue.take n).map Relation.id := fun hmem =>
        hapart hmem (List.mem_map_of_mem hr)
      rw [hs.others r.id hid]
      exact (hq.mem r).1 (List.mem_of_mem_drop hr)
    · rintro ⟨hget, hinitial⟩
      by_cases hid : r.id ∈ (queue.take n).map Relation.id
      · -- a relation that was started is pending
        obtain ⟨r₀, hr₀, hid⟩ := List.mem_map.1 hid
        obtain ⟨at_, -, r', hget', heffect⟩ := hs.started r₀ hr₀
        rw [hid, hget] at hget'
        obtain rfl := Option.some.inj hget'
        exact absurd hinitial heffect.not_isInitial
      · rw [hs.others r.id hid] at hget
        have hmem := (hq.mem r).2 ⟨hget, hinitial⟩
        rw [← List.take_append_drop n queue, List.mem_append] at hmem
        exact hmem.resolve_left fun htake => hid (List.mem_map_of_mem htake)
  sorted := hq.sorted.sublist (List.drop_sublist n queue)

end Tables

end PartnerRelations
