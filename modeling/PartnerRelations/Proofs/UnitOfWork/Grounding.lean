/-
# `Proofs.UnitOfWork.Grounding` — where the relations of a unit of work come from

Every relation that a unit of work remembers was reached by accepted commands
from a relation that the unit did not make up:

    read base     the relation as a store showed it
    new base      a relation that nothing has happened to, made for this unit

`read` and `new` are left open here; what they say depends on the surroundings.
`Tracked.Grounded` also ties the envelopes to it: those of the relation carry
exactly the events of the commands, numbered on from the version of `base`.  So
the unit's changes and its events tell the same story, relation by relation.

The steps of an entry keep this: looking a relation up (`Grounded.attach`),
creating one (`Grounded.record_new`) and any command on one that the unit
remembers (`Grounded.record`).
-/
import PartnerRelations.Proofs.UnitOfWork.Tracking

namespace PartnerRelations

variable {read new : Relation → Prop}

/-- The events of one relation, then more of them. -/
theorem Carries.append {r r' : Relation} {es es' : List RelationEvent}
    {envelopes envelopes' : List RelationEnvelope} (h : Carries r r.version es envelopes)
    (hr : r.Evolves es r') (h' : Carries r' r'.version es' envelopes') :
    Carries r r.version (es ++ es') (envelopes ++ envelopes') where
  payloads := by rw [List.map_append, h.payloads, h'.payloads]
  numbers := by
    rw [List.map_append, h.numbers, h'.numbers, hr.version_eq, List.length_append,
      ← List.range'_append_1, Nat.add_right_comm]
  origin e he := by
    rcases List.mem_append.1 he with he | he
    · exact h.origin e he
    · obtain ⟨ht, hid⟩ := h'.origin e he
      exact ⟨ht.trans (congrArg RelationKey.tenant hr.key_eq), hid.trans hr.id_eq⟩

/-- A remembered relation was reached from one that was read, or from a new one
that is there now. -/
inductive Tracked.Grounded (read new : Relation → Prop) (envelopes : List RelationEnvelope) :
    Tracked → Prop where
  | read {base r : Relation} {es : List RelationEvent} : read base → base.Evolves es r →
      Carries base base.version es envelopes →
      Grounded read new envelopes ⟨some base.version, r, !es.isEmpty⟩
  | new {base r : Relation} {es : List RelationEvent} : new base → base.version = 0 →
      base.Evolves es r → es ≠ [] → r.isCreated = true → Carries base base.version es envelopes →
      Grounded read new envelopes ⟨none, r, !es.isEmpty⟩

namespace Tracked.Grounded

variable {t : Tracked} {envelopes : List RelationEnvelope}

/-- What is remembered has the identifier and the name of what it was reached from. -/
theorem exists_base (h : t.Grounded read new envelopes) :
    ∃ base, base.id = t.relation.id ∧ base.key = t.relation.key ∧ (read base ∨ new base) := by
  cases h with
  | read hb he => exact ⟨_, he.id_eq.symm, he.key_eq.symm, .inl hb⟩
  | new hb _ he => exact ⟨_, he.id_eq.symm, he.key_eq.symm, .inr hb⟩

theorem mono {read' new' : Relation → Prop} (h : t.Grounded read new envelopes)
    (hread : ∀ base, base.id = t.relation.id → read base → read' base)
    (hnew : ∀ base, base.id = t.relation.id → new base → new' base) :
    t.Grounded read' new' envelopes := by
  cases h with
  | read hb he hc => exact .read (hread _ he.id_eq.symm hb) he hc
  | new hb hv he hne hr hc => exact .new (hnew _ he.id_eq.symm hb) hv he hne hr hc

/-- What calls for no change has no events. -/
theorem envelopes_eq_nil (h : t.Grounded read new envelopes) (hc : t.change? = none) :
    envelopes = [] := by
  cases h with
  | @read base r es hb he hcarries =>
    obtain rfl : es = [] := by simpa [change?_eq_none] using hc
    simpa using hcarries.payloads
  | @new base r es hb hv he hne hr hcarries =>
    obtain ⟨-, hd⟩ := Relation.isCreated_iff.1 hr
    simp [change?_eq_none, hd, hne] at hc

theorem dirty_append (es es' : List RelationEvent) :
    (!(es ++ es').isEmpty) = (!es.isEmpty || !es'.isEmpty) := by
  cases es <;> simp

/-- More events of the relation, unless they take away one that is new. -/
theorem step {command : RelationCommand} {es : List RelationEvent}
    {envelopes' : List RelationEnvelope} (h : t.Grounded read new envelopes)
    (hc : t.relation.handle command = .ok es)
    (hcarries : Carries t.relation t.relation.version es envelopes')
    (hlive : (t.relation.applyAll es).isCreated = true ∨ t.persisted.isSome = true) :
    Tracked.Grounded read new (envelopes ++ envelopes')
      { t with relation := t.relation.applyAll es, dirty := t.dirty || !es.isEmpty } := by
  cases h with
  | @read base r es₀ hb he hcar =>
    have : Tracked.Grounded read new _ _ := .read hb (he.step hc) (hcar.append he hcarries)
    rwa [dirty_append] at this
  | @new base r es₀ hb hv he hne hr hcar =>
    have hr' : (r.applyAll es).isCreated = true := by simpa using hlive
    have : Tracked.Grounded read new _ _ := .new hb hv (he.step hc) (by simp [hne]) hr'
      (hcar.append he hcarries)
    rwa [dirty_append] at this

end Tracked.Grounded

namespace UnitOfWork

variable {u : UnitOfWork} {r : Relation} {t : Tracked}

/-- The envelopes of one relation. -/
def envelopesOf (u : UnitOfWork) (id : RelationId) : List RelationEnvelope :=
  u.events.filter fun e => e.aggregateId = id

/-- Everything that the unit remembers is grounded, under one name and one
identifier each, and there are no other events. -/
structure Grounded (read new : Relation → Prop) (u : UnitOfWork) : Prop where
  keys : u.Distinct
  ids : (u.tracked.map (·.relation.id)).Nodup
  tracked : ∀ t ∈ u.tracked, t.Grounded read new (u.envelopesOf t.relation.id)
  own : ∀ e ∈ u.events, ∃ t ∈ u.tracked, t.relation.id = e.aggregateId

theorem grounded_empty : empty.Grounded read new :=
  ⟨distinct_empty, List.nodup_nil, by simp [empty], by simp [empty]⟩

namespace Grounded

theorem mono {read' new' : Relation → Prop} (h : u.Grounded read new)
    (hread : ∀ t ∈ u.tracked, ∀ base, base.id = t.relation.id → read base → read' base)
    (hnew : ∀ base, new base → new' base) : u.Grounded read' new' :=
  ⟨h.keys, h.ids, fun t ht => (h.tracked t ht).mono (hread t ht) (fun b _ => hnew b), h.own⟩

theorem eq_of_id_eq {t' : Tracked} (h : u.Grounded read new) (ht : t ∈ u.tracked)
    (ht' : t' ∈ u.tracked) (hid : t.relation.id = t'.relation.id) : t = t' :=
  List.inj_on_of_nodup_map h.ids ht ht' hid

/-- Without a remembered relation there are no envelopes of it. -/
theorem envelopesOf_eq_nil (h : u.Grounded read new) {id : RelationId}
    (hid : ∀ t ∈ u.tracked, t.relation.id ≠ id) : u.envelopesOf id = [] := by
  refine List.filter_eq_nil_iff.2 ?_
  intro e he
  obtain ⟨t, ht, hte⟩ := h.own e he
  simpa [← hte] using hid t ht

/-- Every event comes with a change of its relation. -/
theorem exists_change (h : u.Grounded read new) {e : RelationEnvelope} (he : e ∈ u.events) :
    ∃ c ∈ u.changes, c.relationId = e.aggregateId := by
  obtain ⟨t, ht, hte⟩ := h.own e he
  cases hc : t.change? with
  | none =>
    have hmem : e ∈ u.envelopesOf t.relation.id := List.mem_filter.2 ⟨he, by simp [hte]⟩
    rw [(h.tracked t ht).envelopes_eq_nil hc] at hmem
    cases hmem
  | some c =>
    exact ⟨c, List.mem_filterMap.2 ⟨t, ht, hc⟩, (Tracked.relationId_of_change? hc).trans hte⟩

/-- Without changes there are no events. -/
theorem events_eq_nil (h : u.Grounded read new) (hc : u.changes = []) : u.events = [] := by
  refine List.eq_nil_iff_forall_not_mem.2 ?_
  intro e he
  obtain ⟨c, hmem, -⟩ := h.exists_change he
  rw [hc] at hmem
  cases hmem

/-- A relation that was read is remembered, unless its name is already. -/
theorem attach (h : u.Grounded read new) (hread : read r)
    (hid : ∀ t ∈ u.tracked, t.relation.id ≠ r.id) : (u.attach r).Grounded read new := by
  cases hf : u.find? r.key with
  | some t => rwa [attach_of_find? hf]
  | none =>
    have hevents : ∀ id, (u.attach r).envelopesOf id = u.envelopesOf id := by
      intro id
      rw [envelopesOf, events_attach, envelopesOf]
    refine ⟨h.keys.attach, ?_, ?_, ?_⟩
    · rw [tracked_attach hf]
      exact nodup_map_append h.ids hid
    · intro t ht
      rw [hevents]
      rcases (mem_attach hf).1 ht with ht | rfl
      · exact h.tracked t ht
      · have hnil := h.envelopesOf_eq_nil hid
        exact hnil ▸ .read hread (.refl r) ⟨rfl, rfl, by simp⟩
    · intro e he
      obtain ⟨t, ht, hte⟩ := h.own e (by rwa [events_attach] at he)
      exact ⟨t, (mem_attach hf).2 (.inl ht), hte⟩

theorem envelopesOf_record {es : List RelationEvent} {envelopes : List RelationEnvelope}
    (hc : Carries r r.version es envelopes) (id : RelationId) :
    (u.record r es envelopes).envelopesOf id =
      u.envelopesOf id ++ if id = r.id then envelopes else [] := by
  rw [envelopesOf, events_record, List.filter_append, envelopesOf]
  congr 1
  split
  · next hid =>
    refine List.filter_eq_self.2 ?_
    intro e he
    simp [hid, (hc.origin e he).2]
  · next hid =>
    refine List.filter_eq_nil_iff.2 ?_
    intro e he
    simpa [(hc.origin e he).2] using fun h => hid h.symm

/-- A new relation is created under a name that the unit does not know. -/
theorem record_new {command : RelationCommand} {es : List RelationEvent}
    {envelopes : List RelationEnvelope} (h : u.Grounded read new) (hnew : new r)
    (hr : r.version = 0) (hf : u.find? r.key = none)
    (hid : ∀ t ∈ u.tracked, t.relation.id ≠ r.id) (hc : r.handle command = .ok es)
    (hne : es ≠ []) (hlive : (r.applyAll es).isCreated = true)
    (hcarries : Carries r r.version es envelopes) :
    (u.record r es envelopes).Grounded read new := by
  refine ⟨h.keys.record, ?_, ?_, ?_⟩
  · rw [tracked_record_of_find?_none hf]
    exact nodup_map_append h.ids (by rwa [Relation.id_applyAll])
  · intro t ht
    rw [envelopesOf_record hcarries]
    rcases (mem_record_of_find?_none hf).1 ht with ht | rfl
    · rw [if_neg (hid t ht), List.append_nil]
      exact h.tracked t ht
    · rw [Relation.id_applyAll, if_pos rfl, h.envelopesOf_eq_nil hid, List.nil_append]
      exact .new hnew hr (.one hc) hne hlive hcarries
  · intro e he
    rw [events_record, List.mem_append] at he
    rcases he with he | he
    · obtain ⟨t, ht, hte⟩ := h.own e he
      exact ⟨t, (mem_record_of_find?_none hf).2 (.inl ht), hte⟩
    · refine ⟨_, (mem_record_of_find?_none hf).2 (.inr rfl), ?_⟩
      rw [(hcarries.origin e he).2, Relation.id_applyAll]

/-- A remembered relation goes on, unless it is new and would be taken away. -/
theorem record {command : RelationCommand} {es : List RelationEvent}
    {envelopes : List RelationEnvelope} (h : u.Grounded read new) (ht : t ∈ u.tracked)
    (hc : t.relation.handle command = .ok es)
    (hcarries : Carries t.relation t.relation.version es envelopes)
    (hlive : (t.relation.applyAll es).isCreated = true ∨ t.persisted.isSome = true) :
    (u.record t.relation es envelopes).Grounded read new := by
  refine ⟨h.keys.record, h.keys.nodup_ids_record ht h.ids, ?_, ?_⟩
  · intro t' ht'
    rw [envelopesOf_record hcarries]
    rcases (h.keys.mem_record ht).1 ht' with ⟨ht', hk⟩ | rfl
    · rw [if_neg fun hid => hk (by rw [h.eq_of_id_eq ht' ht hid]), List.append_nil]
      exact h.tracked t' ht'
    · rw [Relation.id_applyAll, if_pos rfl]
      exact (h.tracked t ht).step hc hcarries hlive
  · intro e he
    have hown : ∃ t' ∈ u.tracked, t'.relation.id = e.aggregateId := by
      rw [events_record, List.mem_append] at he
      rcases he with he | he
      · exact h.own e he
      · exact ⟨t, ht, (hcarries.origin e he).2.symm⟩
    obtain ⟨t', ht', hid⟩ := hown
    by_cases hk : t'.relation.key = t.relation.key
    · refine ⟨_, (h.keys.mem_record ht).2 (.inr rfl), ?_⟩
      rw [Relation.id_applyAll, ← hid, h.keys.eq_of_key_eq ht' ht hk]
    · exact ⟨t', (h.keys.mem_record ht).2 (.inl ⟨ht', hk⟩), hid⟩

end Grounded

end UnitOfWork

end PartnerRelations
