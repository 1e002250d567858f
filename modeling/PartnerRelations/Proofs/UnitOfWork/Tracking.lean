/-
# `Proofs.UnitOfWork.Tracking` — what a unit of work remembers

Which relations are remembered after `attach` and `track`, said by membership
and by `find?`, and the rules by which `load` and `execute` lead among arbitrary
surroundings.  `load` asks nothing for a name that the unit knows.  `execute`
decides first, then draws one identifier for each event; `Carries` says which
envelopes come of it, and `record` is the unit afterwards.

No name is remembered twice (`Distinct`), and nothing here forgets one.
-/
import Mathlib.Data.List.Nodup
import PartnerRelations.Proofs.Program.Surroundings
import PartnerRelations.Proofs.Relation.Evolution
import PartnerRelations.Service.Batch

namespace PartnerRelations

/-- The envelopes carry the events of a relation, numbered on from a version. -/
structure Carries (r : Relation) (version : Nat) (es : List RelationEvent)
    (envelopes : List RelationEnvelope) : Prop where
  payloads : envelopes.map (·.payload) = es
  numbers : envelopes.map (·.sequenceNumber) = List.range' (version + 1) es.length
  origin : ∀ e ∈ envelopes, e.tenant = r.tenant ∧ e.aggregateId = r.id

namespace UnitOfWork

variable {u : UnitOfWork} {key : RelationKey} {r : Relation} {t : Tracked}

/-- The unit after events of a relation. -/
def record (u : UnitOfWork) (r : Relation) (es : List RelationEvent)
    (envelopes : List RelationEnvelope) : UnitOfWork :=
  let u := u.track (r.applyAll es) !es.isEmpty
  { u with events := u.events ++ envelopes }

/-- No name is remembered twice. -/
def Distinct (u : UnitOfWork) : Prop :=
  (u.tracked.map (·.relation.key)).Nodup

/-! ## Membership -/

theorem find?_eq_none : u.find? key = none ↔ ∀ t ∈ u.tracked, t.relation.key ≠ key := by
  simp [find?]

theorem mem_of_find? (h : u.find? key = some t) : t ∈ u.tracked ∧ t.relation.key = key :=
  ⟨List.mem_of_find?_eq_some h, by simpa using List.find?_some h⟩

theorem Distinct.eq_of_key_eq {t' : Tracked} (h : u.Distinct) (ht : t ∈ u.tracked)
    (ht' : t' ∈ u.tracked) (hk : t.relation.key = t'.relation.key) : t = t' :=
  List.inj_on_of_nodup_map h ht ht' hk

theorem Distinct.find?_eq_some (h : u.Distinct) :
    u.find? key = some t ↔ t ∈ u.tracked ∧ t.relation.key = key := by
  refine ⟨mem_of_find?, ?_⟩
  rintro ⟨ht, hk⟩
  cases hf : u.find? key with
  | none => exact absurd hk (find?_eq_none.1 hf t ht)
  | some t' =>
    obtain ⟨ht', hk'⟩ := mem_of_find? hf
    rw [h.eq_of_key_eq ht ht' (hk.trans hk'.symm)]

theorem attach_of_find? (h : u.find? r.key = some t) : u.attach r = u := by
  simp [attach, h]

theorem tracked_attach (h : u.find? r.key = none) :
    (u.attach r).tracked = u.tracked ++ [⟨some r.version, r, false⟩] := by
  simp [attach, h]

@[simp] theorem events_attach : (u.attach r).events = u.events := by
  unfold attach
  split <;> rfl

@[simp] theorem events_track {happened : Bool} : (u.track r happened).events = u.events := by
  unfold track
  split <;> rfl

@[simp] theorem events_record {es : List RelationEvent} {envelopes : List RelationEnvelope} :
    (u.record r es envelopes).events = u.events ++ envelopes := by
  simp [record]

@[simp] theorem tracked_record {es : List RelationEvent} {envelopes : List RelationEnvelope} :
    (u.record r es envelopes).tracked = (u.track (r.applyAll es) !es.isEmpty).tracked := rfl

/-- A relation that is tracked takes the place of the one of its name. -/
theorem tracked_track_of_find? {happened : Bool} (h : u.find? r.key = some t) :
    (u.track r happened).tracked = u.tracked.map fun t =>
      if t.relation.key = r.key then { t with relation := r, dirty := t.dirty || happened }
      else t := by
  simp [track, h]

theorem tracked_track_of_find?_none {happened : Bool} (h : u.find? r.key = none) :
    (u.track r happened).tracked = u.tracked ++ [⟨none, r, happened⟩] := by
  simp [track, h]

/-- What is remembered afterwards: the relation itself, new or in the place of
the one of its name, and everything of another name. -/
theorem mem_track {happened : Bool} : t ∈ (u.track r happened).tracked ↔
    (t ∈ u.tracked ∧ t.relation.key ≠ r.key) ∨
    (∃ old ∈ u.tracked, old.relation.key = r.key ∧
      t = { old with relation := r, dirty := old.dirty || happened }) ∨
    (u.find? r.key = none ∧ t = ⟨none, r, happened⟩) := by
  cases hf : u.find? r.key with
  | none =>
    have hne := find?_eq_none.1 hf
    rw [tracked_track_of_find?_none hf, List.mem_append, List.mem_singleton]
    constructor
    · rintro (ht | ht)
      · exact .inl ⟨ht, hne t ht⟩
      · exact .inr (.inr ⟨rfl, ht⟩)
    · rintro (⟨ht, -⟩ | ⟨old, hold, hk, -⟩ | ⟨-, ht⟩)
      · exact .inl ht
      · exact absurd hk (hne old hold)
      · exact .inr ht
  | some t' =>
    rw [tracked_track_of_find? hf, List.mem_map]
    constructor
    · rintro ⟨old, hold, rfl⟩
      by_cases hk : old.relation.key = r.key
      · exact .inr (.inl ⟨old, hold, hk, if_pos hk⟩)
      · rw [if_neg hk]
        exact .inl ⟨hold, hk⟩
    · rintro (⟨ht, hk⟩ | ⟨old, hold, hk, rfl⟩ | ⟨h, -⟩)
      · exact ⟨t, ht, if_neg hk⟩
      · exact ⟨old, hold, if_pos hk⟩
      · cases h

theorem find?_attach (hf : u.find? r.key = none) : (u.attach r).find? key =
    if key = r.key then some ⟨some r.version, r, false⟩ else u.find? key := by
  rw [find?, tracked_attach hf, List.find?_append, ← find?]
  by_cases hk : key = r.key
  · subst hk
    simp [hf]
  · have hk' : ¬r.key = key := fun h => hk h.symm
    simp [hk, hk']

/-- Under the name of a relation that is tracked, it is what is remembered. -/
theorem find?_track {happened : Bool} : ((u.track r happened).find? key).map (·.relation) =
    if key = r.key then some r else (u.find? key).map (·.relation) := by
  cases hf : u.find? r.key with
  | none =>
    rw [find?, tracked_track_of_find?_none hf, List.find?_append, ← find?]
    by_cases hk : key = r.key
    · subst hk
      simp [hf]
    · have hk' : ¬r.key = key := fun h => hk h.symm
      simp [hk, hk']
  | some known =>
    have hkey : ((fun t : Tracked => decide (t.relation.key = key)) ∘ fun t : Tracked =>
        if t.relation.key = r.key then { t with relation := r, dirty := t.dirty || happened }
        else t) = fun t => decide (t.relation.key = key) := by
      funext t
      by_cases hk : t.relation.key = r.key <;> simp [hk]
    rw [find?, tracked_track_of_find? hf, List.find?_map, hkey, ← find?]
    by_cases hk : key = r.key
    · subst hk
      simp [hf, (mem_of_find? hf).2]
    · rw [if_neg hk]
      cases hf' : u.find? key with
      | none => rfl
      | some t =>
        have hne : t.relation.key ≠ r.key := (mem_of_find? hf').2.symm ▸ hk
        simp [hne]

theorem keys_track_of_find? {happened : Bool} (h : u.find? r.key = some t) :
    (u.track r happened).tracked.map (·.relation.key) = u.tracked.map (·.relation.key) := by
  rw [tracked_track_of_find? h, List.map_map]
  refine List.map_congr_left ?_
  intro old _
  by_cases hk : old.relation.key = r.key <;> simp [hk]

theorem nodup_map_append {β : Type} {f : Tracked → β} {tracked : List Tracked}
    (h : (tracked.map f).Nodup) (hne : ∀ t' ∈ tracked, f t' ≠ f t) :
    ((tracked ++ [t]).map f).Nodup := by
  rw [List.map_append, List.nodup_append]
  refine ⟨h, by simp, ?_⟩
  simpa using hne

theorem Distinct.attach (h : u.Distinct) : (u.attach r).Distinct := by
  cases hf : u.find? r.key with
  | some t => rwa [attach_of_find? hf]
  | none =>
    rw [Distinct, tracked_attach hf]
    exact nodup_map_append h (find?_eq_none.1 hf)

theorem Distinct.track {happened : Bool} (h : u.Distinct) : (u.track r happened).Distinct := by
  cases hf : u.find? r.key with
  | some t => rwa [Distinct, keys_track_of_find? hf]
  | none =>
    rw [Distinct, tracked_track_of_find?_none hf]
    exact nodup_map_append h (find?_eq_none.1 hf)

theorem Distinct.record {es : List RelationEvent} {envelopes : List RelationEnvelope}
    (h : u.Distinct) : (u.record r es envelopes).Distinct :=
  Distinct.track h

/-- With names that are distinct, just one remembered relation is replaced. -/
theorem Distinct.mem_track {happened : Bool} {old : Tracked} (h : u.Distinct)
    (hf : u.find? r.key = some old) : t ∈ (u.track r happened).tracked ↔
      (t ∈ u.tracked ∧ t.relation.key ≠ r.key) ∨
      t = { old with relation := r, dirty := old.dirty || happened } := by
  obtain ⟨hold, hk⟩ := mem_of_find? hf
  rw [UnitOfWork.mem_track, hf]
  refine or_congr_right ⟨?_, fun ht => .inl ⟨old, hold, hk, ht⟩⟩
  rintro (⟨old', hold', hk', rfl⟩ | ⟨hnone, -⟩)
  · rw [h.eq_of_key_eq hold' hold (hk'.trans hk.symm)]
  · cases hnone

/-- The identifiers stay distinct, if the relation keeps that of the one it
replaces or has one of its own. -/
theorem Distinct.nodup_ids_track {happened : Bool} {old : Tracked} (h : u.Distinct)
    (hf : u.find? r.key = some old) (hids : (u.tracked.map (·.relation.id)).Nodup)
    (hid : ∀ t ∈ u.tracked, t.relation.id = r.id → t = old) :
    ((u.track r happened).tracked.map (·.relation.id)).Nodup := by
  obtain ⟨hold, hk⟩ := mem_of_find? hf
  rw [tracked_track_of_find? hf, List.map_map]
  refine List.Nodup.map_on ?_ (List.Nodup.of_map _ hids)
  intro x hx y hy hxy
  by_cases hxk : x.relation.key = r.key <;> by_cases hyk : y.relation.key = r.key
  · exact h.eq_of_key_eq hx hy (hxk.trans hyk.symm)
  · have hxy : r.id = y.relation.id := by simpa [hxk, hyk] using hxy
    exact absurd (hid y hy hxy.symm ▸ hk) hyk
  · have hxy : x.relation.id = r.id := by simpa [hxk, hyk] using hxy
    exact absurd (hid x hx hxy ▸ hk) hxk
  · exact List.inj_on_of_nodup_map hids hx hy (by simpa [hxk, hyk] using hxy)

/-- Where a remembered relation goes on, it alone is replaced. -/
theorem Distinct.mem_record {t' : Tracked} {es : List RelationEvent}
    {envelopes : List RelationEnvelope} (h : u.Distinct) (ht : t ∈ u.tracked) :
    t' ∈ (u.record t.relation es envelopes).tracked ↔
      (t' ∈ u.tracked ∧ t'.relation.key ≠ t.relation.key) ∨
      t' = { t with relation := t.relation.applyAll es, dirty := t.dirty || !es.isEmpty } := by
  have hkey := Relation.key_applyAll t.relation es
  rw [tracked_record, h.mem_track (h.find?_eq_some.2 ⟨ht, hkey.symm⟩), hkey]

theorem Distinct.nodup_ids_record {es : List RelationEvent} {envelopes : List RelationEnvelope}
    (h : u.Distinct) (ht : t ∈ u.tracked) (hids : (u.tracked.map (·.relation.id)).Nodup) :
    ((u.record t.relation es envelopes).tracked.map (·.relation.id)).Nodup := by
  refine h.nodup_ids_track (h.find?_eq_some.2 ⟨ht, (Relation.key_applyAll ..).symm⟩) hids ?_
  intro t' ht' hid
  rw [Relation.id_applyAll] at hid
  exact List.inj_on_of_nodup_map hids ht' ht hid

theorem tracked_record_of_find?_none {es : List RelationEvent} {envelopes : List RelationEnvelope}
    (hf : u.find? r.key = none) :
    (u.record r es envelopes).tracked = u.tracked ++ [⟨none, r.applyAll es, !es.isEmpty⟩] := by
  rw [tracked_record, tracked_track_of_find?_none (by rwa [Relation.key_applyAll])]

theorem mem_attach (hf : u.find? r.key = none) :
    t ∈ (u.attach r).tracked ↔ t ∈ u.tracked ∨ t = ⟨some r.version, r, false⟩ := by
  rw [tracked_attach hf, List.mem_append, List.mem_singleton]

theorem mem_record_of_find?_none {es : List RelationEvent} {envelopes : List RelationEnvelope}
    (hf : u.find? r.key = none) : t ∈ (u.record r es envelopes).tracked ↔
      t ∈ u.tracked ∨ t = ⟨none, r.applyAll es, !es.isEmpty⟩ := by
  rw [tracked_record_of_find?_none hf, List.mem_append, List.mem_singleton]

/-- What holds of everything remembered and of a relation holds after it was attached. -/
theorem forall_attach {P : Relation → Prop} (h : ∀ t ∈ u.tracked, P t.relation) (hr : P r) :
    ∀ t ∈ (u.attach r).tracked, P t.relation := by
  intro t ht
  cases hf : u.find? r.key with
  | some t' =>
    rw [attach_of_find? hf] at ht
    exact h t ht
  | none =>
    rcases (mem_attach hf).1 ht with ht | rfl
    · exact h t ht
    · exact hr

/-- What holds of everything remembered and of what came of a relation holds after that
was recorded. -/
theorem forall_record {P : Relation → Prop} {es : List RelationEvent}
    {envelopes : List RelationEnvelope} (h : ∀ t ∈ u.tracked, P t.relation)
    (hr : P (r.applyAll es)) : ∀ t ∈ (u.record r es envelopes).tracked, P t.relation := by
  intro t ht
  rw [tracked_record, mem_track] at ht
  rcases ht with ⟨ht, -⟩ | ⟨old, -, -, rfl⟩ | ⟨-, rfl⟩
  · exact h t ht
  · exact hr
  · exact hr

theorem distinct_empty : empty.Distinct := List.nodup_nil

end UnitOfWork

namespace Tracked

variable {r : Relation} {v : Nat} {dirty : Bool} {c : RelationChange}

/-- What the store knew is updated or deleted, at the version that it was loaded in. -/
theorem change?_persisted_eq_some : change? ⟨some v, r, dirty⟩ = some c ↔ dirty = true ∧
    c = if r.deleted then .delete r.id (.exact v) else .update r (.exact v) := by
  cases dirty <;> cases hd : r.deleted <;> simp [change?, hd, eq_comm]

/-- What the store did not know is inserted, unless it is gone again. -/
theorem change?_new_eq_some : change? ⟨none, r, dirty⟩ = some c ↔ dirty = true ∧
    r.deleted = false ∧ c = .insert r := by
  cases dirty <;> cases hd : r.deleted <;> simp [change?, hd, eq_comm]

theorem change?_eq_none {t : Tracked} : t.change? = none ↔
    t.dirty = false ∨ t.persisted = none ∧ t.relation.deleted = true := by
  obtain ⟨_ | v, r, _ | _⟩ := t <;> cases hd : r.deleted <;> simp [change?, hd]

/-- A change is about the relation that calls for it. -/
theorem relationId_of_change? {t : Tracked} (h : t.change? = some c) :
    c.relationId = t.relation.id := by
  obtain ⟨_ | v, r, dirty⟩ := t
  · obtain ⟨-, -, rfl⟩ := change?_new_eq_some.1 h
    rfl
  · obtain ⟨-, rfl⟩ := change?_persisted_eq_some.1 h
    split <;> rfl

/-- Changes of relations with other identifiers are about others. -/
theorem relationId_ne_of_mem {trs : List Tracked} {id : RelationId}
    (hne : ∀ tr ∈ trs, tr.relation.id ≠ id) :
    ∀ c ∈ trs.filterMap change?, c.relationId ≠ id := by
  intro c hc
  obtain ⟨tr, htr, htc⟩ := List.mem_filterMap.1 hc
  exact relationId_of_change? htc ▸ hne tr htr

end Tracked

/-! ## Where the operations lead -/

/-- A query that an entry of a batch may make at any time, and that touches neither
relations nor the bus. -/
def Query.isIdle : Query → Bool
  | .now => true
  | .freshId .event => true
  | .log _ => true
  | _ => false

/-- Idle queries may be answered in any way, and leave the state alone. -/
def Surroundings.Idle {σ : Type} (S : Surroundings Query.Answer σ) : Prop :=
  ∀ (q : Query), q.isIdle = true → ∀ (wanted : q.Answer → σ → Prop) (s : σ),
    (∀ x, wanted x s) → S.meets q wanted s

section Leads

variable {σ : Type} {S : Surroundings Query.Answer σ} {err : RelationError → σ → Prop} {s : σ}
  {u : UnitOfWork} {key : RelationKey} {r : Relation}

theorem leads_envelop (idle : S.Idle) {post : List RelationEnvelope → σ → Prop}
    {es : List RelationEvent} : ∀ {version : Nat},
      (∀ envelopes, Carries r version es envelopes → post envelopes s) →
        (UnitOfWork.envelop r version es).Leads S post s := by
  induction es generalizing post with
  | nil =>
    intro _ h
    exact h [] ⟨rfl, rfl, by simp⟩
  | cons e es ih =>
    intro version h
    refine Program.leads_bind.2 (idle _ rfl _ _ ?_)
    intro eventId
    refine Program.leads_bind.2 (ih fun envelopes hc => h _ ⟨?_, ?_, ?_⟩)
    · rw [List.map_cons, hc.payloads]
    · rw [List.map_cons, hc.numbers, List.length_cons, List.range'_succ]
    · intro e' he'
      rcases List.mem_cons.1 he' with rfl | he'
      · exact ⟨rfl, rfl⟩
      · exact hc.origin e' he'

namespace Call

/-- A name that the unit knows is not looked up. -/
theorem leads_load {ok : Option Relation × UnitOfWork → σ → Prop} :
    (load u key).Leads S ok err s ↔
      match u.find? key with
      | some t => ok (if t.relation.isCreated then some t.relation else none, u) s
      | none => S.meets (.findByKey key) (fun x s =>
          match x with
          | .error e => err (.ofStore e) s
          | .ok none => ok (none, u) s
          | .ok (some r) => ok (some r, u.attach r) s) s := by
  unfold load UnitOfWork.load
  rw [leads_orFail]
  cases u.find? key with
  | some t => exact Iff.rfl
  | none =>
    refine Program.leads_bind.trans ⟨S.meets_mono ?_, S.meets_mono ?_⟩ <;>
      · rintro (e | _ | r) s' hs <;> exact hs

theorem leads_execute (idle : S.Idle) {externalId : ExternalId} {command : RelationCommand}
    {ok : Relation × UnitOfWork → σ → Prop}
    (refused : ∀ e, r.handle command = .error e → err (.ofDomain externalId e) s)
    (accepted : ∀ es envelopes, r.handle command = .ok es → Carries r r.version es envelopes →
      ok (r.applyAll es, u.record r es envelopes) s) :
    (execute u externalId r command).Leads S ok err s := by
  unfold execute UnitOfWork.execute
  rw [leads_orFail]
  cases h : r.handle command with
  | error e => exact refused e h
  | ok es =>
    refine Program.leads_bind.2 (leads_envelop idle ?_)
    intro envelopes hc
    exact accepted es envelopes h hc

end Call

end Leads

end PartnerRelations
