/-
# `Proofs.UnitOfWork.Overlay` — a unit of work laid over a store that stays

While a unit of work is open, a name shows what the unit has of it, and the store
otherwise (`UnitOfWork.seen`).  If nobody else writes, committing the unit should
make the store show the same.  Whether it does is decided relation by relation, by
how what the unit remembers lies over the store (`Tracked.Fits`):

    kept      the relation that the store has under the name, or what came of it
    new       a relation with an identifier of its own; the store has none
    reborn    a relation with an identifier of its own, in the place of one that
              the store has and that was deleted in the unit

The changes of kept and new relations are accepted and show what was seen
(`commit_of_kept`).  For a reborn relation the unit calls for a change of the
version that the store's relation had, under an identifier that the store does not
know, so the whole commit is refused (`commit_of_reborn`).
-/
import PartnerRelations.Proofs.Store.Index
import PartnerRelations.Proofs.UnitOfWork.Tracking
import PartnerRelations.World

namespace PartnerRelations

/-- The relation, if it is there. -/
def Relation.present? (r : Relation) : Option Relation :=
  if r.isCreated then some r else none

theorem Relation.present?_of_created {r : Relation} (hc : r.created = true)
    (hd : r.deleted = false) : r.present? = some r :=
  if_pos (isCreated_iff.2 ⟨hc, hd⟩)

theorem Relation.present?_of_deleted {r : Relation} (hd : r.deleted = true) :
    r.present? = none := by
  simp [present?, isCreated, hd]

/-- How a remembered relation lies over a store. -/
inductive Tracked.Fits (t : Tables) : Tracked → Prop where
  | kept {r₀ r : Relation} {dirty : Bool} : t.find? r.key = some r₀ → r₀.isCreated = true →
      r.id = r₀.id → (dirty = false → r = r₀) → Fits t ⟨some r₀.version, r, dirty⟩
  | new {r : Relation} : t.find? r.key = none → t.relations.get? r.id = none →
      Fits t ⟨none, r, true⟩
  | reborn {r₀ r : Relation} : t.find? r.key = some r₀ → t.relations.get? r.id = none →
      Fits t ⟨some r₀.version, r, true⟩

/-- The relation is not in the place of another one of the store. -/
def Tracked.Kept (t : Tables) (tr : Tracked) : Prop :=
  ∀ r₀, t.find? tr.relation.key = some r₀ → tr.relation.id = r₀.id

namespace Tracked

variable {t t' : Tables} {tr : Tracked} {c : RelationChange}

theorem Fits.congr (h : tr.Fits t) (hfind : t'.find? tr.relation.key = t.find? tr.relation.key)
    (hget : t'.relations.get? tr.relation.id = t.relations.get? tr.relation.id) : tr.Fits t' := by
  cases h with
  | kept hf hr₀ hid hr => exact .kept (hfind.trans hf) hr₀ hid hr
  | new hf hn => exact .new (hfind.trans hf) (hget.trans hn)
  | reborn hf hn => exact .reborn (hfind.trans hf) (hget.trans hn)

/-- What needs no change shows already. -/
theorem Fits.find?_of_change?_eq_none (h : tr.Fits t) (hc : tr.change? = none) (hk : tr.Kept t) :
    t.find? tr.relation.key = tr.relation.present? := by
  cases h with
  | @kept r₀ r dirty hf hr₀ hid hr =>
    obtain rfl : dirty = false := by simpa [change?_eq_none] using hc
    obtain rfl := hr rfl
    rw [hf, Relation.present?, if_pos hr₀]
  | @new r hf hn =>
    have hd : r.deleted = true := by simpa [change?_eq_none] using hc
    rw [hf, Relation.present?_of_deleted hd]
  | @reborn r₀ r hf hn => simp [change?_eq_none] at hc

/-- The change of a relation that is kept or new is accepted, and shows the
relation or that it is gone. -/
theorem Fits.apply (h : tr.Fits t) (hs : t.Sound) (hcreated : tr.relation.created = true)
    (hk : tr.Kept t) (hc : tr.change? = some c) : ∃ t', t.apply c = .ok t' ∧ t'.Sound ∧
      ∀ key, t'.find? key =
        if key = tr.relation.key then tr.relation.present? else t.find? key := by
  cases h with
  | @kept r₀ r dirty hf hr₀ hid hr =>
    obtain ⟨hget, hkey⟩ := hs.find?_eq_some.1 hf
    rw [← hid] at hget
    obtain ⟨-, rfl⟩ := change?_persisted_eq_some.1 hc
    cases hd : r.deleted with
    | false =>
      refine ⟨_, Tables.apply_update_eq_ok.2 ⟨r₀, hget, by simp [ExpectedVersion.admits], rfl⟩,
        hs.update hget hkey, ?_⟩
      intro key
      rw [hs.find?_update hget hkey, Relation.present?_of_created hcreated hd]
    | true =>
      refine ⟨_, Tables.apply_delete_eq_ok.2 ⟨r₀, hget, by simp [ExpectedVersion.admits], rfl⟩,
        hs.delete hget, ?_⟩
      intro key
      rw [hs.find?_delete hget, Relation.present?_of_deleted hd, hkey]
  | @new r hf hn =>
    obtain ⟨-, hd, rfl⟩ := change?_new_eq_some.1 hc
    have hkey := hs.find?_eq_none.1 hf
    refine ⟨_, Tables.apply_insert_eq_ok.2 ⟨hkey, rfl⟩, hs.insert hkey hn, ?_⟩
    intro key
    rw [hs.find?_insert hkey hn, Relation.present?_of_created hcreated hd]
  | @reborn r₀ r hf hn =>
    rw [(hk r₀ hf : r.id = r₀.id), (hs.find?_eq_some.1 hf).1] at hn
    cases hn

/-- A relation in the place of another one calls for a change that is refused. -/
theorem Fits.apply_of_not_kept (h : tr.Fits t) (hk : ¬tr.Kept t) : ∃ c reason,
    tr.change? = some c ∧ t.apply c = .error (.concurrency reason) := by
  cases h with
  | @kept r₀ r dirty hf hr₀ hid hr =>
    refine absurd ?_ hk
    intro r₁ hf₁
    rw [Option.some.inj (hf₁.symm.trans hf)]
    exact hid
  | @new r hf hn =>
    refine absurd ?_ hk
    intro r₁ hf₁
    rw [(hf : t.find? r.key = none)] at hf₁
    cases hf₁
  | @reborn r₀ r hf hn =>
    cases hd : r.deleted <;>
      exact ⟨_, _, by simp [change?, hd]; rfl, by
        simp [Tables.apply, Tables.ensureVersion, Tables.currentVersion, hn]; rfl⟩

end Tracked

namespace UnitOfWork

variable {t t' : Tables} {u : UnitOfWork} {key : RelationKey}

/-- What a name shows with the unit laid over the store. -/
def seen (u : UnitOfWork) (t : Tables) (key : RelationKey) : Option Relation :=
  match u.find? key with
  | some tr => tr.relation.present?
  | none => t.find? key

/-- Everything that the unit remembers was created and lies over the store in one
of the three ways, under one name and one identifier each. -/
structure Fits (u : UnitOfWork) (t : Tables) : Prop where
  keys : u.Distinct
  ids : (u.tracked.map (·.relation.id)).Nodup
  fits : ∀ tr ∈ u.tracked, tr.Fits t
  created : ∀ tr ∈ u.tracked, tr.relation.created = true

theorem seen_eq : u.seen t key =
    match (u.find? key).map (·.relation) with
    | some r => r.present?
    | none => t.find? key := by
  unfold seen
  cases u.find? key <;> rfl

/-- Events of a relation show under its name and nowhere else. -/
theorem seen_record {r : Relation} {es : List RelationEvent} {envelopes : List RelationEnvelope} :
    (u.record r es envelopes).seen t key =
      if key = r.key then (r.applyAll es).present? else u.seen t key := by
  have hfind : ((u.record r es envelopes).find? key).map (·.relation) =
      if key = (r.applyAll es).key then some (r.applyAll es)
      else (u.find? key).map (·.relation) := find?_track
  rw [seen_eq, hfind, seen_eq, Relation.key_applyAll]
  by_cases hk : key = r.key <;> simp [hk]

/-- The unit after a look at a name: what the store has under a name that the unit
does not know is remembered. -/
def reach (u : UnitOfWork) (t : Tables) (key : RelationKey) : UnitOfWork :=
  match u.find? key, t.find? key with
  | none, some r => u.attach r
  | _, _ => u

@[simp] theorem events_reach : (u.reach t key).events = u.events := by
  unfold reach
  split
  · exact events_attach
  · rfl

theorem fits_empty (t : Tables) : empty.Fits t :=
  ⟨distinct_empty, List.nodup_nil, by simp [empty], by simp [empty]⟩

/-- Looking at a name does not change what is seen. -/
theorem seen_reach (hs : t.Sound) (hl : t.Live) (key' : RelationKey) :
    (u.reach t key).seen t key' = u.seen t key' := by
  unfold reach
  split
  · next r hf hr =>
    have hk := (hs.find?_eq_some.1 hr).2
    rw [seen, find?_attach (by rwa [hk])]
    by_cases hk' : key' = r.key
    · rw [if_pos hk', hk', hk, seen, hf]
      exact (if_pos (hl hr)).trans hr.symm
    · rw [if_neg hk', seen]
  · rfl

/-- What is seen has the name. -/
theorem key_of_seen (hs : t.Sound) {r : Relation} (h : u.seen t key = some r) : r.key = key := by
  unfold seen at h
  split at h
  · next tr hf =>
    unfold Relation.present? at h
    split at h
    · cases h
      exact (mem_of_find? hf).2
    · cases h
  · exact (hs.find?_eq_some.1 h).2

/-- What is remembered after a look at a name: what was, else what the store has. -/
theorem find?_reach (hs : t.Sound) (key' : RelationKey) :
    ((u.reach t key).find? key').map (·.relation) =
      if key' = key then ((u.find? key).map (·.relation)).or (t.find? key)
      else (u.find? key').map (·.relation) := by
  unfold reach
  split
  · next r hf hr =>
    have hk := (hs.find?_eq_some.1 hr).2
    rw [find?_attach (by rwa [hk]), hk]
    by_cases hk' : key' = key <;> simp [hk', hf, hr]
  · next hnone =>
    split
    · next hk' =>
      rw [hk']
      cases hf : u.find? key with
      | some tr => rfl
      | none =>
        cases hr : t.find? key with
        | some r => exact absurd hr (hnone r hf)
        | none => rfl
    · rfl

theorem Fits.reach (h : u.Fits t) (hs : t.Sound) (hl : t.Live) (key : RelationKey) :
    (u.reach t key).Fits t := by
  unfold UnitOfWork.reach
  split
  · next r hf hr =>
    obtain ⟨hget, rfl⟩ := hs.find?_eq_some.1 hr
    have hne : ∀ tr ∈ u.tracked, tr.relation.id ≠ r.id := by
      intro tr htr hid
      refine find?_eq_none.1 hf tr htr ?_
      cases h.fits tr htr with
      | @kept r₀ r₁ dirty hf₁ hr₀ hid₁ hr₁ =>
        obtain ⟨hget₀, hk₀⟩ := hs.find?_eq_some.1 hf₁
        rw [← hid₁, hid, hget] at hget₀
        cases hget₀
        exact hk₀.symm
      | new hf₁ hn =>
        rw [(hid : _ = r.id), hget] at hn
        cases hn
      | reborn hf₁ hn =>
        rw [(hid : _ = r.id), hget] at hn
        cases hn
    refine ⟨h.keys.attach, ?_, ?_, forall_attach (P := fun r => r.created = true) h.created
      (Relation.isCreated_iff.1 (hl hr)).1⟩
    · rw [tracked_attach hf]
      exact nodup_map_append h.ids hne
    · intro tr htr
      rcases (mem_attach hf).1 htr with htr | rfl
      · exact h.fits tr htr
      · exact .kept hr (hl hr) rfl fun _ => rfl
  · exact h

/-- A remembered relation goes on. -/
theorem Fits.record {tr : Tracked} {command : RelationCommand} {es : List RelationEvent}
    {envelopes : List RelationEnvelope} (h : u.Fits t) (htr : tr ∈ u.tracked)
    (hc : tr.relation.handle command = .ok es) : (u.record tr.relation es envelopes).Fits t := by
  refine ⟨h.keys.record, h.keys.nodup_ids_record htr h.ids, ?_,
    forall_record (P := fun r => r.created = true) h.created
      (Relation.created_applyAll_of_handle hc)⟩
  intro tr' htr'
  have hkey := Relation.key_applyAll tr.relation es
  have hid := Relation.id_applyAll tr.relation es
  rcases (h.keys.mem_record htr).1 htr' with ⟨htr', -⟩ | rfl
  · exact h.fits tr' htr'
  · cases h.fits tr htr with
    | @kept r₀ r dirty hf₀ hr₀ hid₀ hr =>
      refine .kept (by rwa [hkey]) hr₀ (hid.trans hid₀) ?_
      intro hdirty
      obtain ⟨hdirty, hes⟩ : dirty = false ∧ es = [] := by simpa using hdirty
      rw [hr hdirty, hes, Relation.applyAll_nil]
    | new hf₀ hn => exact .new (by rwa [hkey]) (by rwa [hid])
    | reborn hf₀ hn => exact .reborn (by rwa [hkey]) (by rwa [hid])

/-- A new relation takes a name under which nothing is seen. -/
theorem Fits.record_new {r : Relation} {command : RelationCommand} {es : List RelationEvent}
    {envelopes : List RelationEnvelope} (h : u.Fits t) (hget : t.relations.get? r.id = none)
    (hid : ∀ tr ∈ u.tracked, tr.relation.id ≠ r.id) (hseen : u.seen t r.key = none)
    (hc : r.handle command = .ok es) (hne : es ≠ []) : (u.record r es envelopes).Fits t := by
  have hkey := Relation.key_applyAll r es
  rw [← Relation.id_applyAll r es] at hget hid
  have hdirty : (!es.isEmpty) = true := by simpa using hne
  have hcreated : ∀ tr ∈ (u.record r es envelopes).tracked, tr.relation.created = true :=
    forall_record (P := fun r => r.created = true) h.created
      (Relation.created_applyAll_of_handle hc)
  cases hf : u.find? r.key with
  | none =>
    rw [seen, hf] at hseen
    refine ⟨h.keys.record, ?_, ?_, hcreated⟩
    · rw [tracked_record_of_find?_none hf]
      exact nodup_map_append h.ids hid
    · intro tr htr
      rcases (mem_record_of_find?_none hf).1 htr with htr | rfl
      · exact h.fits tr htr
      · rw [hdirty]
        exact .new (by rwa [hkey]) hget
  | some old =>
    have hf' : u.find? (r.applyAll es).key = some old := by rwa [hkey]
    refine ⟨h.keys.record, h.keys.nodup_ids_track hf' h.ids fun tr htr he => absurd he (hid tr htr),
      ?_, hcreated⟩
    intro tr htr
    rcases (h.keys.mem_track hf').1 htr with ⟨htr, -⟩ | rfl
    · exact h.fits tr htr
    · obtain ⟨hold, hk⟩ := mem_of_find? hf
      rw [hdirty, Bool.or_true]
      cases h.fits old hold with
      | kept hf₀ => exact .reborn (by rw [hkey, ← hk]; exact hf₀) hget
      | new hf₀ => exact .new (by rw [hkey, ← hk]; exact hf₀) hget
      | reborn hf₀ => exact .reborn (by rw [hkey, ← hk]; exact hf₀) hget

/-- The first remembered relation is committed; the rest lies over the store that
this leaves as it lay before. -/
theorem Fits.tail {tr : Tracked} {trs : List Tracked} {events : List RelationEnvelope}
    {c : RelationChange} (h : Fits ⟨tr :: trs, events⟩ t) (hc : tr.change? = some c)
    (happly : t.apply c = .ok t') (hseen : ∀ key, t'.find? key =
      if key = tr.relation.key then tr.relation.present? else t.find? key) :
    Fits ⟨trs, events⟩ t' ∧ ∀ tr' ∈ trs, t'.find? tr'.relation.key = t.find? tr'.relation.key := by
  have hkeys := List.nodup_cons.1 h.keys
  have hids := List.nodup_cons.1 h.ids
  have hfind : ∀ tr' ∈ trs, t'.find? tr'.relation.key = t.find? tr'.relation.key := by
    intro tr' htr'
    rw [hseen, if_neg]
    intro he
    exact hkeys.1 (List.mem_map.2 ⟨tr', htr', he⟩)
  refine ⟨⟨hkeys.2, hids.2, ?_, fun tr' htr' =>
    h.created tr' (List.mem_cons_of_mem _ htr')⟩, hfind⟩
  intro tr' htr'
  refine (h.fits tr' (List.mem_cons_of_mem _ htr')).congr (hfind tr' htr')
    (Tables.apply_frame happly ?_)
  intro he
  rw [Tracked.relationId_of_change? hc] at he
  exact hids.1 (List.mem_map.2 ⟨tr', htr', he⟩)

theorem Fits.tail_of_change?_eq_none {tr : Tracked} {trs : List Tracked}
    {events : List RelationEnvelope} (h : Fits ⟨tr :: trs, events⟩ t) : Fits ⟨trs, events⟩ t :=
  ⟨(List.nodup_cons.1 h.keys).2, (List.nodup_cons.1 h.ids).2,
    fun tr' htr' => h.fits tr' (List.mem_cons_of_mem _ htr'),
    fun tr' htr' => h.created tr' (List.mem_cons_of_mem _ htr')⟩

/-- What is seen with one more relation remembered. -/
theorem seen_cons {tr : Tracked} {trs : List Tracked} {events : List RelationEnvelope}
    (hkey : tr.relation.key ∉ trs.map (·.relation.key)) (hseen : ∀ key, t'.find? key =
      if key = tr.relation.key then tr.relation.present? else t.find? key) :
    seen ⟨trs, events⟩ t' key = seen ⟨tr :: trs, events⟩ t key := by
  unfold seen find?
  rw [List.find?_cons]
  by_cases hk : tr.relation.key = key
  · subst hk
    have hnone : trs.find? (fun t => decide (t.relation.key = tr.relation.key)) = none :=
      List.find?_eq_none.2 fun tr' htr' => by
        simpa using fun he => hkey (List.mem_map.2 ⟨tr', htr', he⟩)
    simp only [hnone, decide_true, hseen, if_pos]
  · simp only [hk, decide_false]
    cases trs.find? fun t => decide (t.relation.key = key) with
    | some tr' => rfl
    | none => rw [hseen, if_neg fun he => hk he.symm]

/-- Kept and new relations: the commit is accepted and makes the store show what
was seen. -/
theorem Fits.commit_of_kept (h : u.Fits t) (hs : t.Sound)
    (hk : ∀ tr ∈ u.tracked, tr.Kept t) :
    ∃ t', t.commit u.changes = .ok t' ∧ t'.Sound ∧ ∀ key, t'.find? key = u.seen t key := by
  obtain ⟨trs, events⟩ := u
  induction trs generalizing t with
  | nil => exact ⟨t, rfl, hs, fun key => rfl⟩
  | cons tr trs ih =>
    have hfit := h.fits tr (List.mem_cons_self ..)
    have hkept := hk tr (List.mem_cons_self ..)
    have hkey := (List.nodup_cons.1 h.keys).1
    cases hc : tr.change? with
    | none =>
      obtain ⟨t', hcommit, hs', hseen'⟩ := ih hs h.tail_of_change?_eq_none
        fun tr' htr' => hk tr' (List.mem_cons_of_mem _ htr')
      refine ⟨t', ?_, hs', fun key => (hseen' key).trans (seen_cons hkey ?_)⟩
      · rw [changes, List.filterMap_cons_none hc]
        exact hcommit
      · intro key'
        split
        · next he => rw [he, hfit.find?_of_change?_eq_none hc hkept]
        · rfl
    | some c =>
      obtain ⟨t₁, happly, hs₁, hseen₁⟩ := hfit.apply hs (h.created tr (List.mem_cons_self ..)) hkept hc
      obtain ⟨h₁, hfind⟩ := h.tail hc happly hseen₁
      obtain ⟨t', hcommit, hs', hseen'⟩ := ih hs₁ h₁ fun tr' htr' r₀ hr₀ =>
        hk tr' (List.mem_cons_of_mem _ htr') r₀ (hfind tr' htr' ▸ hr₀)
      refine ⟨t', ?_, hs', fun key => (hseen' key).trans (seen_cons hkey hseen₁)⟩
      rw [changes, List.filterMap_cons_some hc]
      exact Tables.commit_cons_eq_ok.2 ⟨t₁, happly, hcommit⟩

/-- A reborn relation: the commit is refused. -/
theorem Fits.commit_of_reborn (h : u.Fits t) (hs : t.Sound)
    (hk : ∃ tr ∈ u.tracked, ¬tr.Kept t) :
    ∃ reason, t.commit u.changes = .error (.concurrency reason) := by
  obtain ⟨trs, events⟩ := u
  induction trs generalizing t with
  | nil => simp at hk
  | cons tr trs ih =>
    have hfit := h.fits tr (List.mem_cons_self ..)
    by_cases hkept : tr.Kept t
    · -- the relation itself goes through, another one does not
      obtain ⟨tr', htr', hnot⟩ := hk
      have hmem : tr' ∈ trs := (List.mem_cons.1 htr').resolve_left fun he => hnot (he ▸ hkept)
      cases hc : tr.change? with
      | none =>
        obtain ⟨reason, hcommit⟩ := ih hs h.tail_of_change?_eq_none ⟨tr', hmem, hnot⟩
        refine ⟨reason, ?_⟩
        rw [changes, List.filterMap_cons_none hc]
        exact hcommit
      | some c =>
        obtain ⟨t₁, happly, hs₁, hseen₁⟩ :=
          hfit.apply hs (h.created tr (List.mem_cons_self ..)) hkept hc
        obtain ⟨h₁, hfind⟩ := h.tail hc happly hseen₁
        obtain ⟨reason, hcommit⟩ := ih hs₁ h₁ ⟨tr', hmem, fun hkept' => hnot fun r₀ hr₀ =>
          hkept' r₀ (hfind tr' hmem ▸ hr₀)⟩
        refine ⟨reason, ?_⟩
        rw [changes, List.filterMap_cons_some hc, Tables.commit, List.foldlM_cons, happly]
        exact hcommit
    · obtain ⟨c, reason, hc, happly⟩ := hfit.apply_of_not_kept hkept
      refine ⟨reason, ?_⟩
      rw [changes, List.filterMap_cons_some hc, Tables.commit, List.foldlM_cons, happly]
      rfl

end UnitOfWork

end PartnerRelations
