/-
# `Proofs.UnitOfWork.Upright` — units of work without deletions

Entries of a batch delete nothing, so a unit of work that lies over a store stays
`Upright` while they are handled: everything in it is there, and no relation is in
the place of another one.  Such a unit shows what it remembers, hides no relation of
the store behind one with another identifier, and its changes are accepted
(`UnitOfWork.Fits.commit_of_kept`).

Where no event was recorded at all the unit is `Clean`, and calls for no change.
-/
import PartnerRelations.Proofs.UnitOfWork.Overlay

namespace PartnerRelations

namespace UnitOfWork

/-- The unit lies over the store, everything in it is there, and no relation is in
the place of another one. -/
structure Upright (u : UnitOfWork) (t : Tables) : Prop where
  fits : u.Fits t
  kept : ∀ tr ∈ u.tracked, tr.Kept t
  present : ∀ tr ∈ u.tracked, tr.relation.isCreated = true

variable {u : UnitOfWork} {t : Tables} {key : RelationKey} {r : Relation}
  {command : RelationCommand} {es : List RelationEvent} {envelopes : List RelationEnvelope}

theorem upright_empty (t : Tables) : empty.Upright t :=
  ⟨fits_empty t, by simp [empty], by simp [empty]⟩

namespace Upright

theorem reach (h : u.Upright t) (hs : t.Sound) (hl : t.Live) (key : RelationKey) :
    (u.reach t key).Upright t := by
  refine ⟨h.fits.reach hs hl key, ?_, ?_⟩ <;> unfold UnitOfWork.reach <;> split
  · next r hf hr =>
    refine forall_attach (P := fun r => ∀ r₀, t.find? r.key = some r₀ → r.id = r₀.id) h.kept ?_
    intro r₀ hr₀
    rw [(hs.find?_eq_some.1 hr).2, hr] at hr₀
    rw [Option.some.inj hr₀]
  · exact h.kept
  · next r hf hr => exact forall_attach (P := fun r => r.isCreated = true) h.present (hl hr)
  · exact h.present

/-- What is remembered is seen. -/
theorem seen_of_mem (h : u.Upright t) {tr : Tracked} (htr : tr ∈ u.tracked) :
    u.seen t tr.relation.key = some tr.relation := by
  rw [seen, h.fits.keys.find?_eq_some.2 ⟨htr, rfl⟩]
  exact if_pos (h.present tr htr)

/-- What is seen is there. -/
theorem present_of_seen (h : u.Upright t) (hl : t.Live) (hseen : u.seen t key = some r) :
    r.isCreated = true := by
  unfold seen at hseen
  split at hseen
  · next tr hf =>
    have hpresent := h.present tr (mem_of_find? hf).1
    rw [Relation.present?, if_pos hpresent] at hseen
    rwa [← Option.some.inj hseen]
  · exact hl hseen

/-- What is seen under a name is remembered after a look at it. -/
theorem mem_reach_of_seen (h : u.Upright t) (hs : t.Sound) (hseen : u.seen t key = some r) :
    ∃ tr ∈ (u.reach t key).tracked, tr.relation = r := by
  have hfind : ((u.reach t key).find? key).map (·.relation) = some r := by
    rw [find?_reach hs, if_pos rfl]
    unfold seen at hseen
    split at hseen
    · next tr hf =>
      rw [Relation.present?, if_pos (h.present tr (mem_of_find? hf).1)] at hseen
      rw [hf]
      exact hseen
    · next hf =>
      rw [hf]
      exact hseen
  obtain ⟨tr, htr, hr⟩ := Option.map_eq_some_iff.1 hfind
  exact ⟨tr, (mem_of_find? htr).1, hr⟩

/-- An identifier that is not seen is not stored. -/
theorem get?_eq_none (h : u.Upright t) (hs : t.Sound) {id : RelationId}
    (hseen : ∀ key r, u.seen t key = some r → r.id ≠ id) : t.relations.get? id = none := by
  cases hget : t.relations.get? id with
  | none => rfl
  | some r =>
    have hid := hs.id_eq hget
    subst hid
    have hfind := hs.find?_eq_some.2 ⟨hget, rfl⟩
    cases hf : u.find? r.key with
    | some tr =>
      obtain ⟨htr, hk⟩ := mem_of_find? hf
      have hid := h.kept tr htr r (by rwa [hk])
      exact absurd hid (hseen _ _ (h.seen_of_mem htr))
    | none =>
      refine absurd rfl (hseen r.key r ?_)
      rw [seen, hf]
      exact hfind

/-- A remembered relation goes on. -/
theorem record {tr : Tracked} (h : u.Upright t) (htr : tr ∈ u.tracked)
    (hc : tr.relation.handle command = .ok es) (hd : command.isDelete = false) :
    (u.record tr.relation es envelopes).Upright t := by
  refine ⟨h.fits.record htr hc, ?_, ?_⟩
  · refine forall_record (P := fun r => ∀ r₀, t.find? r.key = some r₀ → r.id = r₀.id) h.kept ?_
    intro r₀ hr₀
    rw [Relation.key_applyAll] at hr₀
    rw [Relation.id_applyAll]
    exact h.kept tr htr r₀ hr₀
  · exact forall_record (P := fun r => r.isCreated = true) h.present
      (Relation.isCreated_applyAll_of_handle hc
        (Relation.isCreated_iff.1 (h.present tr htr)).2 hd)

/-- A new relation takes a free name. -/
theorem record_new (h : u.Upright t) {id : RelationId} (hs : t.Sound)
    (hid : ∀ key r, u.seen t key = some r → r.id ≠ id) (hfree : u.seen t key = none)
    (hc : (Relation.empty id key.tenant key.externalId).handle command = .ok es)
    (hd : command.isDelete = false) :
    (u.record (.empty id key.tenant key.externalId) es envelopes).Upright t := by
  have hnone : u.find? key = none := by
    cases hf : u.find? key with
    | none => rfl
    | some tr =>
      obtain ⟨htr, rfl⟩ := mem_of_find? hf
      rw [h.seen_of_mem htr] at hfree
      cases hfree
  have hstored : t.find? key = none := by rwa [seen, hnone] at hfree
  refine ⟨h.fits.record_new (h.get?_eq_none hs hid) (fun tr htr => hid _ _ (h.seen_of_mem htr))
    hfree hc (Relation.ne_nil_of_handle_empty hc), ?_, ?_⟩
  · refine forall_record (P := fun r => ∀ r₀, t.find? r.key = some r₀ → r.id = r₀.id) h.kept ?_
    intro r₀ hr₀
    rw [Relation.key_applyAll] at hr₀
    cases hstored.symm.trans hr₀
  · exact forall_record (P := fun r => r.isCreated = true) h.present
      (Relation.isCreated_applyAll_of_handle hc rfl hd)

end Upright

/-! ## Units of work in which nothing happened -/

/-- Nothing happened to what the unit remembers. -/
def Clean (u : UnitOfWork) : Prop :=
  ∀ tr ∈ u.tracked, tr.dirty = false

theorem clean_empty : empty.Clean := by simp [Clean, empty]

theorem Clean.changes_eq_nil (h : u.Clean) : u.changes = [] :=
  List.filterMap_eq_nil_iff.2 fun tr htr => Tracked.change?_eq_none.2 (.inl (h tr htr))

theorem Clean.attach (h : u.Clean) (r : Relation) : (u.attach r).Clean := by
  cases hf : u.find? r.key with
  | some tr => rwa [attach_of_find? hf]
  | none =>
    intro tr htr
    rcases (mem_attach hf).1 htr with htr | rfl
    · exact h tr htr
    · rfl

theorem Clean.reach (h : u.Clean) (key : RelationKey) : (u.reach t key).Clean := by
  unfold UnitOfWork.reach
  split
  · exact h.attach _
  · exact h

/-- What a command has left alone is as clean as before. -/
theorem Clean.record (h : u.Clean) (r : Relation) (envelopes : List RelationEnvelope) :
    (u.record r [] envelopes).Clean := by
  intro tr htr
  rw [tracked_record, mem_track] at htr
  rcases htr with ⟨htr, -⟩ | ⟨old, hold, -, rfl⟩ | ⟨-, rfl⟩
  · exact h tr htr
  · simp [h old hold]
  · rfl

end UnitOfWork

end PartnerRelations
