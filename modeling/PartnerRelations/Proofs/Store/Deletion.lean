/-
# `Proofs.Store.Deletion` — what a deletion leaves behind

A store that does not have a relation shows nothing of it (`Tables.Lacks`): no look-up,
no list of waiting relations and no search returns it or a view of it.  An update or a
deletion of it is refused.

That it stays so is a matter of the history.  A relation has ended (`History.Ended`) when
its events include a deletion; events are never taken back, so it has ended in every
history that goes on from there, and no store that such a history accounts for has it:

    `Accounts.refused`     a unit of work with a change of it is refused as a whole,
                           be the change an insert, an update or a deletion

The commit that deletes a relation leaves its name free (`Accounts.deleted`): a unit of
work knows at most one relation under a name, so it does not create another there.
-/
import PartnerRelations.Proofs.Service.Reference
import PartnerRelations.Proofs.Store.History

namespace PartnerRelations

theorem Page.mem_of_mem_ofSorted {α : Type} {request : PageRequest} {all : List α} {a : α}
    (h : a ∈ (Page.ofSorted request all).content) : a ∈ all :=
  List.mem_of_mem_drop (List.mem_of_mem_take h)

namespace Tables

variable {t : Tables} {x : RelationId} {tenant : TenantBpnl} {r : Relation}

/-- A relation is nowhere in a store: it has no row and no stage there, and what is found,
waits or is listed are other relations, or views of others. -/
structure Lacks (t : Tables) (x : RelationId) : Prop where
  stored : t.relations.get? x = none
  stage : ∀ kind, t.findStage? x kind = none
  found : ∀ key, ∀ r ∈ t.find? key, r.id ≠ x
  waiting : ∀ state limit, ∀ r ∈ t.inState state limit, r.id ≠ x
  inputs : ∀ ledger tenant filter page,
    ∀ view ∈ (t.searchInput ledger tenant filter page).content,
      ∃ r ∈ t.ofTenant tenant, r.id ≠ x ∧ inputView? ledger r = some view
  outputs : ∀ tenant filter page, ∀ view ∈ (t.searchOutput tenant filter page).content,
    ∃ r ∈ t.ofTenant tenant, r.id ≠ x ∧ OutputRelation.ofRelation? r = some view
  sharingStates : ∀ tenant filter page,
    ∀ view ∈ (t.searchSharingStates tenant filter page).content,
      ∃ r ∈ t.ofTenant tenant, r.id ≠ x ∧ RelationSharingStateView.ofRelation? r = some view

/-- What a search lists are views of what is stored. -/
theorem exists_of_mem_search {α : Type} {view? : Relation → Option α} {admits : α → Bool}
    {page : PageRequest} {view : α} (h : view ∈
      (Page.ofSorted page (((t.ofTenant tenant).filterMap view?).filter admits)).content) :
    ∃ r ∈ t.ofTenant tenant, view? r = some view :=
  List.mem_filterMap.1 (List.mem_filter.1 (Page.mem_of_mem_ofSorted h)).1

/-- Without a row there is nothing to show. -/
theorem Sound.lacks (h : t.Sound) (hx : t.relations.get? x = none) : t.Lacks x := by
  have hne : ∀ {r : Relation}, t.relations.get? r.id = some r → r.id ≠ x := by
    rintro r hr rfl
    rw [hx] at hr
    cases hr
  have hlisted : ∀ {tenant}, ∀ r ∈ t.ofTenant tenant, r.id ≠ x := fun r hr =>
    hne (h.mem_values.1 (mem_ofTenant.1 hr).1)
  refine ⟨hx, fun kind => ?_, fun key r hr => ?_, fun state limit r hr => ?_, ?_, ?_, ?_⟩
  · rw [findStage?, hx]
    rfl
  · exact hne (h.find?_eq_some.1 hr).1
  · exact hne (h.mem_inState hr)
  · intro ledger tenant filter page view hview
    obtain ⟨r, hr, hv⟩ := exists_of_mem_search hview
    exact ⟨r, hr, hlisted r hr, hv⟩
  · intro tenant filter page view hview
    obtain ⟨r, hr, hv⟩ := exists_of_mem_search hview
    exact ⟨r, hr, hlisted r hr, hv⟩
  · intro tenant filter page view hview
    obtain ⟨r, hr, hv⟩ := exists_of_mem_search hview
    exact ⟨r, hr, hlisted r hr, hv⟩

/-- An update of what is gone is refused as one that came too late. -/
theorem commit_update_gone (expected : ExpectedVersion) (hx : t.relations.get? r.id = none) :
    ∃ reason, t.commit [.update r expected] = .error (.concurrency reason) := by
  refine ⟨s!"relation {r.id.text} no longer exists", ?_⟩
  simp [commit, apply, ensureVersion, currentVersion, hx, bind, Except.bind]

end Tables

namespace History

variable {h h' : History} {t t' : Tables} {x : RelationId} {shown : RelationId → Option Relation}
  {u : UnitOfWork} {c : RelationChange} {expected : ExpectedVersion}

/-- A relation was deleted. -/
def Ended (h : History) (x : RelationId) : Prop :=
  (h.current x).deleted = true

theorem ended_iff : h.Ended x ↔ ∃ id at_, .deleted id at_ ∈ h.events x :=
  Relation.deleted_applyAll.trans ⟨fun hd => hd.resolve_left nofun, .inr⟩

theorem Ended.envelopes_ne_nil (hx : h.Ended x) : h.envelopes x ≠ [] := by
  obtain ⟨id, at_, hmem⟩ := ended_iff.1 hx
  rintro hnil
  rw [events, hnil] at hmem
  cases hmem

/-- What ended once has ended for ever. -/
theorem Ended.mono (hx : h.Ended x) (hext : h.Extends h') : h'.Ended x := by
  obtain ⟨id, at_, hmem⟩ := ended_iff.1 hx
  obtain ⟨more, hmore⟩ := hext.envelopes x
  refine ended_iff.2 ⟨id, at_, ?_⟩
  rw [events, hmore, List.map_append]
  exact List.mem_append_left _ hmem

/-- What has ended is not stored. -/
theorem Accounts.get?_ended (ha : h.Accounts t) (hx : h.Ended x) :
    t.relations.get? x = none := by
  cases hr : t.relations.get? x with
  | none => rfl
  | some r =>
    obtain ⟨rfl, hcreated⟩ := ha.stored hr
    have hlive := (Relation.isCreated_iff.1 hcreated).2
    rw [hx] at hlive
    cases hlive

/-- A unit of work with a change of a relation that has ended is refused. -/
theorem Accounts.refused (ha : h.Accounts t) (hx : h.Ended x)
    (hg : u.Grounded (h.Read shown) h.Unborn) (hc : c ∈ u.changes) (hid : c.relationId = x) :
    ∃ e, t.commit u.changes = .error e := by
  cases hcommit : t.commit u.changes with
  | error e => exact ⟨e, rfl⟩
  | ok t' =>
    obtain ⟨h', ha', hext, -, hreplaces⟩ := ha.commit hg hcommit
    have hbefore := ha.get?_ended hx
    have hafter := ha'.get?_ended (hx.mono hext)
    subst hid
    have hrep := hreplaces c hc
    cases c with
    | insert r =>
      obtain ⟨_, -, -, hnew⟩ := hrep
      exact nomatch hafter.symm.trans hnew
    | update r expected =>
      obtain ⟨_, _, -, -, hold, -⟩ := hrep
      exact nomatch hbefore.symm.trans hold
    | delete id expected =>
      obtain ⟨_, _, _, -, -, -, hold, -⟩ := hrep
      exact nomatch hbefore.symm.trans hold

/-- What is stored under a name that was free before has no history from then. -/
theorem Accounts.unborn {r : Relation} (ha : h.Accounts t) (ha' : h'.Accounts t')
    (hext : h.Extends h') (hget : t'.relations.get? r.id = some r)
    (hfree : ∀ r' ∈ t.relations.values, r'.key ≠ r.key) : h.envelopes r.id = [] := by
  by_contra hborn
  cases hget' : t.relations.get? r.id with
  | some r' =>
    -- it was stored, so it was stored under the free name
    obtain hid := ha.sound.id_eq hget'
    refine hfree r' (Table.mem_values_of_get? hget') ?_
    rw [← (ha.recalls (hid ▸ hget')).name_eq, hid, ← hext.name _ hborn,
      (ha'.recalls hget).name_eq]
  | none =>
    have hended : h.Ended r.id := (ha.gone hget').resolve_left hborn
    rw [ha'.get?_ended (hended.mono hext)] at hget
    cases hget

/-! ## The commit that deletes -/

/-- A unit of work that deletes a relation stores no other under its name. -/
theorem Accounts.frees {old : Relation} (ha : h.Accounts t)
    (hg : u.Grounded (h.Read shown) h.Unborn) (hcommit : t.commit u.changes = .ok t')
    (hdelete : .delete old.id expected ∈ u.changes) (hold : t.relations.get? old.id = some old)
    (hborn : h.envelopes old.id ≠ []) :
    ∀ r ∈ t'.relations.values, r.id = old.id ∨ r.key ≠ old.key := by
  -- the unit knows the deleted relation under its name, and no other
  obtain ⟨tr, htr, hchange⟩ := List.mem_filterMap.1 hdelete
  have hid : old.id = tr.relation.id := Tracked.relationId_of_change? hchange
  have hkey : tr.relation.key = old.key := by
    obtain ⟨b, hb, hbkey, hread | hunborn⟩ := (hg.tracked tr htr).exists_base
    · rw [← hbkey, ← hread.2.1.name_eq, ← (ha.recalls hold).name_eq, hb, hid]
    · exact absurd hunborn.2 (by rwa [hb, ← hid])
  refine Tables.forall_values_commit ?_ ?_ hcommit
  · intro r hr
    by_cases hk : r.key = old.key
    · exact .inl (ha.sound.id_eq_of_key_eq (ha.sound.mem_values.1 hr) hold hk)
    · exact .inr hk
  · intro c hc r hr
    obtain ⟨tr', htr', hchange'⟩ := List.mem_filterMap.1 hc
    obtain rfl := Tracked.stored?_of_change? hchange' r hr
    by_cases hk : tr'.relation.key = old.key
    · exact .inl (hid ▸ congrArg (·.relation.id)
        (hg.keys.eq_of_key_eq htr' htr (hk.trans hkey.symm)))
    · exact .inr hk

/-- After the commit of its deletion a relation has ended, and nothing is stored under
the name that it had. -/
theorem Accounts.deleted (ha : h.Accounts t) (hg : u.Grounded (h.Read shown) h.Unborn)
    (hcommit : t.commit u.changes = .ok t') (ha' : h'.Accounts t') (hext : h.Extends h')
    (hdelete : .delete x expected ∈ u.changes) :
    h'.Ended x ∧ ∃ old, t.relations.get? x = some old ∧ old.id = x ∧ h'.name x = old.key ∧
      ∀ r ∈ t'.relations.values, r.key ≠ old.key := by
  obtain ⟨-, -, -, -, hreplaces⟩ := ha.commit hg hcommit
  obtain ⟨old, _, _, -, -, -, hold, hnew⟩ := hreplaces _ hdelete
  obtain rfl := ha.sound.id_eq hold
  have hborn := (ha.recalls hold).envelopes_ne_nil (Relation.isCreated_iff.1 (ha.stored hold).2).1
  refine ⟨?_, old, hold, rfl, (hext.name _ hborn).trans (ha.recalls hold).name_eq, ?_⟩
  · obtain ⟨more, hmore⟩ := hext.envelopes old.id
    refine (ha'.gone hnew).resolve_left ?_
    rw [hmore]
    exact List.append_ne_nil_of_left_ne_nil hborn more
  · intro r hr
    refine (ha.frees hg hcommit hdelete hold hborn r hr).resolve_left fun hrid => ?_
    have hget := ha'.sound.mem_values.1 hr
    rw [hrid, hnew] at hget
    cases hget

end History

end PartnerRelations
