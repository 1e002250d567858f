/-
# `Proofs.Relation.Ends` — the partners that relations refer to

A relation refers to its two partners by the identifiers of their ledger records.  The
identifiers come from somewhere, and this says from where:

    command → event       the partners that an event names are its command's
    event → relation      the ends of the stage after an event are the event's partners,
                          or they were its ends before

A `Directory` says which identifiers stand for partners of which tenant.  A relation that
refers into one (`RefersTo`) goes on doing so while commands name partners of it.
-/
import Mathlib.Order.Basic
import PartnerRelations.Proofs.Relation.Evolution

namespace PartnerRelations

/-- Which identifiers stand for business partners of a tenant. -/
abbrev Directory := TenantBpnl → SharingStateId → Prop

/-- The partners that a command names. -/
def RelationCommand.ends : RelationCommand → List ResolvedPartner
  | .createInput _ source target _ => [source, target]
  | .updateInput _ source target _ => [source, target]
  | _ => []

/-- The partners that an event names. -/
def RelationEvent.ends : RelationEvent → List ResolvedPartner
  | .inputCreated _ _ _ source target _ => [source, target]
  | .inputUpdated _ _ source target _ => [source, target]
  | _ => []

namespace Relation

variable {r : Relation} {D D' : Directory} {e : RelationEvent} {es : List RelationEvent}
  {command : RelationCommand}

/-- Both ends of the input stage are in the directory, as partners of the relation's
tenant. -/
def RefersTo (r : Relation) (D : Directory) : Prop :=
  ∀ stage ∈ r.input, D r.tenant stage.source ∧ D r.tenant stage.target

theorem RefersTo.mono (h : r.RefersTo D) (hle : D ≤ D') : r.RefersTo D' := fun stage hstage =>
  ⟨hle _ _ (h stage hstage).1, hle _ _ (h stage hstage).2⟩

theorem refersTo_empty (id : RelationId) (tenant : TenantBpnl) (externalId : ExternalId) :
    (empty id tenant externalId).RefersTo D := fun _ h => by cases h

theorem Listed.ends_subset (h : r.Listed command e) : e.ends ⊆ command.ends := by
  cases h <;> simp [RelationEvent.ends, RelationCommand.ends]

theorem tenant_apply (r : Relation) (e : RelationEvent) : (r.apply e).tenant = r.tenant :=
  congrArg RelationKey.tenant (key_apply r e)

theorem RefersTo.apply (h : r.RefersTo D) (he : ∀ p ∈ e.ends, D r.tenant p.id) :
    (r.apply e).RefersTo D := by
  intro stage hstage
  rw [tenant_apply]
  cases e with
  | inputCreated =>
    cases hstage
    simpa [RelationEvent.ends] using he
  | inputUpdated =>
    obtain ⟨old, -, rfl⟩ := Option.map_eq_some_iff.1 hstage
    simpa [RelationEvent.ends] using he
  | deleted => cases hstage
  | _ => exact h stage hstage

theorem RefersTo.applyAll (h : r.RefersTo D) (he : ∀ e ∈ es, ∀ p ∈ e.ends, D r.tenant p.id) :
    (r.applyAll es).RefersTo D := by
  induction es generalizing r with
  | nil => exact h
  | cons e es ih =>
    obtain ⟨hfirst, hrest⟩ := List.forall_mem_cons.1 he
    exact ih (h.apply hfirst) (tenant_apply r e ▸ hrest)

/-- A command that names partners of the directory keeps a relation referring to it. -/
theorem RefersTo.handled (h : r.RefersTo D) (hc : r.handle command = .ok es)
    (hends : ∀ p ∈ command.ends, D r.tenant p.id) : (r.applyAll es).RefersTo D :=
  h.applyAll fun e he p hp => hends p ((listed_of_handle hc e he).ends_subset hp)

end Relation

end PartnerRelations
