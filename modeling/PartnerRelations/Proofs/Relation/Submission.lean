/-
# `Proofs.Relation.Submission` — one start of sharing for each submission

Sharing starts from the first sharing state only.  A relation comes there when it is
created, which happens once, and by a reset.  So in the events of commands accepted one
after the other

    between any two starts of sharing there is a reset      (`Evolves.alternates`)

The invariant says more of the present: since the last start without a reset, the
relation has not been in the first sharing state again (`Paced.claimed`).

A start can also be told from the relation that it leads to (`Evolves.eq_of_start`):
no other events of one version more lead there.
-/
import PartnerRelations.Proofs.Relation.Evolution

namespace PartnerRelations

namespace RelationEvent

/-- The relation is new. -/
def isCreation : RelationEvent → Bool
  | .inputCreated .. => true
  | _ => false

/-- Sharing starts. -/
def isStart : RelationEvent → Bool
  | .sharingStarted .. => true
  | _ => false

/-- Back to the first sharing state. -/
def isReset : RelationEvent → Bool
  | .sharingReset .. => true
  | _ => false

end RelationEvent

/-- Between any two starts of sharing there is a reset. -/
def Alternates (es : List RelationEvent) : Prop :=
  ∀ before e between e' after, es = before ++ e :: (between ++ e' :: after) →
    e.isStart = true → e'.isStart = true → ∃ reset ∈ between, reset.isReset = true

namespace Relation

variable {r r' base : Relation} {es new : List RelationEvent} {e : RelationEvent}
  {command : RelationCommand}

/-! ## What commands list -/

/-- Events name the relation that they happen to. -/
theorem relationId_of_handle (h : r.handle command = .ok es) : ∀ e ∈ es, e.relationId = r.id := by
  intro e he
  cases listed_of_handle h e he <;> rfl

theorem Evolves.relationId_eq (he : r.Evolves es r') : ∀ e ∈ es, e.relationId = r.id := by
  induction he with
  | refl => simp
  | step he hc ih =>
    intro e hmem
    rcases List.mem_append.1 hmem with hmem | hmem
    · exact ih e hmem
    · exact (relationId_of_handle hc e hmem).trans he.id_eq

/-- What was created once is not created again. -/
theorem created_eq_false_of_mem (h : r.handle command = .ok es) (he : e ∈ es)
    (hcreation : e.isCreation = true) : r.created = false := by
  cases listed_of_handle h e he with
  | created hr => exact hr
  | _ => cases hcreation

/-- The relation is not in the first sharing state. -/
def Claimed (r : Relation) : Prop :=
  ∀ state ∈ r.sharingState, state.stateType ≠ .initial

/-- A start is listed by itself, and only from the first sharing state. -/
theorem start_of_mem (h : r.handle command = .ok es) (he : e ∈ es) (hstart : e.isStart = true) :
    es = [e] ∧ ∃ state, r.sharingState = some state ∧ state.stateType = .initial := by
  cases listed_of_handle h e he with
  | started hstate hinitial =>
    obtain ⟨-, -, rfl⟩ := handleStart_eq_ok.1 h
    exact ⟨rfl, _, hstate, hinitial⟩
  | _ => cases hstart

/-! ## Starts and resets -/

theorem claimed_apply_start (hstart : e.isStart = true) : (r.apply e).Claimed := by
  cases e with
  | sharingStarted => simp [apply, Claimed, RelationSharingState.pendingAt]
  | _ => simp [RelationEvent.isStart] at hstart

/-- Only a creation and a reset lead back to the first sharing state. -/
theorem Claimed.apply (h : r.Claimed) (hcreation : e.isCreation = false)
    (hreset : e.isReset = false) : (r.apply e).Claimed := by
  cases e with
  | inputCreated => simp [RelationEvent.isCreation] at hcreation
  | sharingReset => simp [RelationEvent.isReset] at hreset
  | inputUpdated => exact h
  | deleted => exact h
  | sharingStarted => exact claimed_apply_start rfl
  | sharingFailed => simp [Relation.apply, Claimed, RelationSharingState.errorAt]
  | outputPublished => simp [Relation.apply, Claimed, RelationSharingState.successAt]

theorem Claimed.applyAll (h : r.Claimed)
    (hes : ∀ e ∈ es, e.isCreation = false ∧ e.isReset = false) : (r.applyAll es).Claimed := by
  induction es generalizing r with
  | nil => exact h
  | cons e es ih =>
    obtain ⟨⟨hcreation, hreset⟩, hes⟩ := List.forall_mem_cons.1 hes
    exact ih (h.apply hcreation hreset) hes

/-- What the events so far say of the next start. -/
structure Paced (es : List RelationEvent) (r : Relation) : Prop where
  alternates : Alternates es
  claimed : ∀ before e between, es = before ++ e :: between → e.isStart = true →
    (∀ e' ∈ between, e'.isReset = false) → r.Claimed
  created : es ≠ [] → r.created = true

theorem paced_nil (r : Relation) : Paced [] r where
  alternates _ _ _ _ _ h := by simp at h
  claimed _ _ _ h := by simp at h
  created h := absurd rfl h

/-- Old events and new ones, cut at one of them. -/
private theorem append_eq_append_cons {α : Type} {old new before after : List α} {a : α}
    (h : old ++ new = before ++ a :: after) :
    (∃ between, old = before ++ a :: between ∧ after = between ++ new) ∨
      ∃ between, before = old ++ between ∧ new = between ++ a :: after := by
  rcases List.append_eq_append_iff.1 h with ⟨between, hb, hnew⟩ | ⟨between, hold, hafter⟩
  · exact .inr ⟨between, hb, hnew⟩
  · cases between with
    | nil => exact .inr ⟨[], by simpa using hold.symm, hafter.symm⟩
    | cons b between =>
      obtain ⟨rfl, rfl⟩ := List.cons.inj hafter
      exact .inl ⟨between, hold, rfl⟩

/-- After a start that no reset followed, no command starts sharing again. -/
theorem Paced.step (h : Paced es r) (hc : r.handle command = .ok new) :
    Paced (es ++ new) (r.applyAll new) where
  alternates before e between e' after heq hstart hstart' := by
    rw [show before ++ e :: (between ++ e' :: after) = before ++ e :: between ++ e' :: after by
      simp] at heq
    rcases append_eq_append_cons heq with ⟨rest, hes, -⟩ | ⟨rest, hes, hnew⟩
    · exact h.alternates before e between e' rest (by simpa using hes) hstart hstart'
    · obtain ⟨hone, state, hstate, hinitial⟩ := start_of_mem hc (by rw [hnew]; simp) hstart'
      obtain ⟨rfl, -, -⟩ : rest = [] ∧ e' = e' ∧ after = [] := by
        simpa [hone, List.singleton_eq_append_iff] using hnew
      refine Classical.byContradiction fun hnone => ?_
      have hclaimed := h.claimed before e between (by simpa using hes.symm) hstart fun e hmem => by
        rw [← Bool.not_eq_true]
        exact fun hreset => hnone ⟨e, hmem, hreset⟩
      exact hclaimed state hstate hinitial
  claimed before e between heq hstart hreset := by
    rcases append_eq_append_cons heq with ⟨rest, hes, rfl⟩ | ⟨rest, rfl, hnew⟩
    · have hcreated := h.created (by rw [hes]; simp)
      obtain ⟨hrest, hnew⟩ := List.forall_mem_append.1 hreset
      refine (h.claimed before e rest hes hstart hrest).applyAll fun e' he' => ⟨?_, hnew e' he'⟩
      rw [← Bool.not_eq_true]
      intro hcreation
      cases hcreated.symm.trans (created_eq_false_of_mem hc he' hcreation)
    · obtain ⟨rfl, -⟩ := start_of_mem hc (by rw [hnew]; simp) hstart
      exact claimed_apply_start hstart
  created _ := created_applyAll_of_handle hc

/-- Between any two starts of sharing there is a reset. -/
theorem Evolves.alternates {id : RelationId} {tenant : TenantBpnl} {externalId : ExternalId}
    (he : (empty id tenant externalId).Evolves es r) : Alternates es := by
  have hpaced : Paced es r := by
    induction he with
    | refl => exact paced_nil _
    | step _ hc ih => exact ih.step hc
  exact hpaced.alternates

/-- Only a start leads from the first sharing state to where a start leads. -/
theorem exists_of_apply_eq_start {state : RelationSharingState} (hstate : r.sharingState = some state)
    (hinitial : state.stateType = .initial) {id : RelationId} {at_ : Instant}
    (h : r.apply e = r.apply (.sharingStarted id at_)) : ∃ id', e = .sharingStarted id' at_ := by
  have hpending : (r.apply e).sharingState.map (·.stateType) = some .pending := by
    rw [h]
    simp [Relation.apply, hstate, RelationSharingState.pendingAt]
  have hmoment : e.occurredAt = at_ := (updatedAt_apply r e).symm.trans (congrArg updatedAt h)
  cases e with
  | sharingStarted id' at_' => exact ⟨id', by rw [← hmoment]; rfl⟩
  | _ =>
    simp [Relation.apply, hstate, hinitial, RelationSharingState.initial,
      RelationSharingState.errorAt, RelationSharingState.successAt] at hpending

/-- Events of commands that lead where a start leads are that start. -/
theorem Evolves.eq_of_start (he : base.Evolves es r) {at_ : Instant}
    (hstart : base.handle (.startSharing at_) = .ok new) (hr : r = base.applyAll new) :
    es = new := by
  obtain ⟨-, ⟨state, hstate, hmove⟩, rfl⟩ := handleStart_eq_ok.1 hstart
  have hlength : es.length = 1 := by
    have hversion := he.version_eq
    rw [hr, version_applyAll, List.length_singleton] at hversion
    omega
  obtain ⟨e, rfl⟩ := List.length_eq_one_iff.1 hlength
  have hsame : base.apply e = base.apply (.sharingStarted base.id at_) :=
    he.eq_applyAll.symm.trans hr
  obtain ⟨id, rfl⟩ := exists_of_apply_eq_start hstate
    (by simpa [RelationSharingStateType.canMoveTo] using hmove) hsame
  rw [show id = base.id from he.relationId_eq _ (List.mem_singleton.2 rfl)]

end Relation

end PartnerRelations
