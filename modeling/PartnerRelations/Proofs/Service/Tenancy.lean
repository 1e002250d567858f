/-
# `Proofs.Service.Tenancy` — a tenant's calls keep to the tenant

Nothing that answers a query checks whose call it is: a name is looked up for whoever asks,
and a commit is made for whoever comes with it.  So the calls have to keep to their tenant
themselves (`Query.KeepsTo`):

    looked up    names of the tenant
    resolved     the tenant's names for partners
    committed    relations of the tenant, under identifiers that the call was shown or drew

and nothing is asked on behalf of everybody, such as the relations in a sharing state, or
ledger records by identifier.  In return, what is found belongs to the tenant
(`Turn.Suits`).  `within tenant` are surroundings of this kind; their state lists the
identifiers that the call may speak of, and `Turn.lends` adds to them.

A call is a tenant's (`ServiceCall.IsOf`) if all of its entries are, or if it reads for the
tenant.  All of these keep to the tenant (`ServiceCall.leads_within`), searches apart, which
are one query each.
-/
import PartnerRelations.Proofs.Program.Conversation
import PartnerRelations.Proofs.Service.Reference

namespace PartnerRelations

/-- What a call may ask that keeps to a tenant. -/
def Query.KeepsTo (tenant : TenantBpnl) (own : List RelationId) : Query → Prop
  | .findByKey key => key.tenant = tenant
  | .partnerRecords owner _ => owner = tenant
  | .commit changes => ∀ c ∈ changes, c.relationId ∈ own ∧ ∀ r ∈ c.stored?, r.tenant = tenant
  | .now => True
  | .freshId _ => True
  | .publish _ => True
  | .log _ => True
  | _ => False

/-- What is found belongs to the tenant. -/
def Turn.Suits (tenant : TenantBpnl) : Turn → Prop
  | ⟨.findByKey _, .ok (some r)⟩ => r.tenant = tenant
  | _ => True

/-- The identifiers that a call may speak of after an exchange. -/
def Turn.lends : Turn → List RelationId
  | ⟨.freshId .relation, id⟩ => [⟨id⟩]
  | ⟨.findByKey _, .ok (some r)⟩ => [r.id]
  | _ => []

/-- Surroundings of a call that keeps to a tenant. -/
def within (tenant : TenantBpnl) : Surroundings Query.Answer (List RelationId) where
  meets q wanted own := q.KeepsTo tenant own ∧
    ∀ x, Turn.Suits tenant ⟨q, x⟩ → wanted x (Turn.lends ⟨q, x⟩ ++ own)
  meets_mono hmono h := ⟨h.1, fun x hx => hmono _ _ (h.2 x hx)⟩

/-! ## What belongs to a tenant -/

namespace Relation

variable {r : Relation} {tenant : TenantBpnl} {own : List RelationId} {id : RelationId}

/-- A relation of the tenant, under an identifier that may be spoken of. -/
def BelongsTo (r : Relation) (tenant : TenantBpnl) (own : List RelationId) : Prop :=
  r.tenant = tenant ∧ r.id ∈ own

theorem BelongsTo.cons (h : r.BelongsTo tenant own) : r.BelongsTo tenant (id :: own) :=
  ⟨h.1, List.mem_cons_of_mem _ h.2⟩

/-- Nothing changes whose a relation is. -/
theorem BelongsTo.applyAll {es : List RelationEvent} (h : r.BelongsTo tenant own) :
    (r.applyAll es).BelongsTo tenant own :=
  ⟨(congrArg RelationKey.tenant (key_applyAll r es)).trans h.1, (id_applyAll r es).symm ▸ h.2⟩

end Relation

namespace UnitOfWork

variable {u : UnitOfWork} {tenant : TenantBpnl} {own : List RelationId} {r : Relation}

/-- Everything in the unit belongs to the tenant. -/
def BelongsTo (u : UnitOfWork) (tenant : TenantBpnl) (own : List RelationId) : Prop :=
  ∀ t ∈ u.tracked, t.relation.BelongsTo tenant own

theorem belongsTo_empty : empty.BelongsTo tenant own :=
  fun _ h => absurd h List.not_mem_nil

theorem BelongsTo.attach (hu : u.BelongsTo tenant own) (hr : r.tenant = tenant) :
    (u.attach r).BelongsTo tenant (r.id :: own) :=
  forall_attach (P := fun r' => r'.BelongsTo tenant (r.id :: own)) (fun t ht => (hu t ht).cons)
    ⟨hr, List.mem_cons_self ..⟩

theorem BelongsTo.record {es : List RelationEvent} {envelopes : List RelationEnvelope}
    (hu : u.BelongsTo tenant own) (hr : r.BelongsTo tenant own) :
    (u.record r es envelopes).BelongsTo tenant own :=
  forall_record (P := fun r => r.BelongsTo tenant own) hu hr.applyAll

/-- The changes of a tenant's unit keep to the tenant. -/
theorem BelongsTo.changes (h : u.BelongsTo tenant own) :
    (Query.commit u.changes).KeepsTo tenant own := by
  intro c hc
  obtain ⟨t, ht, hchange⟩ := List.mem_filterMap.1 hc
  refine ⟨Tracked.relationId_of_change? hchange ▸ (h t ht).2, fun r hr => ?_⟩
  exact Tracked.stored?_of_change? hchange r hr ▸ (h t ht).1

end UnitOfWork

/-! ## Calls -/

namespace Within

variable {tenant : TenantBpnl} {own : List RelationId} {u : UnitOfWork}

theorem idle : (within tenant).Idle := by
  intro q hq wanted _ h
  cases q with
  | now => exact ⟨trivial, fun x _ => h x⟩
  | log event => exact ⟨trivial, fun x _ => h x⟩
  | freshId use =>
    cases use with
    | event => exact ⟨trivial, fun x _ => h x⟩
    | _ => simp [Query.isIdle] at hq
  | _ => simp [Query.isIdle] at hq

/-- Entries of a tenant ask for what is the tenant's and remember nothing else. -/
def upkeep (tenant : TenantBpnl) : Upkeep (within tenant) (fun _ _ => True) where
  Held u own := u.BelongsTo tenant own
  Shown r _ own := r.BelongsTo tenant own
  Free key _ _ := key.tenant = tenant
  Drawn key id _ own := key.tenant = tenant ∧ id ∈ own
  Within owner := owner = tenant
  Named _ := True
  Resolved _ _ := True
  idle := idle
  fail _ _ := trivial
  known {u own key t} held hf := by
    obtain ⟨ht, rfl⟩ := UnitOfWork.mem_of_find? hf
    split
    · exact held t ht
    · exact (held t ht).1
  within _ shown := shown.1
  lookup held hkey _ _ := by
    refine ⟨hkey, ?_⟩
    rintro (e | _ | r) hr
    · exact trivial
    · exact ⟨held, hkey⟩
    · exact ⟨held.attach hr, hr, List.mem_cons_self ..⟩
  name held := ⟨trivial, fun _ _ => ⟨held, fun _ hwithin => hwithin⟩⟩
  draw held free :=
    ⟨trivial, fun _ _ => ⟨fun t ht => (held t ht).cons, free, List.mem_cons_self ..⟩⟩
  partners hwithin herror hok := by
    refine ⟨hwithin, ?_⟩
    rintro (e | records) -
    · exact herror e
    · exact hok records fun _ _ => trivial
  create held drawn _ _ _ _ := held.record drawn
  amend held shown _ _ _ _ _ := held.record shown

theorem leads_publish {events : List RelationEnvelope} :
    (Call.publish events).Leads (within tenant) (fun _ _ => True) (fun _ _ => True) own :=
  Call.leads_publish_free idle (fun _ _ h => ⟨trivial, fun x _ => h x⟩) trivial fun _ => trivial

theorem leads_finish (hu : u.BelongsTo tenant own) :
    (Call.finish u).Leads (within tenant) (fun _ _ => True) (fun _ _ => True) own := by
  refine Call.leads_bind.2 (Call.leads_orFail.2 ?_)
  unfold UnitOfWork.commit
  split
  · exact leads_publish
  · refine Program.leads_bind.2 ⟨hu.changes, ?_⟩
    rintro (e | _) -
    · exact trivial
    · exact leads_publish

theorem leads_batch {kind : BatchKind} {requests : List kind.Request}
    (hkind : ∀ request ∈ requests, kind.tenant request = tenant) :
    (Call.batch kind.entry requests).Leads (within tenant) (fun _ _ => True)
      (fun _ _ => True) own := by
  refine (upkeep tenant).leads_batch UnitOfWork.belongsTo_empty hkind (fun _ _ => trivial) ?_
  intro u _ _ held
  exact leads_finish held

theorem leads_delete {externalId : ExternalId} :
    (Service.delete tenant externalId).Leads (within tenant) (fun _ _ => True)
      (fun _ _ => True) own := by
  refine Call.leads_delete idle fun at_ => ⟨rfl, ?_⟩
  rintro (e | _ | r) hr
  · trivial
  · trivial
  · refine ⟨fun _ => trivial, fun es envelopes _ _ => ?_⟩
    have hu : (UnitOfWork.empty.attach r).BelongsTo tenant (r.id :: own) :=
      UnitOfWork.belongsTo_empty.attach hr
    exact leads_finish (hu.record ⟨hr, List.mem_cons_self ..⟩)

end Within

namespace ServiceCall

/-- The call is about the tenant's relations only. -/
def IsOf (tenant : TenantBpnl) : ServiceCall → Prop
  | .write (.batch kind requests) => ∀ request ∈ requests, kind.tenant request = tenant
  | .write (.delete owner _) => owner = tenant
  | .claim _ => False
  | .find owner _ => owner = tenant
  | .findInputs _ owner _ _ => owner = tenant
  | .findOutputs _ owner _ _ => owner = tenant
  | .findSharingStates _ owner _ _ => owner = tenant

/-- The call asks for a page. -/
def isSearch : ServiceCall → Bool
  | .findInputs _ _ _ _ => true
  | .findOutputs _ _ _ _ => true
  | .findSharingStates _ _ _ _ => true
  | _ => false

/-- A tenant's call keeps to the tenant. -/
theorem leads_within {c : ServiceCall} {tenant : TenantBpnl} (hc : c.IsOf tenant)
    (hsearch : c.isSearch = false) :
    c.call.Leads (within tenant) (fun _ _ => True) (fun _ _ => True) [] := by
  cases c with
  | write c =>
    cases c with
    | batch kind requests =>
      exact Call.leads_batchCall Within.idle (fun _ => Within.leads_batch hc) trivial
    | delete owner externalId =>
      obtain rfl : owner = tenant := hc
      exact Within.leads_delete
  | claim limit => exact hc.elim
  | find owner externalId =>
    refine Call.leads_orFail.2 ⟨hc, ?_⟩
    rintro (e | found) - <;> trivial
  | _ => cases hsearch

end ServiceCall

end PartnerRelations
