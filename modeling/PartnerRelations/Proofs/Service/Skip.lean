/-
# `Proofs.Service.Skip` — a claim skips what it loses

A program is onward from another if some answers lead there (`Program.Onward`).  Going
onward goes through binds part by part, so where a claim stands when it asks for a commit
can be read off its definition:

    `Service.skips_of_onward`    the commit is the update of one relation; told that it
                                 came too late, the claim reports that it skips that
                                 relation, and goes on with the claims that are left

Nothing before the commits of a claim asks for one, nor does what comes after them.
-/
import PartnerRelations.Proofs.Service.Claim

namespace PartnerRelations

namespace Program

variable {ρ : Type} {answer : ρ → Type} {α β : Type} {p q : Program answer α}

/-- Some answers lead from the first program to the second. -/
inductive Onward : Program answer α → Program answer α → Prop where
  | refl (p : Program answer α) : Onward p p
  | ask {request : ρ} {next : answer request → Program answer α} {q : Program answer α}
      (x : answer request) : Onward (next x) q → Onward (.ask request next) q

/-- One more answer. -/
theorem Onward.next {request : ρ} {next : answer request → Program answer α}
    (h : p.Onward (.ask request next)) (x : answer request) : p.Onward (next x) := by
  generalize hq : Program.ask request next = q at h
  induction h with
  | refl p =>
    subst hq
    exact .ask x (.refl _)
  | ask y _ ih => exact .ask y (ih hq)

/-- Onward from a bind is inside its first part, or in what follows a value of it. -/
theorem onward_bind {f : α → Program answer β} {q : Program answer β} (h : (p.bind f).Onward q) :
    (∃ p', p.Onward p' ∧ q = p'.bind f) ∨ ∃ a, p.Onward (.done a) ∧ (f a).Onward q := by
  induction p with
  | done a => exact .inr ⟨a, .refl _, h⟩
  | ask request next ih =>
    cases h with
    | refl => exact .inl ⟨_, .refl _, rfl⟩
    | ask x h =>
      rcases ih x h with ⟨p', hp, rfl⟩ | ⟨a, hp, hf⟩
      · exact .inl ⟨p', .ask x hp, rfl⟩
      · exact .inr ⟨a, .ask x hp, hf⟩

/-- What holds wherever the answers lead holds onward. -/
theorem Onward.leads {admits : ρ → Prop} {post : α → Unit → Prop} (h : p.Onward q)
    (hp : p.Leads (asking admits) post ()) : q.Leads (asking admits) post () := by
  induction h with
  | refl => exact hp
  | ask x _ ih => exact ih (hp.2 x)

end Program

open Program (Onward asking)
open Query (inquiring)

/-- Two calls in a row, the first of which asks for no commit. -/
theorem Call.onward_bind_commit {α β : Type} {c : Call α} {f : α → Call β}
    {admits : Query → Prop} {post : α → Unit → Prop} {changes : List RelationChange}
    {next : Except StoreError Unit → Dialogue (Except RelationError β)}
    (hc : c.Leads (asking admits) post (fun _ _ => True) ()) (hno : ∀ cs, ¬admits (.commit cs))
    (h : (c >>= f).run.Onward (.ask (.commit changes) next)) :
    ∃ a, post a () ∧ (f a).run.Onward (.ask (.commit changes) next) := by
  rcases Program.onward_bind h with ⟨p', hp, hq⟩ | ⟨outcome, hp, hf⟩
  · have hleads := hp.leads hc
    cases p' with
    | done outcome =>
      cases outcome with
      | error e => cases hq
      | ok a => exact ⟨a, hleads, hq ▸ .refl _⟩
    | ask q next' =>
      cases hq
      exact absurd hleads.1 (hno changes)
  · have hleads := hp.leads hc
    cases outcome with
    | error e =>
      cases hf
    | ok a => exact ⟨a, hleads, hf⟩

/-- A query for a commit. -/
def Query.isCommit : Query → Bool
  | .commit _ => true
  | _ => false

/-- Publishing asks for no commit. -/
theorem Call.leads_publish_uncommitting (events : List RelationEnvelope) :
    (Call.publish events).Leads (asking fun q => q.isCommit = false) (fun _ _ => True)
      (fun _ _ => True) () := by
  have idle :
      (asking fun q : Query => q.isCommit = false : Surroundings Query.Answer Unit).Idle := by
    intro q hq wanted _ h
    refine ⟨?_, h⟩
    cases q <;> first | rfl | simp [Query.isIdle] at hq
  exact Call.leads_publish_free idle (fun _ _ h => ⟨rfl, h⟩) trivial fun _ => trivial

namespace Service

/-- Told that its commit came too late, a claim says that it skips the relation of that
name, and goes on with the claims that are left. -/
def Skips (next : Except StoreError Unit → Dialogue (Except RelationError (List RelationSharingTask)))
    (externalId : ExternalId) (reason : String) : Prop :=
  ∃ events claimed others, next (.error (.concurrency reason)) =
    .ask (.log (.claimSkipped externalId reason))
      fun _ => (commitEach events claimed others).reported.run

variable {at_ : Instant} {changes : List RelationChange}
  {next : Except StoreError Unit → Dialogue (Except RelationError (List RelationSharingTask))}

/-- The commit of one claim: accepted, too late, or refused for another reason. -/
theorem exists_run_commitEach {claim : Claim} (task : RelationSharingTask)
    (rest : List (Claim × RelationSharingTask)) (events : List RelationEnvelope)
    (claimed : List RelationSharingTask) (hne : claim.unit.changes ≠ []) :
    ∃ k : Except StoreError Unit → Dialogue (Except RelationError (List RelationSharingTask)),
      (commitEach events claimed ((claim, task) :: rest)).run =
        .ask (.commit claim.unit.changes) k ∧
      k (.ok ()) = (commitEach (events ++ claim.unit.events) (claimed ++ [task]) rest).run ∧
      (∀ reason, k (.error (.concurrency reason)) =
        .ask (.log (.claimSkipped claim.relation.externalId reason))
          fun _ => (commitEach events claimed rest).run) ∧
      ∀ e, (∀ reason, e ≠ .concurrency reason) → k (.error e) =
        (Call.publish events >>= fun _ => throw (RelationError.ofStore e)).run := by
  have hcommit : claim.unit.commit = .ask (.commit claim.unit.changes) fun x =>
      .done (x.map fun _ => claim.unit.events) := by
    unfold UnitOfWork.commit
    rw [if_neg (by simpa using hne)]
    refine congrArg (Program.ask _) (funext fun x => ?_)
    cases x <;> rfl
  rw [commitEach, hcommit]
  refine ⟨_, rfl, rfl, fun _ => rfl, fun e he => ?_⟩
  cases e with
  | concurrency reason => exact absurd rfl (he reason)
  | _ => rfl

/-- The commits of claims, one after the other. -/
theorem skips_of_onward_commitEach : ∀ {claims : List (Claim × RelationSharingTask)}
    {events : List RelationEnvelope} {claimed : List RelationSharingTask},
    (∀ c ∈ claims, ∃ candidate, Started at_ candidate c.1) →
    (commitEach events claimed claims).run.Onward (.ask (.commit changes) next) →
    ∃ r expected events claimed others, changes = [.update r expected] ∧ ∀ reason,
      next (.error (.concurrency reason)) = .ask (.log (.claimSkipped r.externalId reason))
        fun _ => (commitEach events claimed others).run
  | [], events, claimed, _, h => by
    obtain ⟨_, -, h⟩ := Call.onward_bind_commit (Call.leads_publish_uncommitting events)
      (fun _ => by simp [Query.isCommit]) h
    cases h
  | (claim, task) :: rest, events, claimed, hstarted, h => by
    obtain ⟨⟨candidate, hclaim⟩, hrest⟩ := List.forall_mem_cons.1 hstarted
    obtain ⟨k, hrun, hok, hlost, hrefused⟩ :=
      exists_run_commitEach task rest events claimed (hclaim.changes ▸ List.cons_ne_nil _ _)
    rw [hrun] at h
    cases h with
    | refl => exact ⟨claim.relation, _, events, claimed, rest, hclaim.changes, hlost⟩
    | ask x h =>
      rcases x with e | u
      · cases e with
        | concurrency reason =>
          rw [hlost] at h
          cases h with
          | ask _ h => exact skips_of_onward_commitEach hrest h
        | _ =>
          rw [hrefused _ (by simp)] at h
          obtain ⟨_, -, h⟩ := Call.onward_bind_commit (Call.leads_publish_uncommitting events)
            (fun _ => by simp [Query.isCommit]) h
          cases h
      · exact skips_of_onward_commitEach hrest (hok ▸ h)

/-- A claim that is about to commit is about to update one relation.  If that comes too
late, it reports so and goes on with the claims that are left. -/
theorem skips_of_onward {limit : Nat}
    (h : (Service.claim limit).run.Onward (.ask (.commit changes) next)) :
    ∃ r expected, changes = [.update r expected] ∧ ∀ reason, Skips next r.externalId reason := by
  -- the report of a failure, which is no commit, comes after everything else
  rcases Program.onward_bind h with ⟨p', hp, hq⟩ | ⟨e | tasks, -, h⟩
  · cases p' with
    | done outcome => rcases outcome with e | tasks <;> cases hq
    | ask q next' =>
      cases hq
      split at hp
      · cases hp
      · have hnow : Call.now.Leads inquiring (fun _ _ => True) (fun _ _ => True) () :=
          Call.leads_now.2 ⟨rfl, fun _ => trivial⟩
        have hfind : (Call.orFail RelationError.ofStore
            (Query.ask (.findInState .initial limit))).Leads inquiring (fun _ _ => True)
              (fun _ _ => True) () := by
          refine Call.leads_orFail.2 ⟨rfl, ?_⟩
          rintro (e | candidates) <;> trivial
        obtain ⟨at_, -, hp⟩ := Call.onward_bind_commit hnow (fun _ => nofun) hp
        obtain ⟨candidates, -, hp⟩ := Call.onward_bind_commit hfind (fun _ => nofun) hp
        obtain ⟨claims, hclaims, hp⟩ := Call.onward_bind_commit leads_startEach (fun _ => nofun) hp
        obtain ⟨tasks, -, hp⟩ := Call.onward_bind_commit leads_tasks (fun _ => nofun) hp
        obtain ⟨r, expected, events, claimed, others, hchanges, hnext⟩ :=
          skips_of_onward_commitEach (fun c hc =>
            let ⟨candidate, _, hstarted⟩ := exists_of_forall₂ hclaims c.1 (List.of_mem_zip hc).1
            ⟨candidate, hstarted⟩) hp
        exact ⟨r, expected, hchanges, fun reason => ⟨events, claimed, others,
          congrArg (Program.bind · _) (hnext reason)⟩⟩
  · cases h with
    | ask _ h => cases h
  · cases h

end Service

end PartnerRelations
