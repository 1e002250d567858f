/-
# `Proofs.Service.Claim` — what a claim hands out

Among collaborators of any kind, a claim that returns tasks returns one for each commit
that the store accepted, in order, and no other.  Each accepted commit starts the
sharing of one relation that the claim was shown, and its task describes that relation
(`HandedOut`).

What a claim selects, starts and builds tasks of are lists of equal length, entry for
entry (`Started`, `Describes`); it has them all before its first commit (`Prepared`), or
fails without one (`conversation_claim`).  Only `commitEach` leaves entries out, those
whose commit is refused.
-/
import PartnerRelations.Proofs.Concurrent.System
import PartnerRelations.Proofs.Service.Outcome

namespace PartnerRelations

open Query (inquiring idle_inquiring)

/-- The task is that of a relation, with the kind that its input stage has. -/
structure RelationSharingTask.Describes (task : RelationSharingTask) (r : Relation)
    (stage : RelationStage) : Prop where
  input : r.input = some stage
  tenant : task.tenant = r.tenant
  externalId : task.externalId = r.externalId
  relationType : task.relationType = stage.relationType

/-- The changes start the sharing of a relation that was shown; the task is its. -/
def HandedOut (shown : List Relation) (task : RelationSharingTask)
    (changes : List RelationChange) : Prop :=
  ∃ base ∈ shown, ∃ at_ es stage, base.handle (.startSharing at_) = .ok es ∧
    changes = [.update (base.applyAll es) (.exact base.version)] ∧ task.Describes base stage

/-- The envelope carries the start of a relation's sharing. -/
structure RelationEnvelope.Starts (at_ : Instant) (r : Relation) (envelope : RelationEnvelope) :
    Prop where
  payload : envelope.payload = .sharingStarted r.id at_
  tenant : envelope.tenant = r.tenant
  aggregateId : envelope.aggregateId = r.id
  sequenceNumber : envelope.sequenceNumber = r.version + 1

namespace Service

variable {at_ : Instant} {candidate r : Relation} {claim : Claim} {h : List Turn}

/-! ## Before the commits -/

/-- The claim starts the sharing of a candidate. -/
structure Started (at_ : Instant) (candidate : Relation) (claim : Claim) : Prop where
  accepted : ∃ es, candidate.handle (.startSharing at_) = .ok es ∧
    claim.relation = candidate.applyAll es
  changes : claim.unit.changes = [.update claim.relation (.exact candidate.version)]
  events : ∃ envelope, claim.unit.events = [envelope] ∧ envelope.Starts at_ candidate

/-- What a start leaves in a unit of work of its own. -/
theorem started_alone {es : List RelationEvent} {envelopes : List RelationEnvelope}
    (hc : candidate.handle (.startSharing at_) = .ok es)
    (carries : Carries candidate candidate.version es envelopes) : Started at_ candidate
      ⟨candidate.applyAll es, (UnitOfWork.empty.attach candidate).record candidate es envelopes⟩ where
  accepted := ⟨es, hc, rfl⟩
  changes := by
    obtain ⟨hr, -, rfl⟩ := Relation.handleStart_eq_ok.1 hc
    have htracked : ((UnitOfWork.empty.attach candidate).record candidate
        [.sharingStarted candidate.id at_] envelopes).tracked =
        [⟨some candidate.version, candidate.apply (.sharingStarted candidate.id at_), true⟩] := by
      simp [UnitOfWork.track, UnitOfWork.attach, UnitOfWork.find?, UnitOfWork.empty]
    have hlive : (candidate.apply (.sharingStarted candidate.id at_)).deleted = false :=
      (Relation.isCreated_iff.1 hr).2
    rw [UnitOfWork.changes, htracked]
    simp [Tracked.change?, hlive]
  events := by
    obtain ⟨-, -, rfl⟩ := Relation.handleStart_eq_ok.1 hc
    obtain ⟨envelope, rfl, hpayload⟩ := List.map_eq_singleton_iff.1 carries.payloads
    obtain ⟨htenant, haggregate⟩ := carries.origin envelope (List.mem_singleton_self _)
    refine ⟨envelope, ?_, hpayload, htenant, haggregate, by simpa using carries.numbers⟩
    rw [UnitOfWork.events_record, UnitOfWork.events_attach]
    rfl

/-- The claims are those of the candidates, one for one. -/
theorem leads_startEach : ∀ {candidates : List Relation},
    (startEach at_ candidates).Leads inquiring
      (fun claims _ => List.Forall₂ (Started at_) candidates claims) (fun _ _ => True) ()
  | [] => .nil
  | candidate :: rest => by
    refine Call.leads_bind.2 (Call.leads_execute idle_inquiring (fun _ _ => trivial) ?_)
    intro es envelopes hc carries
    refine Call.leads_bind.2 (Call.leads_mono ?_ (fun _ _ he => he) leads_startEach)
    intro claims _ hclaims
    exact .cons (started_alone hc carries) hclaims

theorem exists_of_forall₂ {α β : Type} {R : α → β → Prop} {xs : List α} {ys : List β}
    (h : List.Forall₂ R xs ys) : ∀ y ∈ ys, ∃ x ∈ xs, R x y := by
  induction h with
  | nil => exact fun _ h => absurd h List.not_mem_nil
  | @cons x y xs ys hxy _ ih =>
    refine List.forall_mem_cons.2 ⟨⟨x, List.mem_cons_self .., hxy⟩, fun y' hy' => ?_⟩
    obtain ⟨x', hx', hxy'⟩ := ih y' hy'
    exact ⟨x', List.mem_cons_of_mem _ hx', hxy'⟩

theorem task_eq_ok {records : Ledger} {task : RelationSharingTask}
    (ht : Service.task records r = .ok task) : ∃ stage, task.Describes r stage := by
  unfold Service.task at ht
  cases hinput : r.input with
  | none => simp [hinput] at ht
  | some stage =>
    rw [hinput] at ht
    obtain ⟨source, -, ht⟩ := Relation.bind_eq_ok.1 ht
    obtain ⟨target, -, ht⟩ := Relation.bind_eq_ok.1 ht
    obtain rfl := Relation.pure_eq_ok.1 ht
    exact ⟨stage, hinput, rfl, rfl, rfl⟩

theorem forall₂_of_mapM_eq_ok {ε α β : Type} {f : α → Except ε β} : ∀ {xs : List α} {ys : List β},
    xs.mapM f = .ok ys → List.Forall₂ (fun x y => f x = .ok y) xs ys
  | [], ys, h => by
    rw [List.mapM_nil] at h
    obtain rfl := Relation.pure_eq_ok.1 h
    exact .nil
  | x :: xs, ys, h => by
    rw [List.mapM_cons] at h
    obtain ⟨y, hy, h⟩ := Relation.bind_eq_ok.1 h
    obtain ⟨rest, hrest, h⟩ := Relation.bind_eq_ok.1 h
    obtain rfl := Relation.pure_eq_ok.1 h
    exact .cons hy (forall₂_of_mapM_eq_ok hrest)

theorem leads_tasks {relations : List Relation} : (tasks relations).Leads inquiring
    (fun tasks _ => List.Forall₂ (fun r task => ∃ stage, task.Describes r stage) relations tasks)
    (fun _ _ => True) () := by
  refine Call.leads_bind.2 (Call.leads_orFail.2 ⟨rfl, ?_⟩)
  intro x
  cases x with
  | error e => exact trivial
  | ok records =>
    rw [Program.leads_done]
    dsimp only
    rw [Call.leads_ofExcept]
    cases htasks : relations.mapM (Service.task records) with
    | error e => exact trivial
    | ok tasks => exact (forall₂_of_mapM_eq_ok htasks).imp fun _ _ => task_eq_ok

/-- What a claim has before its first commit: the candidates that the store selected, their
starts, and their tasks. -/
structure Prepared (limit : Nat) (at_ : Instant) (before : List Turn) (candidates : List Relation)
    (claims : List Claim) (tasks : List RelationSharingTask) : Prop where
  inquiries : ∀ t ∈ before, t.request.isInquiry = true
  found : ∃ rest, before = ⟨.now, at_⟩ :: ⟨.findInState .initial limit, .ok candidates⟩ :: rest
  started : List.Forall₂ (Started at_) candidates claims
  described : List.Forall₂ (fun r task => ∃ stage, task.Describes r stage)
    (claims.map Claim.relation) tasks

/-- A claim of nothing says nothing; any other one fails before its first commit, or commits
what it has prepared. -/
theorem conversation_claim {limit : Nat} {outcome : Except RelationError (List RelationSharingTask)}
    (hconv : (Service.claim limit).run.Conversation h outcome) :
    ∃ body, h = body ++ Call.report outcome ∧
      ((body = [] ∧ outcome = .ok []) ∨
      (∃ e, outcome = .error e ∧ ∀ t ∈ body, t.request.isInquiry = true) ∨
      ∃ at_ before after candidates claims tasks, body = before ++ after ∧
        Prepared limit at_ before candidates claims tasks ∧
        (commitEach [] [] (claims.zip tasks)).run.Conversation after outcome) := by
  obtain ⟨body, rfl, hbody⟩ := Call.conversation_reported hconv
  refine ⟨body, rfl, ?_⟩
  split at hbody
  · exact .inl (Call.conversation_pure hbody)
  -- the clock and the candidates
  obtain ⟨at_, rest, rfl, hfind⟩ := Call.conversation_now hbody
  rcases Call.conversation_bind hfind with ⟨e, rfl, hfound⟩ | ⟨candidates, h₁, h₂, rfl, hfound, hstart⟩
  · obtain ⟨found, -, hfound⟩ := Call.conversation_orFail hfound
    rw [Program.conversation_call hfound]
    exact .inr (.inl ⟨e, rfl, by simp [Query.isInquiry]⟩)
  obtain ⟨found, hok, hfound⟩ := Call.conversation_orFail hfound
  rw [Program.conversation_call hfound]
  obtain rfl : found = .ok candidates := by cases found <;> cases hok; rfl
  -- their starts and their tasks, without a commit
  rcases Call.conversation_bind hstart with ⟨e, rfl, hclaims⟩ | ⟨claims, h₃, h₄, rfl, hclaims, htask⟩
  · obtain ⟨-, hinq⟩ := hclaims.of_leads_asking leads_startEach
    exact .inr (.inl ⟨e, rfl, by simpa [Query.isInquiry] using hinq⟩)
  obtain ⟨hstarted, hinq⟩ := hclaims.of_leads_asking leads_startEach
  rcases Call.conversation_bind htask with ⟨e, rfl, htasks⟩ | ⟨tasks, h₅, h₆, rfl, htasks, hcommit⟩
  · obtain ⟨-, hinq'⟩ := htasks.of_leads_asking leads_tasks
    exact .inr (.inl ⟨e, rfl, by
      simpa [Query.isInquiry] using List.forall_mem_append.2 ⟨hinq, hinq'⟩⟩)
  obtain ⟨hdescribed, hinq'⟩ := htasks.of_leads_asking leads_tasks
  exact .inr (.inr ⟨at_, ⟨.now, at_⟩ :: ⟨.findInState .initial limit, .ok candidates⟩ :: (h₃ ++ h₅),
    h₆, candidates, claims, tasks, by simp,
    { inquiries := by simpa [Query.isInquiry] using List.forall_mem_append.2 ⟨hinq, hinq'⟩
      found := ⟨_, rfl⟩
      started := hstarted
      described := hdescribed }, hcommit⟩)

/-! ## The commits -/

/-- Each claim that is left hands its task out if its changes are accepted. -/
theorem granted_commitEach {HandsOut : RelationSharingTask → List RelationChange → Prop} :
    ∀ {claims : List (Claim × RelationSharingTask)} {events : List RelationEnvelope}
      {claimed tasks : List RelationSharingTask} {h : List Turn},
    (∀ c ∈ claims, c.1.unit.changes ≠ [] ∧ HandsOut c.2 c.1.unit.changes) →
    (commitEach events claimed claims).run.Conversation h (.ok tasks) →
    ∃ more, tasks = claimed ++ more ∧ List.Forall₂ HandsOut more (granted h)
  | [], events, claimed, tasks, h, _, hconv => by
    obtain ⟨_, h₁, h₂, rfl, hpub, hdone⟩ := Call.conversation_bind_ok hconv
    obtain ⟨rfl, hout⟩ := Call.conversation_pure hdone
    cases hout
    obtain ⟨⟨hgranted, -⟩, -⟩ := conversation_publish hpub
    rw [List.append_nil, hgranted]
    exact ⟨[], (List.append_nil _).symm, .nil⟩
  | (claim, task) :: rest, events, claimed, tasks, h, hclaims, hconv => by
    obtain ⟨⟨hne, hout⟩, hclaims⟩ := List.forall_mem_cons.1 hclaims
    obtain ⟨x, h₁, h₂, rfl, hcommit, hrest⟩ := Call.conversation_bind_ok hconv
    obtain ⟨x', hx, hcommit⟩ := Call.conversation_lift hcommit
    cases hx
    rcases conversation_commit hcommit with ⟨rfl, hgranted, -⟩ | ⟨e, rfl, hgranted, -⟩
    · obtain ⟨more, rfl, hmore⟩ := granted_commitEach hclaims hrest
      refine ⟨task :: more, by simp, ?_⟩
      rw [granted_append, hgranted, UnitOfWork.commits, if_neg hne]
      exact .cons hout hmore
    · rw [granted_append, hgranted, List.nil_append]
      cases e with
      | concurrency reason =>
        obtain ⟨_, h₃, h₄, rfl, hlog, hrest⟩ := Call.conversation_bind_ok hrest
        rw [granted_append, granted_eq_nil (conversation_log hlog).2, List.nil_append]
        exact granted_commitEach hclaims hrest
      | _ =>
        obtain ⟨_, h₃, h₄, rfl, -, hthrow⟩ := Call.conversation_bind_ok hrest
        cases hthrow

/-! ## The whole call -/

/-- What starts the sharing of a candidate hands its task out. -/
theorem Started.handedOut (hs : Started at_ candidate claim) {shown : List Relation}
    (hmem : candidate ∈ shown) {task : RelationSharingTask} {stage : RelationStage}
    (ht : task.Describes claim.relation stage) : HandedOut shown task claim.unit.changes := by
  obtain ⟨es, hc, hrelation⟩ := hs.accepted
  refine ⟨candidate, hmem, at_, es, stage, hc, hrelation ▸ hs.changes, ?_⟩
  obtain ⟨-, -, rfl⟩ := Relation.handleStart_eq_ok.1 hc
  rw [hrelation] at ht
  exact ⟨ht.input, ht.tenant, ht.externalId, ht.relationType⟩

/-- A claim that returns tasks returns one for each accepted commit, which starts the
sharing of the relation that the task describes. -/
theorem handedOut_of_claim {limit : Nat} {tasks : List RelationSharingTask}
    (hconv : (Service.claim limit).run.Conversation h (.ok tasks)) :
    List.Forall₂ (HandedOut (h.flatMap Turn.shown)) tasks (granted h) := by
  obtain ⟨body, hbody, hclaim⟩ := conversation_claim hconv
  rw [Call.report, List.append_nil] at hbody
  subst hbody
  rcases hclaim with ⟨rfl, hout⟩ | ⟨e, he, -⟩ |
    ⟨at_, before, after, candidates, claims, tasks', rfl, hprepared, hcommit⟩
  · cases hout
    exact .nil
  · cases he
  obtain ⟨-, hdescribed⟩ :=
    List.forall₂_iff_zip.1 (List.forall₂_map_left_iff.1 hprepared.described)
  have hshown : ∀ r ∈ candidates, r ∈ (before ++ after).flatMap Turn.shown := by
    obtain ⟨rest, rfl⟩ := hprepared.found
    intro r hr
    simp [Turn.shown, hr]
  have hhands : ∀ c ∈ claims.zip tasks', c.1.unit.changes ≠ [] ∧
      HandedOut ((before ++ after).flatMap Turn.shown) c.2 c.1.unit.changes := by
    rintro ⟨claim, task⟩ hc
    obtain ⟨candidate, hcandidate, hstarted⟩ :=
      exists_of_forall₂ hprepared.started claim (List.of_mem_zip hc).1
    obtain ⟨stage, hstage⟩ := hdescribed hc
    exact ⟨by rw [hstarted.changes]; exact List.cons_ne_nil _ _,
      hstarted.handedOut (hshown candidate hcandidate) hstage⟩
  obtain ⟨more, rfl, hmore⟩ := granted_commitEach hhands hcommit
  rw [granted_append, granted_eq_nil hprepared.inquiries]
  exact hmore

end Service

end PartnerRelations
