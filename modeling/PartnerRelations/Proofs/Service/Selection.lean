/-
# `Proofs.Service.Selection` — a claim and its commits, one for one

A claim selects candidates, builds their tasks, and then commits them one by one.  The
store may answer each commit as it likes, the bus takes everything (`Reliable`).
However that goes, the answers of the store line up with the first candidates:

    tried h                   the commits that were asked for, with their answers, are
                              those of the candidates in order, up to the last answer
    accepted candidates xs    the candidates whose commit was accepted, by the answers

What is published announces these and no others, in their order.  So do the tasks of a
claim that returns tasks; every other candidate was refused for being too late.  A claim
that fails asked for no commit at all, or fails as the store did at the last one, where
it stopped (`Ended`).
-/
import PartnerRelations.Proofs.Relation.Effect
import PartnerRelations.Proofs.Service.Skip

namespace PartnerRelations

/-! ## Commits and their answers -/

/-- A commit and its answer. -/
def Turn.tried? : Turn → Option (List RelationChange × Except StoreError Unit)
  | ⟨.commit changes, x⟩ => some (changes, x)
  | _ => none

/-- The commits that a store was asked for, with its answers. -/
def tried (h : List Turn) : List (List RelationChange × Except StoreError Unit) :=
  h.filterMap Turn.tried?

theorem tried_append (h h' : List Turn) : tried (h ++ h') = tried h ++ tried h' :=
  List.filterMap_append

/-- Where no commit was accepted and none refused, there was none. -/
theorem tried_eq_nil {h : List Turn} (hgranted : granted h = []) (hrefused : refused h = []) :
    tried h = [] := by
  refine List.filterMap_eq_nil_iff.2 fun t ht => ?_
  have hg := List.filterMap_eq_nil_iff.1 hgranted t ht
  have hr := List.filterMap_eq_nil_iff.1 hrefused t ht
  obtain ⟨q, x⟩ := t
  cases q with
  | commit changes =>
    rcases x with e | u
    · cases hr
    · cases hg
  | _ => rfl

/-- The bus did not take an envelope. -/
def Turn.isLoss : Turn → Bool
  | ⟨.publish _, .error _⟩ => true
  | _ => false

/-- The bus took everything. -/
def Reliable (h : List Turn) : Prop := ∀ t ∈ h, t.isLoss = false

theorem reliable_append {h h' : List Turn} : Reliable (h ++ h') ↔ Reliable h ∧ Reliable h' :=
  List.forall_mem_append

theorem reliable_cons {t : Turn} {h : List Turn} :
    Reliable (t :: h) ↔ t.isLoss = false ∧ Reliable h := List.forall_mem_cons

theorem conversation_publishEach_reliable {envelopes : List RelationEnvelope} {d : List Turn}
    {outcome : Except RelationError Unit} (hbus : Reliable d)
    (hconv : (Call.publishEach envelopes).run.Conversation d outcome) : outcome = .ok () := by
  induction envelopes generalizing d with
  | nil => exact (Call.conversation_pure hconv).2
  | cons envelope rest ih =>
    rcases Call.conversation_bind hconv with ⟨e, rfl, hone⟩ | ⟨_, d₁, d₂, rfl, -, hrest⟩
    · obtain ⟨x, hx, hcall⟩ := Call.conversation_orFail hone
      obtain rfl := Program.conversation_call hcall
      cases x with
      | ok u => cases hx
      | error reason => cases hbus _ (List.mem_singleton_self _)
    · exact ih (reliable_append.1 hbus).2 hrest

/-- A bus that takes everything is given everything. -/
theorem conversation_publish_reliable {envelopes : List RelationEnvelope} {d : List Turn}
    {outcome : Except RelationError Unit} (hbus : Reliable d)
    (hconv : (Call.publish envelopes).run.Conversation d outcome) :
    outcome = .ok () ∧ tried d = [] ∧ published d = envelopes := by
  obtain ⟨⟨hgranted, hrefused⟩, hdelivered⟩ := conversation_publish hconv
  suffices hout : outcome = .ok () by
    rw [hout] at hdelivered
    exact ⟨hout, tried_eq_nil hgranted hrefused, hdelivered⟩
  unfold Call.publish at hconv
  split at hconv
  · exact (Call.conversation_pure hconv).2
  · rcases Call.conversation_bind hconv with ⟨e, -, hlogs⟩ | ⟨_, d₁, d₂, rfl, -, hrest⟩
    · cases (conversation_logs hlogs).1
    · obtain ⟨-, hbus⟩ := reliable_append.1 hbus
      rcases Call.conversation_bind hrest with ⟨e, -, heach⟩ | ⟨_, d₃, d₄, rfl, -, hlast⟩
      · cases conversation_publishEach_reliable hbus heach
      · exact (conversation_log hlast).1

/-- The entries whose answer was an acceptance. -/
def accepted {α : Type} : List α → List (Except StoreError Unit) → List α
  | a :: as, .ok () :: answers => a :: accepted as answers
  | _ :: as, .error _ :: answers => accepted as answers
  | _, _ => []

theorem accepted_nil {α : Type} (as : List α) : accepted as [] = [] := by
  cases as <;> rfl

theorem forall₂_accepted {α β : Type} {R : α → β → Prop} {as : List α} {bs : List β}
    (h : List.Forall₂ R as bs) (answers : List (Except StoreError Unit)) :
    List.Forall₂ R (accepted as answers) (accepted bs answers) := by
  induction h generalizing answers with
  | nil => cases answers <;> exact .nil
  | cons hab _ ih =>
    rcases answers with _ | ⟨e | u, answers⟩
    · exact .nil
    · exact ih answers
    · exact .cons hab (ih answers)

/-- The store accepted, or said that it was too late. -/
def passes : Except StoreError Unit → Bool
  | .ok () => true
  | .error (.concurrency _) => true
  | .error _ => false

/-- How commits one by one end: each of `n` was answered and none of the answers stops a
claim; or the last answer stopped it, no other one did, and it fails as the store did. -/
inductive Ended (n : Nat) (answers : List (Except StoreError Unit))
    (handsOut : List RelationSharingTask → Prop) :
    Except RelationError (List RelationSharingTask) → Prop where
  | all {tasks : List RelationSharingTask} : answers.length = n →
      (∀ x ∈ answers, passes x = true) → handsOut tasks → Ended n answers handsOut (.ok tasks)
  | stopped {before : List (Except StoreError Unit)} {error : StoreError} :
      answers = before ++ [.error error] → (∀ x ∈ before, passes x = true) →
      passes (.error error) = false → Ended n answers handsOut (.error (.ofStore error))

section Ended

variable {n : Nat} {answers : List (Except StoreError Unit)}
  {handsOut handsOut' : List RelationSharingTask → Prop}
  {outcome : Except RelationError (List RelationSharingTask)}

theorem Ended.cons {x : Except StoreError Unit} (h : Ended n answers handsOut outcome)
    (hx : passes x = true) : Ended (n + 1) (x :: answers) handsOut outcome := by
  cases h with
  | all hlength hpass hout =>
    exact .all (congrArg (· + 1) hlength) (List.forall_mem_cons.2 ⟨hx, hpass⟩) hout
  | @stopped before error hanswers hpass hstop =>
    exact .stopped (congrArg (x :: ·) hanswers : _ = (x :: before) ++ _)
      (List.forall_mem_cons.2 ⟨hx, hpass⟩) hstop

theorem Ended.mono (h : Ended n answers handsOut outcome)
    (himp : ∀ tasks, handsOut tasks → handsOut' tasks) : Ended n answers handsOut' outcome := by
  cases h with
  | all hlength hpass hout => exact .all hlength hpass (himp _ hout)
  | stopped hanswers hpass hstop => exact .stopped hanswers hpass hstop

end Ended

namespace Service

/-- The commits of claims, one by one: the answers line up with the first claims, the
events of the accepted ones are published after those before, and so for the tasks. -/
theorem conversation_commitEach : ∀ {claims : List (Claim × RelationSharingTask)}
    {events : List RelationEnvelope} {claimed : List RelationSharingTask} {h : List Turn}
    {outcome : Except RelationError (List RelationSharingTask)},
    (∀ c ∈ claims, c.1.unit.changes ≠ []) → Reliable h →
    (commitEach events claimed claims).run.Conversation h outcome →
    ∃ answers, answers.length ≤ claims.length ∧
      tried h = (claims.map (·.1.unit.changes)).zip answers ∧
      published h = events ++ (accepted claims answers).flatMap (·.1.unit.events) ∧
      Ended claims.length answers
        (fun tasks => tasks = claimed ++ (accepted claims answers).map Prod.snd) outcome
  | [], events, claimed, h, outcome, _, hbus, hconv => by
    rcases Call.conversation_bind hconv with ⟨e, rfl, hpub⟩ | ⟨_, h₁, h₂, rfl, hpub, hdone⟩
    · cases (conversation_publish_reliable hbus hpub).1
    · obtain ⟨rfl, rfl⟩ := Call.conversation_pure hdone
      rw [List.append_nil] at hbus ⊢
      obtain ⟨-, htried, hpublished⟩ := conversation_publish_reliable hbus hpub
      exact ⟨[], Nat.le_refl _, htried, by simpa [accepted] using hpublished,
        .all rfl (by simp) (by simp [accepted])⟩
  | (claim, task) :: rest, events, claimed, h, outcome, hne, hbus, hconv => by
    obtain ⟨hclaim, hrest⟩ := List.forall_mem_cons.1 hne
    obtain ⟨k, hrun, hok, hlost, hrefused⟩ := exists_run_commitEach task rest events claimed hclaim
    rw [hrun] at hconv
    cases hconv with
    | @ask _ _ x h _ hconv =>
      replace hbus := (reliable_cons.1 hbus).2
      have htried : ∀ answers, tried h = (rest.map (·.1.unit.changes)).zip answers →
          tried (⟨.commit claim.unit.changes, x⟩ :: h) =
            (((claim, task) :: rest).map (·.1.unit.changes)).zip (x :: answers) :=
        fun _ h => congrArg (_ :: ·) h
      rcases x with e | u
      · cases hpass : passes (.error e) with
        | true =>
          obtain ⟨reason, rfl⟩ : ∃ reason, e = .concurrency reason := by
            cases e <;> first | exact ⟨_, rfl⟩ | cases hpass
          rw [hlost] at hconv
          cases hconv with
          | ask hconv =>
            replace hbus := (reliable_cons.1 hbus).2
            obtain ⟨answers, hlength, hasked, hpublished, hended⟩ :=
              conversation_commitEach hrest hbus hconv
            exact ⟨_ :: answers, Nat.succ_le_succ hlength, htried answers hasked, hpublished,
              hended.cons rfl⟩
        | false =>
          rw [hrefused e fun reason he => by rw [he] at hpass; cases hpass] at hconv
          rcases Call.conversation_bind hconv with ⟨_, -, hpub⟩ | ⟨_, h₁, h₂, rfl, hpub, hthrow⟩
          · cases (conversation_publish_reliable hbus hpub).1
          · cases hthrow
            rw [List.append_nil] at hbus htried ⊢
            obtain ⟨-, hasked, hpublished⟩ := conversation_publish_reliable hbus hpub
            refine ⟨[.error e], by simp, htried [] (by rw [hasked, List.zip_nil_right]), ?_,
              .stopped (List.nil_append _).symm (by simp) hpass⟩
            show published h₁ = events ++ (accepted rest []).flatMap _
            rw [hpublished, accepted_nil, List.flatMap_nil, List.append_nil]
      · rw [hok] at hconv
        obtain ⟨answers, hlength, hasked, hpublished, hended⟩ :=
          conversation_commitEach hrest hbus hconv
        refine ⟨.ok () :: answers, Nat.succ_le_succ hlength, htried answers hasked, ?_,
          Ended.cons (hended.mono fun tasks htasks => ?_) rfl⟩
        · show published h = _
          rw [hpublished, List.append_assoc]
          rfl
        · rw [htasks, List.append_assoc]
          rfl

/-! ## The whole call -/

end Service

/-- The candidates that an exchange selects. -/
def Turn.selected? : Turn → Option (List Relation)
  | ⟨.findInState _ _, .ok candidates⟩ => some candidates
  | _ => none

/-- The candidates of a claim, as the store selected them. -/
def selected (h : List Turn) : List Relation := (h.findSome? Turn.selected?).getD []

/-- A candidate after its sharing started. -/
def Relation.startedAt (r : Relation) (at_ : Instant) : Relation :=
  r.apply (.sharingStarted r.id at_)

/-- What a claim did when it returns, given the answers to its commits. -/
structure Claimed (at_ : Instant) (answers : List (Except StoreError Unit)) (h : List Turn)
    (outcome : Except RelationError (List RelationSharingTask)) : Prop where
  fits : answers.length ≤ (selected h).length
  pending : answers ≠ [] → ∀ r ∈ selected h, r.Effect (.startSharing at_) (r.startedAt at_)
  tried : tried h = ((selected h).map fun r =>
    [RelationChange.update (r.startedAt at_) (.exact r.version)]).zip answers
  published : List.Forall₂ (RelationEnvelope.Starts at_) (accepted (selected h) answers)
    (published h)
  ended : (answers = [] ∧ ∃ e, outcome = .error e) ∨
    Ended (selected h).length answers (fun tasks => List.Forall₂
      (fun r task => ∃ stage, task.Describes r stage) (accepted (selected h) answers) tasks) outcome

theorem selected_append (before after : List Turn)
    (hafter : ∀ t ∈ after, t.selected? = none) : selected (before ++ after) = selected before := by
  rw [selected, List.findSome?_append, List.findSome?_eq_none_iff.2 hafter, Option.or_none]
  rfl

/-- The report of a failure makes no difference. -/
theorem Claimed.reported {at_ : Instant} {h : List Turn}
    {outcome : Except RelationError (List RelationSharingTask)}
    {answers : List (Except StoreError Unit)} (hc : Claimed at_ answers h outcome) :
    Claimed at_ answers (h ++ Call.report outcome) outcome := by
  have hnone : (∀ t ∈ Call.report outcome, t.selected? = none) ∧
      PartnerRelations.tried (Call.report outcome) = [] ∧
      PartnerRelations.published (Call.report outcome) = [] := by
    cases outcome <;> simp [Call.report, Turn.selected?, PartnerRelations.tried, Turn.tried?,
      PartnerRelations.published, Turn.published?]
  have hselected : selected (h ++ Call.report outcome) = selected h := selected_append _ _ hnone.1
  have htried : PartnerRelations.tried (h ++ Call.report outcome) = PartnerRelations.tried h := by
    rw [tried_append, hnone.2.1, List.append_nil]
  have hpublished : PartnerRelations.published (h ++ Call.report outcome) =
      PartnerRelations.published h := by
    rw [published_append, hnone.2.2, List.append_nil]
  constructor
  · rw [hselected]; exact hc.fits
  · rw [hselected]; exact hc.pending
  · rw [hselected, htried]; exact hc.tried
  · rw [hselected, hpublished]; exact hc.published
  · rw [hselected]; exact hc.ended

namespace Service

variable {at_ : Instant} {h : List Turn}
  {outcome : Except RelationError (List RelationSharingTask)}

theorem tried_of_inquiries (inquiries : ∀ t ∈ h, t.request.isInquiry = true) : tried h = [] :=
  tried_eq_nil (granted_eq_nil inquiries) (refused_eq_nil inquiries)

/-- A claim that fails before its first commit. -/
theorem claimed_of_inquiries {e : RelationError}
    (inquiries : ∀ t ∈ h, t.request.isInquiry = true) : Claimed at_ [] h (.error e) where
  fits := Nat.zero_le _
  pending h := absurd rfl h
  tried := by rw [tried_of_inquiries inquiries, List.zip_nil_right]
  published := by rw [accepted_nil, published_eq_nil inquiries]; exact .nil
  ended := .inl ⟨rfl, e, rfl⟩

theorem Started.relation_eq {candidate : Relation} {claim : Claim}
    (hs : Started at_ candidate claim) : claim.relation = candidate.startedAt at_ := by
  obtain ⟨es, hc, hrelation⟩ := hs.accepted
  obtain ⟨-, -, rfl⟩ := Relation.handleStart_eq_ok.1 hc
  exact hrelation

theorem Started.effect {candidate : Relation} {claim : Claim} (hs : Started at_ candidate claim) :
    candidate.Effect (.startSharing at_) (candidate.startedAt at_) := by
  obtain ⟨es, hc, hrelation⟩ := hs.accepted
  rw [← hs.relation_eq, hrelation]
  exact Relation.effect_of_handle hc

section Lists

variable {α β γ : Type} {R : α → β → Prop} {as : List α} {bs : List β}

theorem forall₂_zip {S : β → γ → Prop} {cs : List γ} (h : List.Forall₂ R as bs)
    (h' : List.Forall₂ S bs cs) :
    List.Forall₂ (fun a p => R a p.1 ∧ S p.1 p.2) as (bs.zip cs) := by
  induction h generalizing cs with
  | nil => exact .nil
  | cons hab _ ih =>
    cases h' with
    | cons hbc hrest => exact .cons ⟨hab, hbc⟩ (ih hrest)

theorem map_eq_of_forall₂ {f : α → γ} {g : β → γ} (h : List.Forall₂ R as bs)
    (hfg : ∀ a b, R a b → f a = g b) : as.map f = bs.map g := by
  induction h with
  | nil => rfl
  | cons hab _ ih => rw [List.map_cons, List.map_cons, hfg _ _ hab, ih]

theorem forall₂_flatMap {S : α → γ → Prop} {f : β → List γ} (h : List.Forall₂ R as bs)
    (hf : ∀ a b, R a b → ∃ c, f b = [c] ∧ S a c) : List.Forall₂ S as (bs.flatMap f) := by
  induction h with
  | nil => exact .nil
  | cons hab _ ih =>
    obtain ⟨c, hc, hac⟩ := hf _ _ hab
    rw [List.flatMap_cons, hc]
    exact .cons hac ih

end Lists

/-- What a claim has prepared is committed one by one. -/
theorem Prepared.claimed {limit : Nat} {before after : List Turn} {candidates : List Relation}
    {claims : List Claim} {tasks : List RelationSharingTask}
    (hp : Prepared limit at_ before candidates claims tasks) (hbus : Reliable after)
    (hconv : (commitEach [] [] (claims.zip tasks)).run.Conversation after outcome) :
    ∃ answers, Claimed at_ answers (before ++ after) outcome := by
  obtain rfl : selected (before ++ after) = candidates := by
    obtain ⟨rest, rfl⟩ := hp.found
    rfl
  have hpairs := forall₂_zip hp.started (List.forall₂_map_left_iff.1 hp.described)
  have hlength := hpairs.length_eq
  have hne : ∀ p ∈ claims.zip tasks, p.1.unit.changes ≠ [] := by
    intro p hp
    obtain ⟨r, -, hr, -⟩ := exists_of_forall₂ hpairs p hp
    rw [hr.changes]
    exact List.cons_ne_nil _ _
  obtain ⟨answers, hfits, htried, hpublished, hended⟩ := conversation_commitEach hne hbus hconv
  have haccepted := forall₂_accepted hpairs answers
  refine ⟨answers, hlength ▸ hfits, fun _ r hr => ?_, ?_, ?_, .inr ?_⟩
  · obtain ⟨claim, -, hclaim⟩ := exists_of_forall₂ hp.started.flip r hr
    exact hclaim.effect
  · rw [tried_append, tried_of_inquiries hp.inquiries, List.nil_append, htried]
    refine congrArg (List.zip · answers) (map_eq_of_forall₂ hpairs fun r p hrp => ?_).symm
    rw [hrp.1.changes, hrp.1.relation_eq]
  · rw [published_append, published_eq_nil hp.inquiries, List.nil_append, hpublished,
      List.nil_append]
    exact forall₂_flatMap haccepted fun r p hrp => hrp.1.events
  · rw [hlength]
    refine hended.mono fun tasks' htasks => ?_
    rw [htasks, List.nil_append]
    refine List.forall₂_map_right_iff.2 (haccepted.imp fun r p hrp => ?_)
    obtain ⟨hr, stage, hstage⟩ := hrp
    rw [hr.relation_eq] at hstage
    exact ⟨stage, hstage.input, hstage.tenant, hstage.externalId, hstage.relationType⟩

/-- A claim that returns, whatever the store answered to its commits: the events that it
published are those of the candidates that it moved, in order; so are its tasks, if it
returns any; and it failed before the first commit, or at the last one. -/
theorem claim_accounts_for_commits {limit : Nat} (hbus : Reliable h)
    (hconv : (Service.claim limit).run.Conversation h outcome) :
    ∃ at_ answers, Claimed at_ answers h outcome := by
  obtain ⟨body, rfl, hclaim⟩ := conversation_claim hconv
  have hbody : ∃ at_ answers, Claimed at_ answers body outcome := by
    rcases hclaim with ⟨rfl, rfl⟩ | ⟨e, rfl, hinq⟩ |
      ⟨at_, before, after, candidates, claims, tasks, rfl, hprepared, hcommit⟩
    · exact ⟨.epoch, [], Nat.le_refl _, fun h => absurd rfl h, rfl, .nil,
        .inr (.all rfl (by simp) .nil)⟩
    · exact ⟨.epoch, [], claimed_of_inquiries hinq⟩
    · exact ⟨at_, hprepared.claimed (reliable_append.1 (reliable_append.1 hbus).1).2 hcommit⟩
  obtain ⟨at_, answers, hclaimed⟩ := hbody
  exact ⟨at_, answers, hclaimed.reported⟩

private abbrev choosyTenant : TenantBpnl := ⟨"T14", by cbv, by decide⟩
private abbrev choosyName (n : Nat) : ExternalId := .ofUuid .externalId (.ofNat n)

/-- A relation that waits to be shared. -/
private def waiting (n : Nat) : Relation :=
  .restore { id := ⟨.ofNat n⟩, tenant := choosyTenant, externalId := choosyName n
             input := some ⟨⟨.ofNat n⟩, .input, .isManagedBy, ⟨.ofNat 1⟩, ⟨.ofNat 2⟩, .epoch, .epoch⟩
             sharingState := some (.initial .isManagedBy .epoch), output := none
             createdAt := .epoch, updatedAt := .epoch, version := 1 }

/-- A store that has five relations to claim; it accepts the first commit and the third,
finds the second too late, and then breaks down.  The state counts commits. -/
def choosy : Nat → (q : Query) → q.Answer × Nat
  | n, .now => (.epoch, n)
  | n, .freshId _ => (.ofNat 7, n)
  | n, .findByKey _ => (.ok none, n)
  | n, .findInState _ _ => (.ok ((List.range 5).map waiting), n)
  | n, .commit _ =>
    (if n = 0 ∨ n = 2 then .ok () else
      .error (if n = 1 then .concurrency "late" else .backend "down"), n + 1)
  | n, .searchInput _ _ _ => (.error (.backend "down"), n)
  | n, .searchOutput _ _ _ => (.error (.backend "down"), n)
  | n, .searchSharingStates _ _ _ => (.error (.backend "down"), n)
  | n, .partnerRecords _ _ => (.ok [], n)
  | n, .partnerRecordsByIds ids =>
    (.ok (ids.map fun id => .fresh id choosyTenant (choosyName 9) .epoch), n)
  | n, .publish _ => (.ok (), n)
  | n, .log _ => ((), n)

/-- Two relations are moved and announced, and the last one is not touched. -/
theorem choosy_claim_accounts :
    let (h, outcome, _) := (Service.claim 5).run.converse choosy 0
    ((Service.claim 5).run.Conversation h outcome ∧ Reliable h ∧
      outcome = .error (.store (.backend "down")) ∧ (published h).length = 2 ∧
      (tried h).length = 4) ∧
    ∃ at_ answers, Claimed at_ answers h outcome := by
  have hbus : Reliable ((Service.claim 5).run.converse choosy 0).1 := by
    unfold Reliable
    decide +kernel
  have hconv : (Service.claim 5).run.Conversation ((Service.claim 5).run.converse choosy 0).1
      ((Service.claim 5).run.converse choosy 0).2.1 := Program.conversation_converse 0
  exact ⟨⟨hconv, hbus, by rfl, by rfl, by rfl⟩, claim_accounts_for_commits hbus hconv⟩

end Service

end PartnerRelations
