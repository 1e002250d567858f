/-
# `Proofs.Service.Attempt` — a batch of upserts that starts over

Among honest collaborators a batch of upserts ends in one of two ways:

    it wins       its entries were handled, one after the other, its changes were
                  accepted in one commit, and its events published (`Won`)
    it fails      nothing was accepted and nothing published; if the failure is that a
                  name is taken, then the batch lost a race for it (`Lost`): it looked
                  the name up and found it free, and its commit, which inserts a
                  relation of the name, was refused because the name is taken

A call that may start over is a list of batches that lost, each with the report that it
is tried again, and a last batch (`Attempts`).  Its outcome is that of the last batch.
It has as many lost batches as it may have retries at most, and it fails because a name is
taken only if these are spent.
-/
import PartnerRelations.Proofs.Service.Passage
import PartnerRelations.Proofs.Service.Selection

namespace PartnerRelations

open Program (Conversation)

/-! ## Answers of honest collaborators -/

/-- Only a commit that inserts a relation of a name is refused because the name is taken. -/
theorem Turn.Honest.duplicate {changes : List RelationChange} {tenant : TenantBpnl}
    {name : ExternalId}
    (h : Turn.Honest ⟨.commit changes, .error (.duplicateExternalId tenant name)⟩) :
    ∃ r, .insert r ∈ changes ∧ r.key = ⟨tenant, name⟩ := by
  obtain ⟨supply, w, -, -, hx⟩ := h
  simp only [World.answer] at hx
  split at hx
  · cases hx
  · next hcommit =>
    cases hx
    rcases Tables.commit_eq_error hcommit with ⟨_, he⟩ | ⟨r, hr, he⟩
    · cases he
    · cases he
      exact ⟨r, hr, rfl⟩

/-- An honest bus takes everything. -/
theorem reliable_of_honest {h : List Turn} (hhonest : ∀ t ∈ h, t.Honest) : Reliable h := by
  intro t ht
  obtain ⟨supply, w, -, -, hx⟩ := hhonest t ht
  obtain ⟨q, x⟩ := t
  cases q with
  | publish envelope => cases hx; rfl
  | _ => rfl

/-! ## One batch -/

theorem conversation_commit_error {u : UnitOfWork} {d : List Turn} {e : StoreError}
    (hconv : u.commit.Conversation d (.error e)) : d = [⟨.commit u.changes, .error e⟩] := by
  generalize hx : Except.error e = x at hconv
  unfold UnitOfWork.commit at hconv
  split at hconv
  · cases hconv
    cases hx
  · obtain ⟨d₁, d₂, y, rfl, hask, hrest⟩ := Program.conversation_bind hconv
    rw [Program.conversation_call hask]
    cases y with
    | ok =>
      cases hrest
      cases hx
    | error =>
      cases hrest
      cases hx
      rfl

/-- With a bus that takes everything, the end of a batch is refused by the store, or all
is accepted and published. -/
theorem conversation_finish_reliable {u : UnitOfWork} {d : List Turn}
    {outcome : Except RelationError Unit} (hbus : Reliable d)
    (hconv : (Call.finish u).run.Conversation d outcome) :
    (outcome = .ok () ∧ granted d = u.commits ∧ published d = u.events) ∨
    ∃ e, outcome = .error (.ofStore e) ∧ d = [⟨.commit u.changes, .error e⟩] := by
  rcases Call.conversation_bind hconv with ⟨e, rfl, hcommit⟩ | ⟨events, d₁, d₂, rfl, hcommit, hpub⟩
  · obtain ⟨x, hx, hasked⟩ := Call.conversation_orFail hcommit
    cases x with
    | ok => cases hx
    | error e' =>
      cases hx
      exact .inr ⟨e', rfl, conversation_commit_error hasked⟩
  · obtain ⟨x, hx, hcommit⟩ := Call.conversation_orFail hcommit
    rcases conversation_commit hcommit with ⟨rfl, hg, -, hp⟩ | ⟨e', rfl, -⟩
    · cases hx
      obtain ⟨⟨hg', -⟩, -⟩ := conversation_publish hpub
      obtain ⟨hok, -, hp'⟩ := conversation_publish_reliable (reliable_append.1 hbus).2 hpub
      refine .inl ⟨hok, ?_, ?_⟩
      · rw [granted_append, hg, hg', List.append_nil]
      · rw [published_append, hp, hp', List.nil_append]
    · cases hx

section Batch

variable {tenant : TenantBpnl} {requests : List InputRelationUpsert} {name : ExternalId}
  {h : List Turn} {at_ : Instant} {parts : List Part} {u : UnitOfWork}

/-- A batch that found a name free, and taken when it came to insert a relation. -/
structure Lost (tenant : TenantBpnl) (requests : List InputRelationUpsert) (name : ExternalId)
    (h : List Turn) : Prop where
  spoken : (Call.batch (Service.upsertEntry tenant) requests).run.Conversation h
    (.error (.alreadyExists name))
  raced : ∃ before changes r,
    h = before ++ [⟨.commit changes, .error (.duplicateExternalId tenant name)⟩] ∧
    (∀ t ∈ before, t.request.isInquiry = true) ∧
    ⟨.findByKey ⟨tenant, name⟩, .ok none⟩ ∈ before ∧
    .insert r ∈ changes ∧ r.key = ⟨tenant, name⟩

/-- A batch that came through: its moment, its entries with their parts of the
conversation, and the unit of work that these led to. -/
structure Won (tenant : TenantBpnl) (requests : List InputRelationUpsert) (h : List Turn)
    (at_ : Instant) (parts : List Part) (u : UnitOfWork) : Prop where
  requests : parts.map Prod.fst = requests
  handled : Handled tenant at_ .empty parts u
  spoken : ∃ rest, h = ⟨.now, at_⟩ :: (parts.flatMap Prod.snd ++ rest)
  granted : granted h = u.commits
  published : published h = u.events

theorem Won.passed (hw : Won tenant requests h at_ parts u) (hhonest : ∀ t ∈ h, t.Honest) :
    Passed tenant .empty parts u := by
  obtain ⟨rest, rfl⟩ := hw.spoken
  obtain ⟨-, hhonest⟩ := List.forall_mem_cons.1 hhonest
  exact hw.handled.passed UnitOfWork.kept_empty (List.forall_mem_append.1 hhonest).1

theorem Lost.granted_eq_nil (hl : Lost tenant requests name h) : granted h = [] := by
  obtain ⟨before, changes, r, rfl, hinq, -⟩ := hl.raced
  rw [granted_append, PartnerRelations.granted_eq_nil hinq]
  rfl

theorem Lost.published_eq_nil (hl : Lost tenant requests name h) : published h = [] := by
  obtain ⟨before, changes, r, rfl, hinq, -⟩ := hl.raced
  rw [published_append, PartnerRelations.published_eq_nil hinq]
  rfl

/-- A relation that is inserted is new, and its name was looked up and found free. -/
theorem Passed.inserts (hp : Passed tenant .empty parts u) {r : Relation}
    (hr : .insert r ∈ u.changes) : ∃ part ∈ parts, r.key = ⟨tenant, part.1.externalId⟩ ∧
      ⟨.findByKey r.key, .ok none⟩ ∈ parts.flatMap Prod.snd := by
  obtain ⟨⟨persisted, r', dirty⟩, ht, hchange⟩ := List.mem_filterMap.1 hr
  obtain ⟨rfl, rfl⟩ : persisted = none ∧ r' = r := by
    cases persisted with
    | none =>
      obtain ⟨-, -, hinsert⟩ := Tracked.change?_new_eq_some.1 hchange
      cases hinsert
      exact ⟨rfl, rfl⟩
    | some v =>
      obtain ⟨-, hinsert⟩ := Tracked.change?_persisted_eq_some.1 hchange
      split at hinsert <;> cases hinsert
  have hturn := (hp.fresh _ ht rfl).resolve_left (by simp [UnitOfWork.empty])
  have hlast := (hp.last _ ht).resolve_right (by simp [UnitOfWork.empty])
  obtain ⟨part, ⟨before, later, rfl, -⟩, hasserts⟩ := hlast
  exact ⟨part, by simp, hasserts.key, hturn⟩

/-- A batch whose commit is refused because a name is taken had found the name free. -/
theorem Passed.lost {handled : List Turn} {error : StoreError}
    (hp : Passed tenant .empty parts u) (hhandled : parts.flatMap Prod.snd = handled)
    (hinq : ∀ t ∈ ⟨.now, at_⟩ :: handled, t.request.isInquiry = true)
    (hhonest : Turn.Honest ⟨.commit u.changes, .error error⟩)
    (hconv : (Call.batch (Service.upsertEntry tenant) requests).run.Conversation
      (⟨.now, at_⟩ :: (handled ++ [⟨.commit u.changes, .error error⟩])) (.error (.ofStore error)))
    (htaken : RelationError.ofStore error = .alreadyExists name) :
    Lost tenant requests name
      (⟨.now, at_⟩ :: (handled ++ [⟨.commit u.changes, .error error⟩])) := by
  refine ⟨htaken ▸ hconv, ?_⟩
  obtain ⟨tenant', rfl⟩ : ∃ tenant', error = .duplicateExternalId tenant' name := by
    cases error <;> cases htaken
    exact ⟨_, rfl⟩
  obtain ⟨r, hr, hkey⟩ := hhonest.duplicate
  obtain ⟨part, -, hpart, hturn⟩ := hp.inserts hr
  obtain rfl : tenant' = tenant := congrArg RelationKey.tenant (hkey.symm.trans hpart)
  rw [hhandled, hkey] at hturn
  exact ⟨_, _, r, rfl, hinq, List.mem_cons_of_mem _ hturn, hr, hkey⟩

/-- A batch of upserts wins, or fails and leaves nothing; it fails on a name that is taken
only if it lost a race for it. -/
theorem conversation_upsertBatch {outcome : Except RelationError (List Relation)}
    (hhonest : ∀ t ∈ h, t.Honest)
    (hconv : (Call.batch (Service.upsertEntry tenant) requests).run.Conversation h outcome) :
    (∃ relations at_ parts u, outcome = .ok relations ∧ Won tenant requests h at_ parts u) ∨
    ∃ e, outcome = .error e ∧ granted h = [] ∧ published h = [] ∧
      ∀ name, e = .alreadyExists name → Lost tenant requests name h := by
  let c : WriteCall := .batch (.upsert .standard tenant) requests
  obtain ⟨at_, rest, rfl, hrest⟩ := WriteCall.conversation_attempt (c := c) hconv
  obtain ⟨-, hhonest⟩ := List.forall_mem_cons.1 hhonest
  have inquiries : ∀ {handled outcome}, (c.handling at_).run.Conversation handled outcome →
      ∀ t ∈ ⟨.now, at_⟩ :: handled, t.request.isInquiry = true := fun hh =>
    List.forall_mem_cons.2 ⟨rfl, (conversation_handling hh).2⟩
  rcases hrest with ⟨e, rfl, hh⟩ | ⟨relations, u, handled, d, ended, rfl, hh, hfinish, rfl⟩
  · -- an entry fails, on no name that is taken
    have htaken : e.isTaken = false :=
      conversation_handleEach_upsert UnitOfWork.kept_empty hhonest hh
    refine .inr ⟨e, rfl, granted_eq_nil (inquiries hh), published_eq_nil (inquiries hh), ?_⟩
    rintro name rfl
    cases htaken
  -- all entries were handled
  have hgranted : granted (⟨.now, at_⟩ :: (handled ++ d)) = granted d := by
    rw [← List.cons_append, granted_append, granted_eq_nil (inquiries hh), List.nil_append]
  have hpublished : published (⟨.now, at_⟩ :: (handled ++ d)) = published d := by
    rw [← List.cons_append, published_append, published_eq_nil (inquiries hh), List.nil_append]
  obtain ⟨hhonest₁, hhonest₂⟩ := List.forall_mem_append.1 hhonest
  obtain ⟨parts, hrequests, hparts, hhandled⟩ :=
    conversation_handleEach_upsert UnitOfWork.kept_empty hhonest₁ hh
  rcases conversation_finish_reliable (reliable_of_honest hhonest₂) hfinish with
    ⟨rfl, hg, hp⟩ | ⟨error, rfl, rfl⟩
  · exact .inl ⟨relations, at_, parts, u, rfl, hrequests, hhandled, ⟨d, hparts ▸ rfl⟩,
      hgranted.trans hg, hpublished.trans hp⟩
  · have hpassed := hhandled.passed UnitOfWork.kept_empty (hparts ▸ hhonest₁)
    exact .inr ⟨_, rfl, hgranted, hpublished, fun name => hpassed.lost hparts.symm (inquiries hh)
      (hhonest₂ _ (List.mem_singleton_self _)) hconv⟩

end Batch

/-! ## Starting over -/

/-- A batch that lost, with the report that it is tried again. -/
def retried (lost : (ExternalId × List Turn) × Nat) : List Turn :=
  lost.1.2 ++ [⟨.log (.upsertRetried lost.1.1 (lost.2 + 1)), ()⟩]

/-- The batches that a call tried: those that lost, each with the name, and the last one.
The reports are numbered on from `attempt`. -/
structure Attempts (tenant : TenantBpnl) (requests : List InputRelationUpsert)
    (retries attempt : Nat) (h : List Turn) (outcome : Except RelationError (List Relation))
    (lost : List (ExternalId × List Turn)) (last : List Turn) : Prop where
  few : lost.length ≤ retries
  losses : ∀ l ∈ lost, Lost tenant requests l.1 l.2
  spoken : h = (lost.zipIdx attempt).flatMap retried ++ last
  ended : (Call.batch (Service.upsertEntry tenant) requests).run.Conversation last outcome
  /-- A name is found taken at last only if no retries are left. -/
  spent : ∀ name, outcome = .error (.alreadyExists name) → lost.length = retries

section Attempts

variable {tenant : TenantBpnl} {requests : List InputRelationUpsert} {retries attempt : Nat}
  {h last : List Turn} {outcome : Except RelationError (List Relation)}
  {lost : List (ExternalId × List Turn)}

/-- Batches that lost settle nothing. -/
theorem granted_retried (hlost : ∀ l ∈ lost, Lost tenant requests l.1 l.2) :
    granted ((lost.zipIdx attempt).flatMap retried) = [] := by
  rw [granted, List.filterMap_flatMap]
  refine List.flatMap_eq_nil_iff.2 fun l hl => ?_
  have hnone := (hlost l.1 (List.fst_mem_of_mem_zipIdx hl)).granted_eq_nil
  exact (granted_append ..).trans (by rw [hnone]; rfl)

theorem published_retried (hlost : ∀ l ∈ lost, Lost tenant requests l.1 l.2) :
    published ((lost.zipIdx attempt).flatMap retried) = [] := by
  rw [published, List.filterMap_flatMap]
  refine List.flatMap_eq_nil_iff.2 fun l hl => ?_
  have hnone := (hlost l.1 (List.fst_mem_of_mem_zipIdx hl)).published_eq_nil
  exact (published_append ..).trans (by rw [hnone]; rfl)

/-- The last batch settles all. -/
theorem Attempts.granted_eq (ha : Attempts tenant requests retries attempt h outcome lost last) :
    granted h = granted last := by
  rw [ha.spoken, granted_append, granted_retried ha.losses, List.nil_append]

theorem Attempts.published_eq (ha : Attempts tenant requests retries attempt h outcome lost last) :
    published h = published last := by
  rw [ha.spoken, published_append, published_retried ha.losses, List.nil_append]

/-- The batches that a call of upserts tries, by recursion on its retries. -/
theorem conversation_upsertAttempts : ∀ {retries attempt : Nat} {h : List Turn},
    (∀ t ∈ h, t.Honest) →
    (Service.upsertAttempts tenant requests retries attempt).run.Conversation h outcome →
    ∃ lost last, Attempts tenant requests retries attempt h outcome lost last
  | 0, attempt, h, _, hconv =>
    ⟨[], h, Nat.le_refl 0, by simp, rfl, hconv, fun _ _ => rfl⟩
  | retries + 1, attempt, h, hhonest, hconv => by
    obtain ⟨h₁, h₂, first, rfl, hfirst, hrest⟩ := Program.conversation_bind hconv
    obtain ⟨hhonest₁, hhonest₂⟩ := List.forall_mem_append.1 hhonest
    split at hrest
    · next name =>
      -- the batch lost, and is tried again
      rcases conversation_upsertBatch hhonest₁ hfirst with
        ⟨_, _, _, _, hok, -⟩ | ⟨e, he, -, -, hlost⟩
      · cases hok
      cases he
      obtain ⟨h₃, h₄, _, rfl, hlog, hagain⟩ := Program.conversation_bind hrest
      obtain rfl := Program.conversation_call hlog
      obtain ⟨lost, last, ha⟩ :=
        conversation_upsertAttempts (List.forall_mem_append.1 hhonest₂).2 hagain
      refine ⟨(name, h₁) :: lost, last, ?_⟩
      exact
        { few := Nat.succ_le_succ ha.few
          losses := List.forall_mem_cons.2 ⟨hlost name rfl, ha.losses⟩
          spoken := by rw [ha.spoken]; simp [retried]
          ended := ha.ended
          spent := fun name' hname => congrArg (· + 1) (ha.spent name' hname) }
    · next hnot =>
      cases hrest
      rw [List.append_nil] at *
      exact ⟨[], h₁, Nat.zero_le _, by simp, rfl, hfirst,
        fun name hname => absurd hname (hnot name)⟩

/-- What a whole call of upserts said, settled and published is what its attempts did. -/
theorem conversation_upserts {settings : ServiceSettings} (hhonest : ∀ t ∈ h, t.Honest)
    (hconv : (WriteCall.batch (.upsert settings tenant) requests).call.run.Conversation h outcome) :
    ∃ body lost last, h = body ++ Call.report outcome ∧
      Attempts tenant requests settings.upsertRetries.toNat 0 body outcome lost last ∧
      (∀ t ∈ last, t.Honest) ∧ granted h = granted last ∧ published h = published last := by
  obtain ⟨body, rfl, hbody⟩ := Call.conversation_reported hconv
  obtain ⟨hhonest, -⟩ := List.forall_mem_append.1 hhonest
  obtain ⟨lost, last, ha⟩ := conversation_upsertAttempts hhonest hbody
  have hreport : granted (Call.report outcome) = [] ∧ published (Call.report outcome) = [] := by
    cases outcome <;> exact ⟨rfl, rfl⟩
  rw [ha.spoken] at hhonest
  refine ⟨body, lost, last, rfl, ha, (List.forall_mem_append.1 hhonest).2, ?_, ?_⟩
  · rw [granted_append, hreport.1, List.append_nil, ha.granted_eq]
  · rw [published_append, hreport.2, List.append_nil, ha.published_eq]

end Attempts

end PartnerRelations
