/-
# `Proofs.Service.Outcome` — what a finished write call has done

Among collaborators of any kind, a store that makes each batch as a whole or not
at all, a ledger and a bus, each of which may fail at any request, a write call
ends in one of three ways.  For every conversation `h` of the call:

    a value              the changes of its unit of work were accepted in one
                         commit, none when there are no changes, and then all
                         events of the unit were published, in order
    a publish failure    the changes were accepted in one commit, and the
                         published events are the unit's without the last ones
    any other failure    no commit was accepted, and the bus was not asked

The unit of work meant is the one that the entries of the last attempt led to
(`WriteCall.LedTo`): an upsert may have lost earlier attempts, whose commits were
refused and whose events are nowhere in `h`.

The second way claims an accepted commit, so events must never come without a
change.  That is an invariant of units of work among arbitrary stores
(`UnitOfWork.Effective`), kept by every entry; it does not need the store to show
relations that make sense.
-/
import PartnerRelations.Proofs.Program.Conversation
import PartnerRelations.Proofs.Service.Upkeep

namespace PartnerRelations

open Program (Conversation asking)

/-! ## Events come with changes -/

namespace UnitOfWork

/-- Everything that happened calls for a change, and events come of something
that happened. -/
structure Effective (u : UnitOfWork) : Prop where
  change : ∀ t ∈ u.tracked, t.dirty = true → t.change?.isSome = true
  dirty : u.events ≠ [] → ∃ t ∈ u.tracked, t.dirty = true

theorem change?_isSome {t : Tracked} : t.change?.isSome = true ↔
    t.dirty = true ∧ (t.persisted.isSome = true ∨ t.relation.deleted = false) := by
  obtain ⟨_ | v, r, _ | _⟩ := t <;> cases hd : r.deleted <;> simp [Tracked.change?, hd]

theorem effective_empty : empty.Effective := ⟨by simp [empty], by simp [empty]⟩

variable {u : UnitOfWork} {r : Relation} {es : List RelationEvent}
  {envelopes : List RelationEnvelope}

theorem Effective.changes_ne_nil (h : u.Effective) (hevents : u.events ≠ []) :
    u.changes ≠ [] := by
  obtain ⟨t, ht, hd⟩ := h.dirty hevents
  obtain ⟨c, hc⟩ := Option.isSome_iff_exists.1 (h.change t ht hd)
  exact List.ne_nil_of_mem (List.mem_filterMap.2 ⟨t, ht, hc⟩)

theorem Effective.attach (h : u.Effective) : (u.attach r).Effective := by
  cases hf : u.find? r.key with
  | some t => rwa [attach_of_find? hf]
  | none =>
    refine ⟨?_, ?_⟩
    · intro t ht hd
      rcases (mem_attach hf).1 ht with ht | rfl
      · exact h.change t ht hd
      · simp at hd
    · intro hevents
      obtain ⟨t, ht, hd⟩ := h.dirty (by simpa using hevents)
      exact ⟨t, (mem_attach hf).2 (.inl ht), hd⟩

theorem exists_dirty_track {happened : Bool}
    (h : happened = true ∨ ∃ t ∈ u.tracked, t.dirty = true) :
    ∃ t ∈ (u.track r happened).tracked, t.dirty = true := by
  cases hf : u.find? r.key with
  | none =>
    rw [tracked_track_of_find?_none hf]
    rcases h with rfl | ⟨t, ht, hd⟩
    · exact ⟨_, List.mem_append_right _ (List.mem_singleton.2 rfl), rfl⟩
    · exact ⟨t, List.mem_append_left _ ht, hd⟩
  | some known =>
    obtain ⟨hmem, hk⟩ := mem_of_find? hf
    rcases h with rfl | ⟨t, ht, hd⟩
    · exact ⟨_, mem_track.2 (.inr (.inl ⟨known, hmem, hk, rfl⟩)), by simp⟩
    · by_cases hkt : t.relation.key = r.key
      · exact ⟨_, mem_track.2 (.inr (.inl ⟨t, ht, hkt, rfl⟩)), by simp [hd]⟩
      · exact ⟨t, mem_track.2 (.inl ⟨ht, hkt⟩), hd⟩

/-- Events may be recorded of a relation that is there afterwards, or that the
store knew. -/
theorem Effective.record (h : u.Effective) (hc : Carries r r.version es envelopes)
    (hr : (r.applyAll es).deleted = false ∨ u.find? r.key ≠ none ∧
      ∀ t ∈ u.tracked, t.relation.key = r.key → t.persisted.isSome = true) :
    (u.record r es envelopes).Effective := by
  refine ⟨?_, ?_⟩
  · intro t ht hd
    rw [tracked_record, mem_track, Relation.key_applyAll] at ht
    rcases ht with ⟨ht, -⟩ | ⟨old, hold, hk, rfl⟩ | ⟨hf, rfl⟩
    · exact h.change t ht hd
    · exact change?_isSome.2 ⟨hd, (hr.imp_right fun hr => hr.2 old hold hk).symm⟩
    · exact change?_isSome.2 ⟨hd, .inr (hr.resolve_right fun hr => hr.1 hf)⟩
  · intro hevents
    rw [tracked_record]
    refine exists_dirty_track ?_
    by_cases hes : es = []
    · subst hes
      have : envelopes = [] := by simpa using hc.payloads
      exact .inr (h.dirty (by simpa [this] using hevents))
    · exact .inl (by simpa using hes)

end UnitOfWork

/-! ## Entries keep it -/

namespace Query

/-- Collaborators that answer as they like, asked about everything but commits
and publications. -/
abbrev inquiring : Surroundings Query.Answer Unit := asking fun q => q.isInquiry = true

theorem idle_inquiring : inquiring.Idle := by
  intro q hq wanted _ h
  refine ⟨?_, h⟩
  cases q <;> first | rfl | simp [isIdle] at hq

end Query

open Query (inquiring idle_inquiring)

/-- Entries, deletions apart, inquire only, do not fail to publish, and leave no
event without a change. -/
def effectiveUpkeep : Upkeep inquiring (fun e _ => e.isPublish = false) where
  Held u _ := u.Effective
  Shown _ _ _ := True
  Free _ _ _ := True
  Drawn _ _ _ _ := True
  Within _ := True
  Named _ := True
  Resolved _ _ := True
  idle := idle_inquiring
  fail _ he := he
  known _ _ := by split <;> trivial
  within _ _ := trivial
  lookup held _ _ _ := by
    refine ⟨rfl, ?_⟩
    rintro (e | _ | r)
    · exact RelationError.isPublish_ofStore e
    · exact ⟨held, trivial⟩
    · exact ⟨held.attach, trivial⟩
  name held := ⟨rfl, fun _ => ⟨held, fun _ _ => trivial⟩⟩
  draw held _ := ⟨rfl, fun _ => ⟨held, trivial⟩⟩
  partners _ herror hok := by
    refine ⟨rfl, ?_⟩
    rintro (e | records)
    · exact herror e
    · exact hok records fun _ _ => trivial
  create held _ h hd _ carries := held.record carries
    (.inl (Relation.isCreated_iff.1 (Relation.isCreated_applyAll_of_handle h rfl hd)).2)
  amend held _ h hr hd _ carries := held.record carries
    (.inl (Relation.isCreated_iff.1
      (Relation.isCreated_applyAll_of_handle h (Relation.isCreated_iff.1 hr).2 hd)).2)

/-- A deletion handles one entry, and what it deletes the store knew. -/
theorem leads_deleteEntry_inquiring {tenant : TenantBpnl} {at_ : Instant}
    {externalId : ExternalId} :
    (Service.deleteEntry tenant at_ .empty externalId).Leads inquiring
      (fun out _ => out.2.Effective) (fun e _ => e.isPublish = false) () := by
  refine Call.leads_bind.2 (Call.leads_loadExisting (Call.leads_load.2 ⟨rfl, ?_⟩))
  rintro (e | _ | r)
  · exact RelationError.isPublish_ofStore e
  · rfl
  · have htracked : (UnitOfWork.empty.attach r).tracked = [⟨some r.version, r, false⟩] := rfl
    refine Call.leads_execute idle_inquiring
      (fun e _ => RelationError.isPublish_ofDomain _ e) ?_
    intro es envelopes _ carries
    refine UnitOfWork.effective_empty.attach.record carries (.inr ⟨?_, ?_⟩)
    · simp [UnitOfWork.find?, htracked]
    · simp [htracked]

/-- The entries of a write call inquire only, do not fail to publish, and leave
no event without a change. -/
theorem leads_handling (c : WriteCall) (at_ : Instant) :
    (c.handling at_).Leads inquiring (fun out _ => out.2.Effective)
      (fun e _ => e.isPublish = false) () := by
  cases c with
  | batch kind requests =>
    exact effectiveUpkeep.leads_handleEach UnitOfWork.effective_empty (fun _ _ => trivial)
      fun _ _ => trivial
  | delete tenant externalId =>
    exact Call.leads_bind.2 (Call.leads_mono (fun _ _ h => h) (fun _ _ he => he)
      leads_deleteEntry_inquiring)

theorem conversation_handling {c : WriteCall} {at_ : Instant} {h : List Turn}
    {outcome : Except RelationError (List Relation × UnitOfWork)}
    (hconv : (c.handling at_).run.Conversation h outcome) :
    (match outcome with
      | .ok out => out.2.Effective
      | .error e => e.isPublish = false) ∧ ∀ t ∈ h, t.request.isInquiry = true := by
  obtain ⟨hout, hinq⟩ := hconv.of_leads_asking (leads_handling c at_)
  exact ⟨by cases outcome <;> exact hout, hinq⟩

/-! ## Committing and publishing -/

/-- The commits that a unit of work calls for: one, or none without changes. -/
def UnitOfWork.commits (u : UnitOfWork) : List (List RelationChange) :=
  if u.changes = [] then [] else [u.changes]

theorem UnitOfWork.eq_of_mem_commits {u : UnitOfWork} {changes : List RelationChange}
    (h : changes ∈ u.commits) : changes = u.changes := by
  unfold commits at h
  split at h
  · cases h
  · exact List.mem_singleton.1 h

/-- The bus is never asked. -/
def Unpublished (h : List Turn) : Prop :=
  ∀ t ∈ h, ∀ envelope, t.request ≠ .publish envelope

/-- Everything accepted by the store was accepted before anything was published. -/
def CommitsFirst (h : List Turn) : Prop :=
  ∃ before after, h = before ++ after ∧ published before = [] ∧ granted after = []

theorem Unpublished.of_inquiries {h : List Turn} (inq : ∀ t ∈ h, t.request.isInquiry = true) :
    Unpublished h := by
  intro t ht envelope he
  have := inq t ht
  simp [he, Query.isInquiry] at this

theorem Unpublished.published_eq_nil {h : List Turn} (hu : Unpublished h) : published h = [] := by
  refine List.filterMap_eq_nil_iff.2 ?_
  intro t ht
  obtain ⟨request, x⟩ := t
  cases request with
  | publish envelope => exact absurd rfl (hu _ ht envelope)
  | _ => rfl

theorem Unpublished.append {h h' : List Turn} (hu : Unpublished h) (hu' : Unpublished h') :
    Unpublished (h ++ h') := fun t ht =>
  (List.mem_append.1 ht).elim (hu t) (hu' t)

/-- The envelopes went out in order, all of them or up to a failure. -/
def Delivered (envelopes : List RelationEnvelope) (d : List Turn) :
    Except RelationError Unit → Prop
  | .ok _ => published d = envelopes
  | .error e => e.isPublish = true ∧
      ∃ unsent, unsent ≠ [] ∧ published d ++ unsent = envelopes

theorem conversation_log {event : LogEvent} {d : List Turn} {outcome : Except RelationError Unit}
    (hconv : (Call.log event).run.Conversation d outcome) :
    outcome = .ok () ∧ ∀ t ∈ d, t.request.isInquiry = true := by
  obtain ⟨⟨⟩, rfl, hlog⟩ := Call.conversation_lift hconv
  rw [Program.conversation_call hlog]
  exact ⟨rfl, by simp [Query.isInquiry]⟩

theorem conversation_logs {α : Type} {event : α → LogEvent} {xs : List α} {d : List Turn}
    {outcome : Except RelationError PUnit}
    (hconv : (xs.forM fun x => Call.log (event x)).run.Conversation d outcome) :
    outcome = .ok () ∧ ∀ t ∈ d, t.request.isInquiry = true := by
  induction xs generalizing d with
  | nil =>
    obtain ⟨rfl, rfl⟩ := Call.conversation_pure hconv
    exact ⟨rfl, by simp⟩
  | cons x xs ih =>
    rcases Call.conversation_bind hconv with ⟨e, -, hlog⟩ | ⟨_, d₁, d₂, rfl, hlog, hrest⟩
    · cases (conversation_log hlog).1
    · obtain ⟨hout, hinq⟩ := ih hrest
      exact ⟨hout, fun t ht => (List.mem_append.1 ht).elim ((conversation_log hlog).2 t) (hinq t)⟩

theorem conversation_publishEach {envelopes : List RelationEnvelope} {d : List Turn}
    {outcome : Except RelationError Unit}
    (hconv : (Call.publishEach envelopes).run.Conversation d outcome) :
    (granted d = [] ∧ refused d = []) ∧ Delivered envelopes d outcome := by
  induction envelopes generalizing d with
  | nil =>
    obtain ⟨rfl, rfl⟩ := Call.conversation_pure hconv
    exact ⟨⟨rfl, rfl⟩, rfl⟩
  | cons envelope rest ih =>
    rcases Call.conversation_bind hconv with ⟨e, rfl, hone⟩ | ⟨_, d₁, d₂, rfl, hone, hrest⟩
    · obtain ⟨x, hx, hcall⟩ := Call.conversation_orFail hone
      rw [Program.conversation_call hcall]
      cases x with
      | ok u => cases hx
      | error reason =>
        cases hx
        exact ⟨⟨rfl, rfl⟩, rfl, envelope :: rest, by simp, rfl⟩
    · obtain ⟨x, hx, hcall⟩ := Call.conversation_orFail hone
      rw [Program.conversation_call hcall]
      cases x with
      | error reason => cases hx
      | ok u =>
        obtain ⟨⟨hg, hr⟩, hd⟩ := ih hrest
        refine ⟨⟨by rw [granted_append, hg]; rfl, by rw [refused_append, hr]; rfl⟩, ?_⟩
        rw [Delivered.eq_def] at hd ⊢
        cases outcome with
        | ok _ => rw [published_append, hd]; rfl
        | error e =>
          obtain ⟨he, unsent, hne, hd⟩ := hd
          exact ⟨he, unsent, hne, by rw [published_append, List.append_assoc, hd]; rfl⟩

/-- Inquiries around a delivery are no part of it. -/
theorem Delivered.surrounded {envelopes : List RelationEnvelope} {d : List Turn}
    (before after : List Turn) {outcome : Except RelationError Unit} (hd : Delivered envelopes d outcome)
    (hb : published before = []) (ha : published after = []) :
    Delivered envelopes (before ++ (d ++ after)) outcome := by
  have hp : published (before ++ (d ++ after)) = published d := by
    rw [published_append, published_append, hb, ha, List.nil_append, List.append_nil]
  cases outcome with
  | ok _ => exact hp.trans hd
  | error e => exact ⟨hd.1, hd.2.imp fun unsent h => ⟨h.1, by rw [hp]; exact h.2⟩⟩

theorem conversation_publish {envelopes : List RelationEnvelope} {d : List Turn}
    {outcome : Except RelationError Unit}
    (hconv : (Call.publish envelopes).run.Conversation d outcome) :
    (granted d = [] ∧ refused d = []) ∧ Delivered envelopes d outcome := by
  unfold Call.publish at hconv
  split at hconv
  · next hnil =>
    obtain ⟨rfl, rfl⟩ := Call.conversation_pure hconv
    exact ⟨⟨rfl, rfl⟩, (List.isEmpty_iff.1 hnil).symm⟩
  · rcases Call.conversation_bind hconv with ⟨e, -, hlogs⟩ | ⟨_, d₁, d₂, rfl, hlogs, hrest⟩
    · cases (conversation_logs hlogs).1
    · have hinq := (conversation_logs hlogs).2
      rcases Call.conversation_bind hrest with ⟨e, rfl, heach⟩ | ⟨_, d₃, d₄, rfl, heach, hlast⟩
      · obtain ⟨⟨hg, hr⟩, hd⟩ := conversation_publishEach heach
        refine ⟨⟨?_, ?_⟩, ?_⟩
        · rw [granted_append, granted_eq_nil hinq, hg]; rfl
        · rw [refused_append, refused_eq_nil hinq, hr]; rfl
        · simpa using hd.surrounded d₁ [] (published_eq_nil hinq) rfl
      · obtain ⟨⟨hg, hr⟩, hd⟩ := conversation_publishEach heach
        obtain ⟨rfl, hinq'⟩ := conversation_log hlast
        refine ⟨⟨?_, ?_⟩, ?_⟩
        · rw [granted_append, granted_append, granted_eq_nil hinq, hg, granted_eq_nil hinq']; rfl
        · rw [refused_append, refused_append, refused_eq_nil hinq, hr, refused_eq_nil hinq']; rfl
        · exact hd.surrounded d₁ d₄ (published_eq_nil hinq) (published_eq_nil hinq')

/-- How the end of an attempt went: its changes accepted and its events sent, or
nothing of either. -/
def Settled (u : UnitOfWork) (d : List Turn) (outcome : Except RelationError Unit) : Prop :=
  (granted d = u.commits ∧ refused d = [] ∧ CommitsFirst d ∧ Delivered u.events d outcome) ∨
  ∃ e, outcome = .error e ∧ e.isPublish = false ∧ granted d = [] ∧ Unpublished d

theorem conversation_commit {u : UnitOfWork} {d : List Turn}
    {x : Except StoreError (List RelationEnvelope)} (hconv : u.commit.Conversation d x) :
    (x = .ok u.events ∧ granted d = u.commits ∧ refused d = [] ∧ published d = []) ∨
    ∃ e, x = .error e ∧ granted d = [] ∧ Unpublished d := by
  unfold UnitOfWork.commit at hconv
  unfold UnitOfWork.commits
  split at hconv
  · next hnil =>
    cases hconv
    rw [if_pos (List.isEmpty_iff.1 hnil)]
    exact .inl ⟨rfl, rfl, rfl, rfl⟩
  · next hne =>
    rw [if_neg (by simpa using hne)]
    obtain ⟨d₁, d₂, y, rfl, hask, hrest⟩ := Program.conversation_bind hconv
    rw [Program.conversation_call hask]
    cases y with
    | ok _ =>
      cases hrest
      exact .inl ⟨rfl, rfl, rfl, rfl⟩
    | error e =>
      cases hrest
      exact .inr ⟨e, rfl, rfl, by simp [Unpublished]⟩

theorem conversation_finish {u : UnitOfWork} {d : List Turn} {outcome : Except RelationError Unit}
    (hconv : (Call.finish u).run.Conversation d outcome) : Settled u d outcome := by
  rcases Call.conversation_bind hconv with ⟨e, rfl, hcommit⟩ | ⟨events, d₁, d₂, rfl, hcommit, hpub⟩
  · obtain ⟨x, hx, hcommit⟩ := Call.conversation_orFail hcommit
    rcases conversation_commit hcommit with ⟨rfl, -⟩ | ⟨e', rfl, hg, hu⟩
    · cases hx
    · cases hx
      exact .inr ⟨_, rfl, RelationError.isPublish_ofStore e', hg, hu⟩
  · obtain ⟨x, hx, hcommit⟩ := Call.conversation_orFail hcommit
    rcases conversation_commit hcommit with ⟨rfl, hg, hr, hp⟩ | ⟨e', rfl, -⟩
    · cases hx
      obtain ⟨⟨hg', hr'⟩, hd⟩ := conversation_publish hpub
      refine .inl ⟨?_, ?_, ⟨d₁, d₂, rfl, hp, hg'⟩, ?_⟩
      · rw [granted_append, hg, hg', List.append_nil]
      · rw [refused_append, hr, hr']; rfl
      · simpa using hd.surrounded d₁ [] hp rfl
    · cases hx

/-! ## Whole calls -/

namespace WriteCall

variable {c : WriteCall} {α : Type} {h : List Turn}

/-- The last attempt of the call handled its entries, and they led to the unit of
work: whatever was accepted or refused afterwards belongs to that unit. -/
def LedTo (c : WriteCall) (h : List Turn) (u : UnitOfWork) : Prop :=
  ∃ before handled after at_ relations, h = before ++ (handled ++ after) ∧
    (c.handling at_).run.Conversation handled (.ok (relations, u)) ∧
    granted (before ++ handled) = [] ∧ published (before ++ handled) = [] ∧ refused after = []

/-- What has become of the changes and events of a call, by its outcome. -/
def Accounted (c : WriteCall) (h : List Turn) : Except RelationError α → Prop
  | .ok _ => ∃ u, c.LedTo h u ∧ granted h = u.commits ∧ published h = u.events ∧ CommitsFirst h
  | .error (.publish _) => ∃ u, c.LedTo h u ∧ granted h = [u.changes] ∧
      (∃ unsent, unsent ≠ [] ∧ published h ++ unsent = u.events) ∧ CommitsFirst h
  | .error _ => granted h = [] ∧ Unpublished h

theorem accounted_error {e : RelationError} (he : e.isPublish = false) (hg : granted h = [])
    (hu : Unpublished h) : c.Accounted h (.error e : Except RelationError α) := by
  cases e with
  | publish => cases he
  | _ => exact ⟨hg, hu⟩

theorem of_accounted_error {e : RelationError} (he : e.isPublish = false)
    (ha : c.Accounted h (.error e : Except RelationError α)) : granted h = [] ∧ Unpublished h := by
  cases e with
  | publish => cases he
  | _ => exact ha

/-- A failure accounts for the same, whatever value the call would have had. -/
theorem Accounted.of_error {β : Type} {e : RelationError}
    (ha : c.Accounted h (.error e : Except RelationError α)) :
    c.Accounted h (.error e : Except RelationError β) := by
  cases e <;> exact ha

/-- Whatever accepts and publishes nothing may stand before, and inquiries may
follow. -/
theorem Accounted.within (before after : List Turn) {outcome : Except RelationError α}
    (ha : c.Accounted h outcome) (hg : granted before = []) (hu : Unpublished before)
    (hinq : ∀ t ∈ after, t.request.isInquiry = true) :
    c.Accounted (before ++ (h ++ after)) outcome := by
  have hp := hu.published_eq_nil
  have hgranted : granted (before ++ (h ++ after)) = granted h := by
    rw [granted_append, granted_append, hg, granted_eq_nil hinq, List.nil_append, List.append_nil]
  have hpublished : published (before ++ (h ++ after)) = published h := by
    rw [published_append, published_append, hp, published_eq_nil hinq, List.nil_append,
      List.append_nil]
  have led : ∀ u, c.LedTo h u → c.LedTo (before ++ (h ++ after)) u := by
    rintro u ⟨before', handled, after', at_, relations, rfl, hconv, hg', hp', hr⟩
    refine ⟨before ++ before', handled, after' ++ after, at_, relations, by simp, hconv, ?_, ?_, ?_⟩
    · rw [List.append_assoc, granted_append, hg, hg']; rfl
    · rw [List.append_assoc, published_append, hp, hp']; rfl
    · rw [refused_append, hr, refused_eq_nil hinq]; rfl
  have first : CommitsFirst h → CommitsFirst (before ++ (h ++ after)) := by
    rintro ⟨before', after', rfl, hp', hg'⟩
    refine ⟨before ++ before', after' ++ after, by simp, ?_, ?_⟩
    · rw [published_append, hp, hp']; rfl
    · rw [granted_append, hg', granted_eq_nil hinq]; rfl
  rcases outcome with e | a
  · cases hpub : e.isPublish with
    | false =>
      obtain ⟨hg', hu'⟩ := of_accounted_error hpub ha
      exact accounted_error hpub (hgranted.trans hg')
        (hu.append (hu'.append (.of_inquiries hinq)))
    | true =>
      cases e with
      | publish reason =>
        obtain ⟨u, hled, hg', hun, hfirst⟩ := ha
        exact ⟨u, led u hled, hgranted.trans hg', by rwa [hpublished], first hfirst⟩
      | _ => cases hpub
  · obtain ⟨u, hled, hg', hp', hfirst⟩ := ha
    exact ⟨u, led u hled, hgranted.trans hg', hpublished.trans hp', first hfirst⟩

/-- One attempt at a write call: all entries, one commit, then publication. -/
def attempt (c : WriteCall) : Call (List Relation) := do
  let at_ ← Call.now
  let (relations, u) ← c.handling at_
  Call.finish u
  return relations

/-- The end of an attempt accounts for the unit that its entries led to. -/
theorem accounted_of_settled {handled d : List Turn} {at_ : Instant} {relations : List Relation}
    {u : UnitOfWork} {outcome : Except RelationError Unit} {a : α}
    (hhandled : (c.handling at_).run.Conversation handled (.ok (relations, u)))
    (hd : Settled u d outcome) : c.Accounted (handled ++ d) (outcome.map fun _ => a) := by
  obtain ⟨heff, hinq⟩ := conversation_handling hhandled
  have hg := granted_eq_nil hinq
  have hp := published_eq_nil hinq
  rcases hd with ⟨hg', hr, ⟨first, last, rfl, hpf, hgl⟩, hdel⟩ | ⟨e, rfl, he, hg', hu⟩
  · have led : c.LedTo (handled ++ (first ++ last)) u :=
      ⟨[], handled, first ++ last, at_, relations, rfl, hhandled, hg, hp, hr⟩
    have hfirst : CommitsFirst (handled ++ (first ++ last)) :=
      ⟨handled ++ first, last, by simp, by rw [published_append, hp, hpf]; rfl, hgl⟩
    have hgranted : granted (handled ++ (first ++ last)) = u.commits := by
      rw [granted_append, hg, hg', List.nil_append]
    have hpublished : published (handled ++ (first ++ last)) = published (first ++ last) := by
      rw [published_append, hp, List.nil_append]
    cases outcome with
    | ok _ => exact ⟨u, led, hgranted, hpublished.trans hdel, hfirst⟩
    | error e =>
      obtain ⟨he, unsent, hne, hsent⟩ := hdel
      have hevents : u.events ≠ [] := fun h => hne (List.append_eq_nil_iff.1 (hsent.trans h)).2
      have hcommits : u.commits = [u.changes] := if_neg (heff.changes_ne_nil hevents)
      cases e with
      | publish reason =>
        exact ⟨u, led, hgranted.trans hcommits, ⟨unsent, hne, by rwa [hpublished]⟩, hfirst⟩
      | _ => cases he
  · exact accounted_error he (by rw [granted_append, hg, hg']; rfl)
      ((Unpublished.of_inquiries hinq).append hu)

/-- An attempt learns the time and handles its entries; it fails at one of them, or comes to
its end. -/
theorem conversation_attempt {outcome : Except RelationError (List Relation)}
    (hconv : c.attempt.run.Conversation h outcome) :
    ∃ at_ rest, h = ⟨.now, at_⟩ :: rest ∧
      ((∃ e, outcome = .error e ∧ (c.handling at_).run.Conversation rest (.error e)) ∨
      ∃ relations u handled d ended, rest = handled ++ d ∧
        (c.handling at_).run.Conversation handled (.ok (relations, u)) ∧
        (Call.finish u).run.Conversation d ended ∧ outcome = ended.map fun _ => relations) := by
  obtain ⟨at_, rest, rfl, hrest⟩ := Call.conversation_now hconv
  refine ⟨at_, rest, rfl, ?_⟩
  rcases Call.conversation_bind hrest with ⟨e, rfl, hh⟩ | ⟨⟨rs, u⟩, h₁, h₂, rfl, hh, hfinish⟩
  · exact .inl ⟨e, rfl, hh⟩
  rcases Call.conversation_bind hfinish with ⟨e, rfl, hf⟩ | ⟨_, h₃, h₄, rfl, hf, hdone⟩
  · exact .inr ⟨rs, u, h₁, h₂, .error e, rfl, hh, hf, rfl⟩
  · obtain ⟨rfl, rfl⟩ := Call.conversation_pure hdone
    rw [List.append_nil]
    exact .inr ⟨rs, u, h₁, h₃, .ok (), rfl, hh, hf, rfl⟩

theorem accounted_attempt {outcome : Except RelationError (List Relation)}
    (hconv : c.attempt.run.Conversation h outcome) : c.Accounted h outcome := by
  obtain ⟨at_, rest, rfl, hrest⟩ := conversation_attempt hconv
  have haccounted : c.Accounted rest outcome := by
    rcases hrest with ⟨e, rfl, hh⟩ | ⟨relations, u, handled, d, ended, rfl, hh, hfinish, rfl⟩
    · obtain ⟨he, hinq⟩ := conversation_handling hh
      exact accounted_error he (granted_eq_nil hinq) (.of_inquiries hinq)
    · exact accounted_of_settled hh (conversation_finish hfinish)
  simpa using haccounted.within [⟨.now, at_⟩] [] rfl (.of_inquiries (by simp [Query.isInquiry]))
    (by simp)

/-- Attempts that lose leave nothing, and the one after them accounts for all. -/
theorem accounted_upsertAttempts {settings : ServiceSettings} {tenant : TenantBpnl}
    {requests : List InputRelationUpsert} {outcome : Except RelationError (List Relation)} :
    ∀ {retries attempt : Nat} {h : List Turn},
      (Service.upsertAttempts tenant requests retries attempt).run.Conversation h outcome →
      (WriteCall.batch (.upsert settings tenant) requests).Accounted h outcome
  | 0, _, _, hconv => accounted_attempt (c := .batch (.upsert settings tenant) requests) hconv
  | retries + 1, attempt, h, hconv => by
    obtain ⟨h₁, h₂, first, rfl, hfirst, hrest⟩ := Program.conversation_bind hconv
    have ha := accounted_attempt (c := .batch (.upsert settings tenant) requests) hfirst
    split at hrest
    · next externalId =>
      obtain ⟨hg, hu⟩ := of_accounted_error (e := .alreadyExists externalId) rfl ha
      obtain ⟨h₃, h₄, _, rfl, hlog, hrest⟩ := Program.conversation_bind hrest
      have hinq : ∀ t ∈ h₃, t.request.isInquiry = true := by
        rw [Program.conversation_call hlog]; simp [Query.isInquiry]
      have hlast : (WriteCall.batch (.upsert settings tenant) requests).Accounted h₄ outcome :=
        accounted_upsertAttempts hrest
      simpa using hlast.within (h₁ ++ h₃) []
        (by rw [granted_append, hg, granted_eq_nil hinq]; rfl)
        (hu.append (.of_inquiries hinq)) (by simp)
    · cases hrest
      rwa [List.append_nil]

theorem accounted_reported {α : Type} {call : Call α} {outcome : Except RelationError α}
    (hcall : ∀ {h : List Turn} {outcome : Except RelationError α},
      call.run.Conversation h outcome → c.Accounted h outcome)
    (hconv : call.reported.run.Conversation h outcome) : c.Accounted h outcome := by
  obtain ⟨body, rfl, hbody⟩ := Call.conversation_reported hconv
  have hinq : ∀ t ∈ Call.report outcome, t.request.isInquiry = true := by
    cases outcome <;> simp [Call.report, Query.isInquiry]
  simpa using (hcall hbody).within [] _ rfl (by simp [Unpublished]) hinq

end WriteCall

/-- A write call that returns a value had all its changes accepted at once and
then published all its events; one that fails to publish had its changes accepted
and published some of the first events; one that fails otherwise has done
nothing. -/
theorem write_call_accounted (c : WriteCall) {h : List Turn}
    {outcome : Except RelationError c.Result} (hconv : c.call.run.Conversation h outcome) :
    c.Accounted h outcome := by
  cases c with
  | batch kind requests =>
    cases kind with
    | upsert settings tenant =>
      exact WriteCall.accounted_reported WriteCall.accounted_upsertAttempts hconv
    | create tenant => exact WriteCall.accounted_reported WriteCall.accounted_attempt hconv
    | update tenant => exact WriteCall.accounted_reported WriteCall.accounted_attempt hconv
    | output => exact WriteCall.accounted_reported WriteCall.accounted_attempt hconv
    | report => exact WriteCall.accounted_reported WriteCall.accounted_attempt hconv
  | delete tenant externalId =>
    refine WriteCall.accounted_reported ?_ hconv
    intro _ _ hcall
    rcases Call.conversation_bind hcall with ⟨e, rfl, hb⟩ | ⟨_, h₁, h₂, rfl, hb, hdone⟩
    · exact (WriteCall.accounted_attempt (c := .delete tenant externalId) hb).of_error
    · obtain ⟨rfl, rfl⟩ := Call.conversation_pure hdone
      rw [List.append_nil]
      exact WriteCall.accounted_attempt (c := .delete tenant externalId) hb

private abbrev tenant₁ : TenantBpnl := ⟨"T4", by cbv, by decide⟩
private abbrev name₁ : ExternalId := ⟨"R5", by cbv, by decide⟩
private abbrev name₂ : ExternalId := ⟨"R6", by cbv, by decide⟩

/-- Collaborators that know every partner, find the first commit too late, and
take one envelope.  The state counts commits and publications. -/
def reluctant : Nat × Nat → (q : Query) → q.Answer × (Nat × Nat)
  | s, .now => (.epoch, s)
  | s, .freshId _ => (.ofNat 7, s)
  | s, .findByKey _ => (.ok none, s)
  | s, .findInState _ _ => (.ok [], s)
  | s, .commit _ =>
    (if s.1 = 0 then .error (.duplicateExternalId tenant₁ name₁) else .ok (), (s.1 + 1, s.2))
  | s, .searchInput _ _ _ => (.error (.backend "down"), s)
  | s, .searchOutput _ _ _ => (.error (.backend "down"), s)
  | s, .searchSharingStates _ _ _ => (.error (.backend "down"), s)
  | s, .partnerRecords tenant name =>
    (.ok [.fresh ⟨.ofNat (if name = name₁ then 1 else 2)⟩ tenant name .epoch], s)
  | s, .partnerRecordsByIds _ => (.ok [], s)
  | s, .publish _ => (if s.2 = 0 then .ok () else .error "down", (s.1, s.2 + 1))
  | s, .log _ => ((), s)

/-- An upsert of two relations that starts over once and then loses the bus. -/
def reluctantUpsert : WriteCall :=
  .batch (.upsert .standard tenant₁)
    [⟨name₁, .isManagedBy, name₁, name₂⟩, ⟨name₂, .isOwnedBy, name₁, name₂⟩]

theorem reluctantUpsert_accounted :
    let (h, outcome, _) := reluctantUpsert.call.run.converse reluctant (0, 0)
    (reluctantUpsert.call.run.Conversation h outcome ∧ outcome = .error (.publish "down") ∧
      (refused h).length = 1 ∧ (granted h).length = 1 ∧ (published h).length = 1) ∧
    reluctantUpsert.Accounted h outcome :=
  ⟨⟨Program.conversation_converse _, by rfl, by rfl, by rfl, by rfl⟩,
    write_call_accounted reluctantUpsert (Program.conversation_converse _)⟩

end PartnerRelations
