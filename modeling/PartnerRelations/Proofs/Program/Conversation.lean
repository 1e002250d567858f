/-
# `Proofs.Program.Conversation` — everything a program says and is told

    Conversation p h a      `h` lists the requests of `p` with the answers they
                            got, in order, and `a` is the value `p` came to

Nothing is assumed of the answers: a conversation may have been held with any
store, ledger and bus, each of which may fail at any request and remember what
it likes.  So a statement about all conversations of a call is a statement about
the call among arbitrary collaborators.

A conversation is read by what it settled: `granted` lists the batches of changes
that a store accepted, `refused` those it did not, and `published` the envelopes
that a bus took.  A store that makes a batch as a whole or not at all has made
the granted batches and nothing else.
-/
import PartnerRelations.Proofs.Program.Surroundings

namespace PartnerRelations

/-- A request and the answer it got. -/
structure Exchange {ρ : Type} (answer : ρ → Type) where
  request : ρ
  answer : answer request

namespace Program

variable {ρ : Type} {answer : ρ → Type} {α β : Type}

/-- The exchanges of a program on its way to a value. -/
inductive Conversation : Program answer α → List (Exchange answer) → α → Prop where
  | done (a : α) : Conversation (.done a) [] a
  | ask {request : ρ} {next : answer request → Program answer α} {x : answer request}
      {rest : List (Exchange answer)} {a : α} :
      Conversation (next x) rest a → Conversation (.ask request next) (⟨request, x⟩ :: rest) a

/-- Surroundings that answer as they like what `admits` allows to ask. -/
def asking (admits : ρ → Prop) : Surroundings answer Unit where
  meets request wanted _ := admits request ∧ ∀ x, wanted x ()
  meets_mono hmono h := ⟨h.1, fun x => hmono _ _ (h.2 x)⟩

/-- A conversation of two programs in a row is one of each. -/
theorem conversation_bind {p : Program answer α} {f : α → Program answer β} {b : β} :
    ∀ {h : List (Exchange answer)}, Conversation (p.bind f) h b →
      ∃ h₁ h₂ a, h = h₁ ++ h₂ ∧ Conversation p h₁ a ∧ Conversation (f a) h₂ b := by
  induction p with
  | done a =>
    intro _ hconv
    exact ⟨[], _, a, rfl, .done a, hconv⟩
  | ask request next ih =>
    intro h hconv
    cases hconv with
    | @ask _ _ x rest _ hrest =>
      obtain ⟨h₁, h₂, a, rfl, hp, hf⟩ := ih x hrest
      exact ⟨⟨request, x⟩ :: h₁, h₂, a, rfl, .ask hp, hf⟩

theorem conversation_call {request : ρ} {h : List (Exchange answer)} {x : answer request}
    (hconv : Conversation (call request) h x) : h = [⟨request, x⟩] := by
  cases hconv with
  | ask hdone => cases hdone; rfl

/-- Hold a conversation with collaborators that have states. -/
def converse {σ : Type} (respond : σ → (request : ρ) → answer request × σ) :
    Program answer α → σ → List (Exchange answer) × α × σ
  | .done a, s => ([], a, s)
  | .ask request next, s =>
    let (x, s) := respond s request
    let (rest, a, s) := (next x).converse respond s
    (⟨request, x⟩ :: rest, a, s)

theorem conversation_converse {σ : Type} {respond : σ → (request : ρ) → answer request × σ}
    {p : Program answer α} : ∀ (s : σ),
      Conversation p (p.converse respond s).1 (p.converse respond s).2.1 := by
  induction p with
  | done a =>
    intro _
    exact .done a
  | ask request next ih =>
    intro s
    exact .ask (ih _ _)

theorem Conversation.of_leads_asking {admits : ρ → Prop} {post : α → Unit → Prop}
    {p : Program answer α} {h : List (Exchange answer)} {a : α} (hconv : Conversation p h a)
    (hp : p.Leads (asking admits) post ()) : post a () ∧ ∀ e ∈ h, admits e.request := by
  induction hconv with
  | done a => exact ⟨hp, by simp⟩
  | @ask request next x rest a _ ih =>
    obtain ⟨hpost, hrest⟩ := ih (hp.2 x)
    refine ⟨hpost, ?_⟩
    intro e he
    rcases List.mem_cons.1 he with rfl | he
    · exact hp.1
    · exact hrest e he

end Program

namespace Call

variable {α β : Type} {h : List (Exchange Query.Answer)}

/-- A call in two parts fails in the first or holds a conversation of each. -/
theorem conversation_bind {c : Call α} {f : α → Call β} {outcome : Except RelationError β}
    (hconv : (c >>= f).run.Conversation h outcome) :
    (∃ e, outcome = .error e ∧ c.run.Conversation h (.error e)) ∨
    ∃ a h₁ h₂, h = h₁ ++ h₂ ∧ c.run.Conversation h₁ (.ok a) ∧
      (f a).run.Conversation h₂ outcome := by
  obtain ⟨h₁, h₂, e | a, rfl, hc, hf⟩ := Program.conversation_bind hconv
  · cases hf
    rw [List.append_nil]
    exact .inl ⟨e, rfl, hc⟩
  · exact .inr ⟨a, h₁, h₂, rfl, hc, hf⟩

/-- A call in two parts that has a value holds a conversation of each. -/
theorem conversation_bind_ok {c : Call α} {f : α → Call β} {b : β}
    (hconv : (c >>= f).run.Conversation h (.ok b)) :
    ∃ a h₁ h₂, h = h₁ ++ h₂ ∧ c.run.Conversation h₁ (.ok a) ∧
      (f a).run.Conversation h₂ (.ok b) :=
  (conversation_bind hconv).resolve_left fun ⟨_, he, _⟩ => by cases he

theorem conversation_pure {a : α} {outcome : Except RelationError α}
    (hconv : (pure a : Call α).run.Conversation h outcome) : h = [] ∧ outcome = .ok a := by
  cases hconv
  exact ⟨rfl, rfl⟩

theorem conversation_lift {p : Dialogue α} {outcome : Except RelationError α}
    (hconv : (ExceptT.lift p : Call α).run.Conversation h outcome) :
    ∃ a, outcome = .ok a ∧ p.Conversation h a := by
  obtain ⟨h₁, h₂, a, rfl, hp, hf⟩ := Program.conversation_bind hconv
  cases hf
  exact ⟨a, rfl, by simpa using hp⟩

theorem conversation_orFail {ε : Type} {wrap : ε → RelationError} {p : Dialogue (Except ε α)}
    {outcome : Except RelationError α} (hconv : (orFail wrap p).run.Conversation h outcome) :
    ∃ x, outcome = x.mapError wrap ∧ p.Conversation h x := by
  obtain ⟨h₁, h₂, x, rfl, hp, hf⟩ := Program.conversation_bind hconv
  cases hf
  exact ⟨x, rfl, by simpa using hp⟩

end Call

/-- A query of a call with its answer. -/
abbrev Turn := Exchange Query.Answer

namespace Call

/-- A call that asks for the time is told it, and goes on. -/
theorem conversation_now {α : Type} {f : Instant → Call α} {h : List Turn}
    {outcome : Except RelationError α} (hconv : (now >>= f).run.Conversation h outcome) :
    ∃ at_ rest, h = ⟨.now, at_⟩ :: rest ∧ (f at_).run.Conversation rest outcome := by
  rcases conversation_bind hconv with ⟨e, rfl, hnow⟩ | ⟨at_, h₁, rest, rfl, hnow, hrest⟩
  · obtain ⟨_, he, -⟩ := conversation_lift hnow
    cases he
  · obtain ⟨_, hat, hnow⟩ := conversation_lift hnow
    cases hat
    rw [Program.conversation_call hnow]
    exact ⟨at_, rest, rfl, hrest⟩

/-- What is reported of the outcome of a call. -/
def report {α : Type} : Except RelationError α → List Turn
  | .ok _ => []
  | .error e => [⟨.log (.callFailed e), ()⟩]

/-- A reported call is the call, and the report. -/
theorem conversation_reported {α : Type} {c : Call α} {h : List Turn}
    {outcome : Except RelationError α} (hconv : c.reported.run.Conversation h outcome) :
    ∃ body, h = body ++ report outcome ∧ c.run.Conversation body outcome := by
  obtain ⟨body, rest, first, rfl, hfirst, hrest⟩ := Program.conversation_bind hconv
  refine ⟨body, ?_⟩
  cases first with
  | ok a =>
    cases hrest
    exact ⟨rfl, hfirst⟩
  | error e =>
    obtain ⟨h₁, h₂, _, rfl, hlog, hdone⟩ := Program.conversation_bind hrest
    cases hdone
    rw [Program.conversation_call hlog]
    exact ⟨rfl, hfirst⟩

end Call

/-! ## What a conversation settled -/

namespace Turn

/-- The changes of an accepted commit. -/
def granted? : Turn → Option (List RelationChange)
  | ⟨.commit changes, .ok ()⟩ => some changes
  | _ => none

/-- The changes of a commit that was not accepted. -/
def refused? : Turn → Option (List RelationChange)
  | ⟨.commit changes, .error _⟩ => some changes
  | _ => none

/-- The envelope that the bus took. -/
def published? : Turn → Option RelationEnvelope
  | ⟨.publish envelope, .ok ()⟩ => some envelope
  | _ => none

theorem granted?_eq_some {t : Turn} {changes : List RelationChange} :
    t.granted? = some changes ↔ t = ⟨.commit changes, .ok ()⟩ := by
  obtain ⟨q, x⟩ := t
  constructor
  · intro h
    cases q with
    | commit changes' =>
      cases x with
      | ok u => cases h; rfl
      | error e => cases h
    | _ => cases h
  · intro h
    cases h
    rfl

end Turn

/-- The batches of changes that the store accepted. -/
def granted (h : List Turn) : List (List RelationChange) := h.filterMap Turn.granted?

/-- The batches of changes that the store did not accept. -/
def refused (h : List Turn) : List (List RelationChange) := h.filterMap Turn.refused?

/-- The envelopes that the bus took. -/
def published (h : List Turn) : List RelationEnvelope := h.filterMap Turn.published?

theorem granted_append (h h' : List Turn) : granted (h ++ h') = granted h ++ granted h' :=
  List.filterMap_append

theorem refused_append (h h' : List Turn) : refused (h ++ h') = refused h ++ refused h' :=
  List.filterMap_append

theorem published_append (h h' : List Turn) : published (h ++ h') = published h ++ published h' :=
  List.filterMap_append

/-- A query that leaves the store and the bus as they are. -/
def Query.isInquiry : Query → Bool
  | .commit _ => false
  | .publish _ => false
  | _ => true

theorem Turn.granted?_of_isInquiry {t : Turn} (h : t.request.isInquiry) : t.granted? = none := by
  obtain ⟨request, x⟩ := t
  cases request <;> first | rfl | simp [Query.isInquiry] at h

theorem Turn.refused?_of_isInquiry {t : Turn} (h : t.request.isInquiry) : t.refused? = none := by
  obtain ⟨request, x⟩ := t
  cases request <;> first | rfl | simp [Query.isInquiry] at h

theorem Turn.published?_of_isInquiry {t : Turn} (h : t.request.isInquiry) :
    t.published? = none := by
  obtain ⟨request, x⟩ := t
  cases request <;> first | rfl | simp [Query.isInquiry] at h

theorem granted_eq_nil {h : List Turn} (inquiries : ∀ t ∈ h, t.request.isInquiry) :
    granted h = [] :=
  List.filterMap_eq_nil_iff.2 fun t ht => Turn.granted?_of_isInquiry (inquiries t ht)

theorem refused_eq_nil {h : List Turn} (inquiries : ∀ t ∈ h, t.request.isInquiry) :
    refused h = [] :=
  List.filterMap_eq_nil_iff.2 fun t ht => Turn.refused?_of_isInquiry (inquiries t ht)

theorem published_eq_nil {h : List Turn} (inquiries : ∀ t ∈ h, t.request.isInquiry) :
    published h = [] :=
  List.filterMap_eq_nil_iff.2 fun t ht => Turn.published?_of_isInquiry (inquiries t ht)

end PartnerRelations
