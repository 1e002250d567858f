/-
# `Proofs.Concurrent.Landing` — the commits of an interleaving, in order

A store is told changes, and the bus hears of the events behind them later, from the
call that made them.  What is committed is therefore read off the calls: at any moment a
call owes the envelopes that it publishes even if it is granted nothing more (`dues`),
and the events of a commit are what the call owes after it in addition.

    landings s choices     every accepted commit of an interleaving: whose it was, its
                           changes, the tables that they met, and its events

A call that keeps to the protocol owes exactly what its `Standing` says
(`dues_of_leads`).
-/
import PartnerRelations.Proofs.Concurrent.System
import PartnerRelations.Proofs.Service.Protocol

namespace PartnerRelations

namespace Query

/-- An answer that grants nothing and shows nothing. -/
def barren : (q : Query) → q.Answer
  | .now => .epoch
  | .freshId _ => default
  | .findByKey _ => .ok none
  | .findInState _ _ => .ok []
  | .commit _ => .error (.concurrency "")
  | .searchInput _ _ _ => .error (.backend "")
  | .searchOutput _ _ _ => .error (.backend "")
  | .searchSharingStates _ _ _ => .error (.backend "")
  | .partnerRecords _ _ => .ok []
  | .partnerRecordsByIds _ => .ok []
  | .publish _ => .ok ()
  | .log _ => ()

/-- A query for the identifier or the name of a new relation. -/
def isNaming : Query → Bool
  | .freshId .relation => true
  | .freshId .externalId => true
  | _ => false

/-- The envelope that is about to be published. -/
def envelope? : Query → Option RelationEnvelope
  | .publish envelope => some envelope
  | _ => none

end Query

/-- What a dialogue publishes even if it is granted nothing more.  A dialogue that goes
on to name a new relation has nothing to publish yet. -/
def dues {α : Type} : Dialogue α → List RelationEnvelope
  | .done _ => []
  | .ask q next => if q.isNaming then [] else q.envelope?.toList ++ dues (next q.barren)

/-- Who keeps to the protocol owes what it says. -/
theorem dues_of_leads {α : Type} {p : Dialogue α} : ∀ {st : Standing},
    p.Leads protocol (fun _ => Protocol.Settled) st → dues p = st.owed := by
  induction p with
  | done a =>
    intro st h
    exact Eq.symm h
  | ask q next ih =>
    intro st h
    cases q with
    | freshId use =>
      cases use with
      | relation => exact h.1.symm
      | externalId => exact h.1.symm
      | event => exact ih _ (h _)
    | findByKey key => exact ih _ h.1
    | findInState state limit => exact ih _ (h [] (by simp) List.nodup_nil)
    | commit changes =>
      obtain ⟨u, -, -, herr, -⟩ := h
      exact ih _ (herr _)
    | publish envelope =>
      obtain ⟨rest, howed, hrest⟩ := h
      exact (congrArg _ (ih _ hrest)).trans howed.symm
    | _ => exact ih _ (h _)

/-- A commit that the store accepted. -/
structure Landing where
  /-- The position of the call. -/
  caller : Nat
  changes : List RelationChange
  /-- The tables that the changes were made in. -/
  before : Tables
  events : List RelationEnvelope

namespace System

variable {s s' : System}

/-- The commit that a step from one state to the next was, if it was one. -/
def landing? (s s' : System) : Choice → Option Landing
  | .turn i _ => do
    let t ← s.threads[i]?
    let t' ← s'.threads[i]?
    let changes ← t'.asked.head?.bind Turn.granted?
    some ⟨i, changes, s.world.tables, (dues t'.rest).drop (dues t.rest).length⟩
  | _ => none

/-- The commits of an interleaving, the first one first. -/
def landings (s : System) : List Choice → List Landing
  | [] => []
  | c :: choices =>
    match s.step c with
    | some s' => (s.landing? s' c).toList ++ s'.landings choices
    | none => []

/-- What every step keeps, with the commit that it was, is kept by every interleaving. -/
theorem landings_induction {P : System → List Landing → Prop}
    (hstep : ∀ {s s' c log}, P s log → s.step c = some s' → P s' (log ++ (s.landing? s' c).toList))
    {choices : List Choice} {log : List Landing} (hs : P s log) (h : s.play choices = some s') :
    P s' (log ++ s.landings choices) := by
  induction choices generalizing s log with
  | nil =>
    cases h
    simpa [landings] using hs
  | cons c choices ih =>
    obtain ⟨next, hc, hrest⟩ := Option.bind_eq_some_iff.1 h
    rw [landings, hc, ← List.append_assoc]
    exact ih (hstep hs hc) hrest

/-- The commit of a turn, read off the exchange. -/
theorem landing?_turn {before after : List Thread} {call : ServiceCall} {asked : List Turn}
    {q : Query} {next : q.Answer → Dialogue (Except RelationError call.Result)} {x : q.Answer}
    {i : Nat} {id : Uuid} (hi : before.length = i)
    (hs : s.threads = before ++ ⟨call, asked, .ask q next⟩ :: after)
    (hs' : s'.threads = before ++ ⟨call, ⟨q, x⟩ :: asked, next x⟩ :: after) :
    s.landing? s' (.turn i id) = (Turn.granted? ⟨q, x⟩).map fun changes =>
      ⟨i, changes, s.world.tables, (dues (next x)).drop (dues (.ask q next)).length⟩ := by
  subst hi
  have ht : s.threads[before.length]? = some ⟨call, asked, .ask q next⟩ := by simp [hs]
  have ht' : s'.threads[before.length]? = some ⟨call, ⟨q, x⟩ :: asked, next x⟩ := by simp [hs']
  simp only [landing?, ht, ht', Option.bind_eq_bind, Option.bind_some, List.head?_cons]
  cases Turn.granted? ⟨q, x⟩ <;> rfl

end System

end PartnerRelations
