/-
# `Proofs.Concurrent.System` — calls side by side

A `System` is a world with any number of calls on their way.  Each is a `Thread`:
the exchanges it had so far and the dialogue that is left.  One step of the system
is a `Choice`:

    arrive c        a new call begins
    clock, insert,  time passes, or somebody writes the ledger
    upsert
    turn i id       the call at position `i` has its next request answered;
                    if it asks for an identifier, it is given `id`

A request is answered as in the world of a single call (`World.answer`), so every
store read, ledger read, store commit and publication is one atomic step, and a
list of choices is an interleaving.  A turn is refused (`none`) if the identifier
was given out before, or if, as a generated name, it is one that the call's own
entries use; a finished call has no turn.

Exchanges are listed with the last one first, as are the relations shown in them.
-/
import PartnerRelations.Proofs.Program.Conversation
import PartnerRelations.Proofs.Service.Catalogue
import PartnerRelations.World

namespace PartnerRelations

namespace Turn

/-- The relations that an exchange shows. -/
def shown : Turn → List Relation
  | ⟨.findByKey _, .ok (some r)⟩ => [r]
  | ⟨.findInState _ _, .ok rs⟩ => rs
  | _ => []

/-- The identifier that an exchange gives out. -/
def drawn : Turn → List Uuid
  | ⟨.freshId _, id⟩ => [id]
  | _ => []

/-- What is given out was not given out before, and is no name of the call. -/
def isFresh (before : List Uuid) (named : List ExternalId) : Turn → Bool
  | ⟨.freshId .externalId, id⟩ =>
    decide (id ∉ before) && decide (Key.ofUuid .externalId id ∉ named)
  | ⟨.freshId _, id⟩ => decide (id ∉ before)
  | _ => true

end Turn

/-- A commit is accepted by the tables of the world. -/
theorem World.commit_eq_ok {supply : Nat → Uuid} {w w' : World} {changes : List RelationChange}
    {u : Unit} (h : w.answer supply (.commit changes) = (.ok u, w')) :
    ∃ tables, w.tables.commit changes = .ok tables := by
  cases hcommit : w.tables.commit changes with
  | ok tables => exact ⟨tables, rfl⟩
  | error e =>
    simp only [answer, hcommit] at h
    cases h

/-- A call on its way. -/
structure Thread where
  call : ServiceCall
  /-- The exchanges so far, the last one first. -/
  asked : List Turn
  rest : Dialogue (Except RelationError call.Result)

namespace Thread

/-- A call before its first step. -/
def start (c : ServiceCall) : Thread := ⟨c, [], c.call.run⟩

/-- The call has returned. -/
def isFinished (t : Thread) : Bool :=
  match t.rest with
  | .done _ => true
  | .ask _ _ => false

/-- The changes that the call is about to commit. -/
def offer (t : Thread) : Option (List RelationChange) :=
  match t.rest with
  | .ask (.commit changes) _ => some changes
  | _ => none

/-- The relations that the call was shown, the last one first. -/
def shown (t : Thread) : List Relation := t.asked.flatMap Turn.shown

/-- What the call was shown last of a relation. -/
def lastShown (t : Thread) (id : RelationId) : Option Relation :=
  t.shown.find? fun r => r.id = id

theorem exists_of_offer_eq_some {t : Thread} {changes : List RelationChange}
    (h : t.offer = some changes) : ∃ next, t.rest = .ask (.commit changes) next := by
  unfold offer at h
  split at h
  · next heq =>
    cases h
    exact ⟨_, heq⟩
  · cases h

theorem exists_of_isFinished {t : Thread} (h : t.isFinished = true) :
    ∃ outcome, t.rest = .done outcome := by
  unfold isFinished at h
  split at h
  · next heq => exact ⟨_, heq⟩
  · cases h

end Thread

/-- Calls side by side in one world. -/
structure System where
  world : World
  threads : List Thread
  /-- The identifiers given out so far. -/
  drawn : List Uuid

/-- A step that somebody takes. -/
inductive Choice where
  | arrive (c : ServiceCall)
  | clock (at_ : Instant)
  | insert (record : SharingStateRecord)
  | upsert (record : SharingStateRecord)
  | turn (i : Nat) (id : Uuid)

/-- A number of turns of one call, given identifiers from a first one on. -/
def Choice.turns (i count first : Nat) : List Choice :=
  (List.range count).map fun n => .turn i (.ofNat (first + n))

namespace System

/-- Nothing is stored and nobody calls. -/
def start (clock : Instant) : System := ⟨.start clock, [], []⟩

/-- One step, if it can be taken. -/
def step (s : System) : Choice → Option System
  | .arrive c => some { s with threads := s.threads ++ [.start c] }
  | .clock at_ => some { s with world := { s.world with clock := at_ } }
  | .insert record =>
    some { s with world := { s.world with ledger := s.world.ledger.insert record } }
  | .upsert record =>
    some { s with world := { s.world with ledger := Ledger.upsert record s.world.ledger } }
  | .turn i id => do
    let t ← s.threads[i]?
    match t.rest with
    | .done _ => none
    | .ask q next =>
      let (x, world) := s.world.answer (fun _ => id) q
      let turn : Turn := ⟨q, x⟩
      if turn.isFresh s.drawn t.call.named then
        some { world, threads := s.threads.set i ⟨t.call, turn :: t.asked, next x⟩
               drawn := turn.drawn ++ s.drawn }
      else none

/-- Steps one after the other. -/
def play (s : System) (choices : List Choice) : Option System := choices.foldlM step s

/-- What some interleaving leads to from the start. -/
def Reachable (s : System) : Prop := ∃ clock choices, (start clock).play choices = some s

/-- All calls have returned. -/
def Finished (s : System) : Prop := ∀ t ∈ s.threads, t.isFinished = true

variable {s s' : System}

/-- What every step keeps is kept by every interleaving. -/
theorem play_induction {P : System → Prop} (hstep : ∀ {s s' c}, P s → s.step c = some s' → P s')
    {choices : List Choice} (hs : P s) (h : s.play choices = some s') : P s' := by
  induction choices generalizing s with
  | nil =>
    cases h
    exact hs
  | cons c choices ih =>
    obtain ⟨next, hc, hrest⟩ := Option.bind_eq_some_iff.1 h
    exact ih (hstep hs hc) hrest

theorem Reachable.induction {P : System → Prop} (hstart : ∀ clock, P (start clock))
    (hstep : ∀ {s s' c}, P s → s.step c = some s' → P s') (h : s.Reachable) : P s := by
  obtain ⟨clock, choices, hplay⟩ := h
  exact play_induction hstep (hstart clock) hplay

/-- A turn of one call among the others. -/
theorem step_turn_eq_some {i : Nat} {id : Uuid} (h : s.step (.turn i id) = some s') :
    ∃ before call asked q next after x world, before.length = i ∧
      s.threads = before ++ ⟨call, asked, .ask q next⟩ :: after ∧
      s.world.answer (fun _ => id) q = (x, world) ∧
      Turn.isFresh s.drawn call.named ⟨q, x⟩ = true ∧
      s' = ⟨world, before ++ ⟨call, ⟨q, x⟩ :: asked, next x⟩ :: after,
        Turn.drawn ⟨q, x⟩ ++ s.drawn⟩ := by
  obtain ⟨⟨call, asked, rest⟩, ht, h⟩ := Option.bind_eq_some_iff.1 h
  obtain ⟨hi, ht⟩ := List.getElem?_eq_some_iff.1 ht
  cases rest with
  | done outcome => cases h
  | ask q next =>
    dsimp only at h
    split at h
    · next hfresh =>
      cases h
      refine ⟨s.threads.take i, call, asked, q, next, s.threads.drop (i + 1),
        (s.world.answer (fun _ => id) q).1, (s.world.answer (fun _ => id) q).2,
        List.length_take_of_le (Nat.le_of_lt hi), ?_, rfl, hfresh, ?_⟩
      · rw [← ht, ← List.drop_eq_getElem_cons hi, List.take_append_drop]
      · rw [List.set_eq_take_append_cons_drop, if_pos hi]
    · cases h

/-- What a call has when it arrives and keeps in its own turns, all calls keep in every
step. -/
theorem forall_threads_step {P : Thread → Prop} {c : Choice} (h : s.step c = some s')
    (hstart : ∀ call, P (.start call))
    (hturn : ∀ {id call asked q next x world}, s.world.answer (fun _ => id) q = (x, world) →
      P ⟨call, asked, .ask q next⟩ → P ⟨call, ⟨q, x⟩ :: asked, next x⟩)
    (hs : ∀ t ∈ s.threads, P t) : ∀ t ∈ s'.threads, P t := by
  cases c with
  | arrive call =>
    cases h
    exact List.forall_mem_append.2 ⟨hs, List.forall_mem_singleton.2 (hstart call)⟩
  | turn i id =>
    obtain ⟨before, call, asked, q, next, after, x, world, -, hthreads, hanswer, -, rfl⟩ :=
      step_turn_eq_some h
    rw [hthreads] at hs
    obtain ⟨hbefore, hrest⟩ := List.forall_mem_append.1 hs
    obtain ⟨hcall, hafter⟩ := List.forall_mem_cons.1 hrest
    exact List.forall_mem_append.2
      ⟨hbefore, List.forall_mem_cons.2 ⟨hturn hanswer hcall, hafter⟩⟩
  | _ =>
    cases h
    exact hs

end System

/-- A world that calls and writes to the ledger may lead to. -/
def World.Reachable (w : World) : Prop := ∃ s : System, s.Reachable ∧ s.world = w

end PartnerRelations
