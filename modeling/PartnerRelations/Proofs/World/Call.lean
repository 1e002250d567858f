/-
# `Proofs.World.Call` — what a call comes to with nobody else at work

    p.ComesTo supply w a w'    held in the world `w`, the dialogue ends with `a` and
                               leaves `w'`, reports apart, and no commit was refused
                               on the way

No answer depends on what was reported (`run_quiet`), so worlds are compared
without their reports, and the rules below can name the world that a part of a call
leaves.  There is a rule for binds and one for each thing that a call does: looking
a name up, drawing an identifier, giving a command, committing and publishing, and
starting over.
-/
import PartnerRelations.Proofs.Service.Outcome
import PartnerRelations.Proofs.World.Run

namespace PartnerRelations

namespace World

variable {supply : Nat → Uuid} {w w' : World} {α β : Type}

/-- The world without what was reported. -/
def quiet (w : World) : World := { w with reports := [] }

theorem draw_draw (n m : Nat) : (w.draw n).draw m = w.draw (n + m) := by
  simp [draw, Nat.add_assoc]

theorem answer_quiet (h : w.quiet = w'.quiet) (q : Query) :
    (w.answer supply q).1 = (w'.answer supply q).1 ∧
      (w.answer supply q).2.quiet = (w'.answer supply q).2.quiet := by
  obtain ⟨clock, tables, ledger, drawn, published, reports⟩ := w
  obtain ⟨clock', tables', ledger', drawn', published', reports'⟩ := w'
  simp only [quiet, World.mk.injEq, and_true] at h
  obtain ⟨rfl, rfl, rfl, rfl, rfl⟩ := h
  cases q with
  | commit changes =>
    simp only [answer]
    cases tables.commit changes <;> exact ⟨rfl, rfl⟩
  | _ => exact ⟨rfl, rfl⟩

/-- What a dialogue comes to and what is said in it do not depend on the reports. -/
theorem run_quiet {p : Dialogue α} : ∀ {w w' : World}, w.quiet = w'.quiet →
    (run supply p w).1 = (run supply p w').1 ∧
      (run supply p w).2.quiet = (run supply p w').2.quiet ∧
      exchanges supply p w = exchanges supply p w' := by
  induction p with
  | done a =>
    intro w w' h
    exact ⟨rfl, h, rfl⟩
  | ask q next ih =>
    intro w w' h
    obtain ⟨hx, hw⟩ := @answer_quiet supply _ _ h q
    obtain ⟨hout, hworld, hsaid⟩ := ih (w.answer supply q).1 hw
    rw [run_ask, run_ask, exchanges_ask, exchanges_ask, ← hx]
    exact ⟨hout, hworld, congrArg _ hsaid⟩

theorem drawn_bind {p : Dialogue α} {f : α → Dialogue β} :
    (run supply p w).2.drawn ≤ (run supply (p.bind f) w).2.drawn := by
  rw [run_bind]
  exact drawn_run _

end World

open World (exchanges)

namespace Program

variable {supply : Nat → Uuid} {w w' w'' : World} {α β : Type}

/-- With nobody else at work, the dialogue ends with the value and leaves the world,
reports apart, and no commit was refused on the way. -/
structure ComesTo (supply : Nat → Uuid) (p : Dialogue α) (w : World) (a : α) (w' : World) :
    Prop where
  value : (World.run supply p w).1 = a
  world : (World.run supply p w).2.quiet = w'.quiet
  accepted : refused (exchanges supply p w) = []

theorem comesTo_done (a : α) : ComesTo supply (.done a) w a w := ⟨rfl, rfl, rfl⟩

theorem ComesTo.of_run {p : Dialogue α} {a : α} (h : World.run supply p w = (a, w'))
    (accepted : refused (exchanges supply p w) = []) : p.ComesTo supply w a w' :=
  ⟨congrArg Prod.fst h, by rw [h], accepted⟩

/-- The world is left as it says, but for the reports. -/
theorem ComesTo.leaves {p : Dialogue α} {a : α} (h : p.ComesTo supply w a w') :
    (World.run supply p w).2.tables = w'.tables ∧ (World.run supply p w).2.ledger = w'.ledger ∧
      (World.run supply p w).2.published = w'.published := by
  have hworld := h.world
  simp only [World.quiet, World.mk.injEq] at hworld
  exact ⟨hworld.2.1, hworld.2.2.1, hworld.2.2.2.2.1⟩

/-- After a part, the dialogue goes on with its value. -/
theorem ComesTo.bind {p : Dialogue α} {f : α → Dialogue β} {a : α} {b : β}
    (hp : p.ComesTo supply w a w') (hf : (f a).ComesTo supply w' b w'') :
    (p.bind f).ComesTo supply w b w'' := by
  obtain ⟨hout, hworld, hsaid⟩ := @World.run_quiet supply _ (f a) _ _ hp.world
  refine ⟨?_, ?_, ?_⟩
  · rw [World.run_bind, hp.value, hout, hf.value]
  · rw [World.run_bind, hp.value, hworld, hf.world]
  · rw [World.exchanges_bind, hp.value, hsaid, refused_append, hp.accepted, hf.accepted]
    rfl

/-- The rest of the dialogue draws what is drawn after the part. -/
theorem ComesTo.drawn_bind {p : Dialogue α} {f : α → Dialogue β} {a : α}
    (hp : p.ComesTo supply w a w') :
    (World.run supply (p.bind f) w).2.drawn = (World.run supply (f a) w').2.drawn := by
  rw [World.run_bind, hp.value]
  have hdrawn := congrArg World.drawn (@World.run_quiet supply _ (f a) _ _ hp.world).2.1
  exact hdrawn

theorem comesTo_commit {u : UnitOfWork} {t : Tables} (h : w.tables.commit u.changes = .ok t) :
    u.commit.ComesTo supply w (.ok u.events) { w with tables := t } := by
  refine .of_run (World.run_commit_ok h) ?_
  have hconv : u.commit.Conversation (exchanges supply u.commit w) _ :=
    World.conversation_exchanges u.commit w
  rcases conversation_commit hconv with
    ⟨-, -, hrefused, -⟩ | ⟨e, herror, -⟩
  · exact hrefused
  · rw [World.run_commit_ok h] at herror
    cases herror

theorem comesTo_load (u : UnitOfWork) (key : RelationKey) :
    (u.load key).ComesTo supply w (.ok (u.seen w.tables key, u.reach w.tables key)) w := by
  refine .of_run (World.run_load u key) ?_
  unfold UnitOfWork.load
  cases u.find? key with
  | some t => rfl
  | none =>
    refine (congrArg refused World.exchanges_bind).trans ?_
    rw [show World.run supply (Query.ask (.findByKey key)) w = (.ok (w.tables.find? key), w) from rfl]
    cases w.tables.find? key <;> rfl

theorem comesTo_envelop {r : Relation} {es : List RelationEvent} {version : Nat} :
    (UnitOfWork.envelop r version es).ComesTo supply w
      (World.envelop supply r w.drawn version es) (w.draw es.length) := by
  refine .of_run World.run_envelop ?_
  induction es generalizing version w with
  | nil => rfl
  | cons e es ih =>
    refine (congrArg refused World.exchanges_bind).trans ?_
    rw [refused_append]
    refine (congrArg _ (congrArg refused World.exchanges_bind)).trans ?_
    rw [refused_append, ih]
    rfl

end Program

namespace Call

variable {supply : Nat → Uuid} {w w' w'' : World} {α β : Type}

/-- What a call comes to, a value or a failure. -/
abbrev ComesTo (supply : Nat → Uuid) (c : Call α) (w : World)
    (outcome : Except RelationError α) (w' : World) : Prop :=
  Program.ComesTo supply c.run w outcome w'

theorem ComesTo.bind {c : Call α} {f : α → Call β} {a : α} {outcome : Except RelationError β}
    (hc : c.ComesTo supply w (.ok a) w') (hf : (f a).ComesTo supply w' outcome w'') :
    (c >>= f).ComesTo supply w outcome w'' :=
  Program.ComesTo.bind hc hf

theorem ComesTo.drawn_bind {c : Call α} {f : α → Call β} {a : α}
    (hc : c.ComesTo supply w (.ok a) w') :
    (World.run supply (c >>= f).run w).2.drawn = (World.run supply (f a).run w').2.drawn :=
  Program.ComesTo.drawn_bind hc

/-- After a part that fails, the call has failed. -/
theorem ComesTo.bind_error {c : Call α} {f : α → Call β} {e : RelationError}
    (hc : c.ComesTo supply w (.error e) w') : (c >>= f).ComesTo supply w (.error e) w' :=
  Program.ComesTo.bind hc (Program.comesTo_done _)

/-- After a part that leaves the world, the call goes on as the outcome does. -/
theorem ComesTo.bind_inquiry {c : Call α} {f : α → Call β} {outcome : Except RelationError α}
    {g : α → Except RelationError β} (hc : c.ComesTo supply w outcome w)
    (hf : ∀ a, (f a).ComesTo supply w (g a) w) :
    (c >>= f).ComesTo supply w (outcome >>= g) w := by
  rcases outcome with e | a
  · exact hc.bind_error
  · exact ComesTo.bind hc (hf a)

/-! ## The steps of a call -/

theorem comesTo_pure (a : α) : (pure a : Call α).ComesTo supply w (.ok a) w :=
  Program.comesTo_done _

theorem comesTo_throw (e : RelationError) : (throw e : Call α).ComesTo supply w (.error e) w :=
  Program.comesTo_done _

theorem comesTo_now : now.ComesTo supply w (.ok w.clock) w :=
  ⟨rfl, rfl, rfl⟩

theorem comesTo_freshId (use : IdUse) :
    (freshId use).ComesTo supply w (.ok (supply w.drawn)) (w.draw 1) :=
  ⟨rfl, rfl, rfl⟩

theorem comesTo_log (event : LogEvent) : (log event).ComesTo supply w (.ok ()) w :=
  ⟨rfl, rfl, rfl⟩

theorem comesTo_orFail {ε : Type} {wrap : ε → RelationError} {p : Dialogue (Except ε α)}
    {outcome : Except ε α} (h : p.ComesTo supply w outcome w') :
    (orFail wrap p).ComesTo supply w (outcome.mapError wrap) w' :=
  h.bind (Program.comesTo_done _)

theorem comesTo_load (u : UnitOfWork) (key : RelationKey) :
    (load u key).ComesTo supply w (.ok (u.seen w.tables key, u.reach w.tables key)) w :=
  comesTo_orFail (Program.comesTo_load u key)

theorem comesTo_execute_error {u : UnitOfWork} {externalId : ExternalId} {r : Relation}
    {command : RelationCommand} {e : DomainError} (h : r.handle command = .error e) :
    (execute u externalId r command).ComesTo supply w (.error (.ofDomain externalId e)) w := by
  refine @comesTo_orFail _ _ _ _ _ (.ofDomain externalId) _ (.error e) ?_
  rw [UnitOfWork.execute, h]
  exact Program.comesTo_done _

theorem comesTo_execute_ok {u : UnitOfWork} {externalId : ExternalId} {r : Relation}
    {command : RelationCommand} {es : List RelationEvent} (h : r.handle command = .ok es) :
    (execute u externalId r command).ComesTo supply w (.ok (r.applyAll es,
      u.record r es (World.envelop supply r w.drawn r.version es))) (w.draw es.length) := by
  refine @comesTo_orFail _ _ _ _ _ (.ofDomain externalId) _ (.ok _) ?_
  rw [UnitOfWork.execute, h]
  exact Program.comesTo_envelop.bind (Program.comesTo_done _)

/-! ## Whole calls -/

theorem comesTo_publishEach {envelopes : List RelationEnvelope} : (publishEach envelopes).ComesTo
    supply w (.ok ()) { w with published := w.published ++ envelopes } := by
  induction envelopes generalizing w with
  | nil =>
    rw [List.append_nil]
    exact comesTo_pure ()
  | cons envelope rest ih =>
    have hone : (orFail .publish (Query.ask (.publish envelope))).ComesTo supply w (.ok ())
        { w with published := w.published ++ [envelope] } := ⟨rfl, rfl, rfl⟩
    have hrest := @ih { w with published := w.published ++ [envelope] }
    rw [List.append_assoc] at hrest
    exact hone.bind hrest

theorem comesTo_logs {γ : Type} {event : γ → LogEvent} {xs : List γ} :
    (xs.forM fun x => log (event x) : Call PUnit).ComesTo supply w (.ok ()) w := by
  induction xs with
  | nil => exact comesTo_pure _
  | cons x xs ih => exact (comesTo_log _).bind ih

theorem comesTo_publish {envelopes : List RelationEnvelope} : (publish envelopes).ComesTo
    supply w (.ok ()) { w with published := w.published ++ envelopes } := by
  unfold publish
  split
  · next hnil =>
    rw [List.isEmpty_iff.1 hnil, List.append_nil]
    exact comesTo_pure ()
  · exact comesTo_logs.bind (comesTo_publishEach.bind (comesTo_log _))

/-- A unit whose changes the store accepts: they are made, and its events are
published. -/
theorem comesTo_finish {u : UnitOfWork} {t : Tables} (h : w.tables.commit u.changes = .ok t) :
    (finish u).ComesTo supply w (.ok ())
      { w with tables := t, published := w.published ++ u.events } :=
  (comesTo_orFail (Program.comesTo_commit h)).bind comesTo_publish

section Batch

variable {ρ : Type} {entry : Entry ρ} {requests : List ρ} {relations : List Relation}
  {u : UnitOfWork} {t : Tables} {e : RelationError}

theorem comesTo_batch_error
    (h : (handleEach entry w.clock .empty requests).ComesTo supply w (.error e) w') :
    (batch entry requests).ComesTo supply w (.error e) w' :=
  comesTo_now.bind h.bind_error

theorem comesTo_batch_ok
    (h : (handleEach entry w.clock .empty requests).ComesTo supply w (.ok (relations, u)) w')
    (hcommit : w'.tables.commit u.changes = .ok t) :
    (batch entry requests).ComesTo supply w (.ok relations)
      { w' with tables := t, published := w'.published ++ u.events } :=
  comesTo_now.bind (h.bind ((comesTo_finish hcommit).bind (comesTo_pure _)))

end Batch

/-- What is reported in the end makes no difference. -/
theorem ComesTo.reported {c : Call α} {outcome : Except RelationError α}
    (h : c.ComesTo supply w outcome w') : c.reported.ComesTo supply w outcome w' := by
  refine Program.ComesTo.bind h ?_
  cases outcome <;> exact ⟨rfl, rfl, rfl⟩

/-- An upsert does not start over unless its first attempt finds a name taken. -/
theorem ComesTo.upsertAttempts {tenant : TenantBpnl} {requests : List InputRelationUpsert}
    {outcome : Except RelationError (List Relation)}
    (h : (batch (Service.upsertEntry tenant) requests).ComesTo supply w outcome w')
    (hout : ∀ name, outcome ≠ .error (.alreadyExists name)) (retries attempt : Nat) :
    (Service.upsertAttempts tenant requests retries attempt).ComesTo supply w outcome w' := by
  cases retries with
  | zero => exact h
  | succ retries =>
    refine Program.ComesTo.bind h ?_
    rcases outcome with e | relations
    · cases e with
      | alreadyExists name => exact absurd rfl (hout name)
      | _ => exact Program.comesTo_done _
    · exact Program.comesTo_done _

end Call

end PartnerRelations
