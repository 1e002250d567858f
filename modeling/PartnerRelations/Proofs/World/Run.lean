/-
# `Proofs.World.Run` — a dialogue with nobody else at work

`World.run` answers a dialogue to its end, and `exchanges` lists what was said on
the way.  Both go through binds (`run_bind`, `exchanges_bind`), and the operations
of a unit of work are described by what they come to:

    load       what is seen of the name, and the unit that has looked (`reach`)
    execute    what `handle` decides, with one identifier drawn for each event
    commit     the changes of the unit, in the store

The first two leave everything in the world but the number of drawn identifiers.
-/
import PartnerRelations.Proofs.Program.Conversation
import PartnerRelations.Proofs.UnitOfWork.Overlay

namespace PartnerRelations

namespace World

variable {supply : Nat → Uuid} {w : World} {q : Query} {α β : Type}

theorem run_ask {next : q.Answer → Dialogue α} : run supply (.ask q next) w =
    run supply (next (w.answer supply q).1) (w.answer supply q).2 := rfl

theorem run_bind {p : Dialogue α} {f : α → Dialogue β} :
    run supply (p.bind f) w = run supply (f (run supply p w).1) (run supply p w).2 := by
  induction p generalizing w with
  | done a => rfl
  | ask q next ih => exact ih _

theorem drawn_answer (q : Query) : w.drawn ≤ (w.answer supply q).2.drawn := by
  cases q with
  | freshId => exact Nat.le_succ _
  | commit changes =>
    simp only [answer]
    cases w.tables.commit changes <;> exact Nat.le_refl _
  | _ => exact Nat.le_refl _

/-- Identifiers are drawn and never given back. -/
theorem drawn_run (p : Dialogue α) : w.drawn ≤ (run supply p w).2.drawn := by
  induction p generalizing w with
  | done a => exact Nat.le_refl _
  | ask q next ih => exact Nat.le_trans (drawn_answer q) (ih _)

/-- What was said while the dialogue was held. -/
def exchanges (supply : Nat → Uuid) (p : Dialogue α) (w : World) : List Turn :=
  (p.converse (fun w q => w.answer supply q) w).1

theorem exchanges_ask {next : q.Answer → Dialogue α} : exchanges supply (.ask q next) w =
    ⟨q, (w.answer supply q).1⟩ ::
      exchanges supply (next (w.answer supply q).1) (w.answer supply q).2 := rfl

theorem converse_eq (p : Dialogue α) :
    (p.converse (fun w q => w.answer supply q) w).2 = run supply p w := by
  induction p generalizing w with
  | done a => rfl
  | ask q next ih => exact ih _

theorem exchanges_bind {p : Dialogue α} {f : α → Dialogue β} :
    exchanges supply (p.bind f) w =
      exchanges supply p w ++ exchanges supply (f (run supply p w).1) (run supply p w).2 := by
  induction p generalizing w with
  | done a => rfl
  | ask q next ih => exact congrArg (List.cons _) (ih _)

theorem conversation_exchanges (p : Dialogue α) (w : World) :
    p.Conversation (exchanges supply p w) (run supply p w).1 := by
  rw [← converse_eq]
  exact Program.conversation_converse w

theorem published_answer : (w.answer supply q).2.published =
    w.published ++ (Turn.published? ⟨q, (w.answer supply q).1⟩).toList := by
  cases q with
  | commit changes =>
    simp only [answer]
    cases w.tables.commit changes <;> exact (List.append_nil _).symm
  | publish envelope => rfl
  | _ => exact (List.append_nil _).symm

/-- What the bus has received is what was published on the way. -/
theorem published_run (p : Dialogue α) : ∀ w : World, (run supply p w).2.published =
    w.published ++ PartnerRelations.published (exchanges supply p w) := by
  induction p with
  | done a => exact fun _ => (List.append_nil _).symm
  | ask q next ih =>
    intro w
    rw [run_ask, exchanges_ask, ih, published_answer, List.append_assoc]
    unfold PartnerRelations.published
    rw [List.filterMap_cons]
    cases Turn.published? ⟨q, (w.answer supply q).1⟩ <;> rfl

theorem ledger_answer : (w.answer supply q).2.ledger = w.ledger := by
  cases q with
  | commit changes =>
    simp only [answer]
    cases w.tables.commit changes <;> rfl
  | _ => rfl

/-- No call writes to the ledger. -/
theorem ledger_run (p : Dialogue α) : (run supply p w).2.ledger = w.ledger := by
  induction p generalizing w with
  | done a => rfl
  | ask q next ih => exact (ih _).trans ledger_answer

/-! ## Units of work -/

/-- The world after identifiers were drawn. -/
def draw (w : World) (n : Nat) : World := { w with drawn := w.drawn + n }

@[simp] theorem draw_tables (n : Nat) : (w.draw n).tables = w.tables := rfl
@[simp] theorem draw_drawn (n : Nat) : (w.draw n).drawn = w.drawn + n := rfl

/-- Events in envelopes, their identifiers drawn from `drawn` on. -/
def envelop (supply : Nat → Uuid) (r : Relation) : (drawn version : Nat) → List RelationEvent →
    List RelationEnvelope
  | _, _, [] => []
  | drawn, version, event :: rest =>
    { eventId := supply drawn, tenant := r.tenant, aggregateId := r.id
      aggregateType := relationAggregateType
      sequenceNumber := version + 1, payload := event } ::
      envelop supply r (drawn + 1) (version + 1) rest

theorem carries_envelop (supply : Nat → Uuid) (r : Relation) (es : List RelationEvent) :
    ∀ drawn version, Carries r version es (envelop supply r drawn version es) := by
  induction es with
  | nil => exact fun _ _ => ⟨rfl, rfl, fun _ h => absurd h List.not_mem_nil⟩
  | cons e es ih =>
    intro drawn version
    obtain ⟨hpayloads, hnumbers, horigin⟩ := ih (drawn + 1) (version + 1)
    exact ⟨congrArg (e :: ·) hpayloads, congrArg ((version + 1) :: ·) hnumbers,
      List.forall_mem_cons.2 ⟨⟨rfl, rfl⟩, horigin⟩⟩

theorem run_envelop {r : Relation} {es : List RelationEvent} {version : Nat} :
    run supply (UnitOfWork.envelop r version es) w =
      (envelop supply r w.drawn version es, w.draw es.length) := by
  induction es generalizing version w with
  | nil => rfl
  | cons e es ih =>
    refine run_bind.trans (run_bind.trans ?_)
    rw [show (run supply (Query.ask (.freshId .event)) w) = (supply w.drawn, w.draw 1) from rfl, ih]
    simp only [draw, List.length_cons, Nat.add_comm es.length, ← Nat.add_assoc]
    rfl

theorem run_load (u : UnitOfWork) (key : RelationKey) :
    run supply (u.load key) w = (.ok (u.seen w.tables key, u.reach w.tables key), w) := by
  unfold UnitOfWork.load UnitOfWork.seen UnitOfWork.reach
  cases u.find? key with
  | some t => rfl
  | none =>
    refine run_bind.trans ?_
    rw [show run supply (Query.ask (.findByKey key)) w = (.ok (w.tables.find? key), w) from rfl]
    cases w.tables.find? key <;> rfl

/-- A refused command does nothing. -/
theorem run_execute_error {u : UnitOfWork} {r : Relation} {command : RelationCommand}
    {e : DomainError} (h : r.handle command = .error e) :
    run supply (u.execute r command) w = (.error e, w) := by
  rw [UnitOfWork.execute, h]
  rfl

theorem run_execute_ok {u : UnitOfWork} {r : Relation} {command : RelationCommand}
    {es : List RelationEvent} (h : r.handle command = .ok es) :
    run supply (u.execute r command) w = (.ok (r.applyAll es,
      u.record r es (envelop supply r w.drawn r.version es)), w.draw es.length) := by
  rw [UnitOfWork.execute, h]
  refine run_bind.trans ?_
  rw [run_envelop]
  rfl

theorem run_commit_ok {u : UnitOfWork} {t : Tables} (h : w.tables.commit u.changes = .ok t) :
    run supply u.commit w = (.ok u.events, { w with tables := t }) := by
  unfold UnitOfWork.commit
  split
  · next hnil =>
    rw [List.isEmpty_iff.1 hnil] at h
    cases h
    rfl
  · refine run_bind.trans ?_
    rw [show run supply (Query.ask (.commit u.changes)) w = (.ok (), { w with tables := t }) by
      simp [Query.ask, Program.call, run, answer, h]]
    rfl

theorem run_commit_error {u : UnitOfWork} {e : StoreError}
    (h : w.tables.commit u.changes = .error e) : run supply u.commit w = (.error e, w) := by
  unfold UnitOfWork.commit
  split
  · next hnil =>
    rw [List.isEmpty_iff.1 hnil] at h
    cases h
  · refine run_bind.trans ?_
    rw [show run supply (Query.ask (.commit u.changes)) w = (.error e, w) by
      simp [Query.ask, Program.call, run, answer, h]]
    rfl

end World

end PartnerRelations
