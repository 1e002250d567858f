/-
# `Program` — computations that ask

A program either has its value or asks its surroundings something and goes on
with the answer.  What can be asked is a type of requests, and each request says
what type its answer has.  A program decides nothing about how it is answered:
`run` lets any monad answer, and other readings (answers that fail, answers of
several programs taken turn by turn) are readings of the same definition.
-/

namespace PartnerRelations

/-- A computation with values of type `α` that may ask requests of type `ρ`. -/
inductive Program {ρ : Type} (answer : ρ → Type) (α : Type) where
  | done (value : α)
  | ask (request : ρ) (next : answer request → Program answer α)

namespace Program

variable {ρ : Type} {answer : ρ → Type} {α β : Type}

/-- Go on with the value of a program. -/
def bind : Program answer α → (α → Program answer β) → Program answer β
  | .done a, f => f a
  | .ask request next, f => .ask request fun x => (next x).bind f

instance : Monad (Program answer) where
  pure := .done
  bind := bind

/-- Ask one request. -/
def call (request : ρ) : Program answer (answer request) :=
  .ask request .done

/-- Run a program, its requests answered in a monad. -/
def run {m : Type → Type} [Monad m] (respond : (request : ρ) → m (answer request)) :
    Program answer α → m α
  | .done a => pure a
  | .ask request next => do
    let x ← respond request
    (next x).run respond

@[simp] theorem bind_done (a : α) (f : α → Program answer β) :
    (Program.done a : Program answer α).bind f = f a := rfl

@[simp] theorem bind_ask (request : ρ) (next : answer request → Program answer α)
    (f : α → Program answer β) :
    (Program.ask request next).bind f = .ask request fun x => (next x).bind f := rfl

theorem bind_done_right (p : Program answer α) : p.bind .done = p := by
  induction p with
  | done a => rfl
  | ask request next ih => rw [bind_ask]; congr 1; funext x; exact ih x

theorem bind_assoc {γ : Type} (p : Program answer α) (f : α → Program answer β)
    (g : β → Program answer γ) : (p.bind f).bind g = p.bind fun a => (f a).bind g := by
  induction p with
  | done a => rfl
  | ask request next ih => simp only [bind_ask]; congr 1; funext x; exact ih x

instance : LawfulMonad (Program answer) :=
  LawfulMonad.mk' _ bind_done_right (fun _ _ => rfl) bind_assoc

end Program

end PartnerRelations
