/-
# `Proofs.Program.Surroundings` — what surroundings promise, and where a program leads

A `Program` decides nothing about how its requests are answered.
`Surroundings` say it: in a state, a request is met, and `meets` tells what has
to hold beforehand so that every possible answer, with the state after it, has a
wanted property.  A condition in `meets` that the asking side must provide is an
obligation of the program (it may commit only what it can account for); a
hypothesis on the answer is a promise of the surroundings.

    Leads S post p s    from state `s`, among surroundings `S`, every way to
                        answer `p` meets all obligations and ends in `post`

`Leads` follows the program's own recursion, so `leads_bind` cuts a proof about
a dialogue at its binds, and `leads_mono` weakens what is asked of the end.  The
second half is the same for computations that may fail (`Call.Leads`), with one
condition for a value and one for a failure.
-/
import PartnerRelations.Service.Request

namespace PartnerRelations

/-- Surroundings with states in `σ`: what must hold of a state so that a request
made in it has an outcome with a given property. -/
structure Surroundings {ρ : Type} (answer : ρ → Type) (σ : Type) where
  meets : (request : ρ) → (answer request → σ → Prop) → σ → Prop
  meets_mono : ∀ {request : ρ} {wanted wanted' : answer request → σ → Prop} {s : σ},
    (∀ x s', wanted x s' → wanted' x s') → meets request wanted s → meets request wanted' s

namespace Program

variable {ρ σ : Type} {answer : ρ → Type} {α β : Type} {S : Surroundings answer σ}

/-- However it is answered, the program keeps its obligations and ends in `post`. -/
def Leads (S : Surroundings answer σ) (post : α → σ → Prop) : Program answer α → σ → Prop
  | .done a => post a
  | .ask request next => S.meets request fun x => (next x).Leads S post

@[simp] theorem leads_done {post : α → σ → Prop} {a : α} {s : σ} :
    (Program.done a : Program answer α).Leads S post s ↔ post a s := Iff.rfl

theorem leads_mono {post post' : α → σ → Prop} (h : ∀ a s, post a s → post' a s)
    {p : Program answer α} : ∀ {s : σ}, p.Leads S post s → p.Leads S post' s := by
  induction p with
  | done a =>
    intro _ hp
    exact h _ _ hp
  | ask request next ih =>
    intro _ hp
    exact S.meets_mono (fun x _ => ih x) hp

theorem leads_bind {post : β → σ → Prop} {p : Program answer α} {f : α → Program answer β} :
    ∀ {s : σ}, (p.bind f).Leads S post s ↔ p.Leads S (fun a => (f a).Leads S post) s := by
  induction p with
  | done a => exact Iff.rfl
  | ask request next ih =>
    intro s
    exact ⟨S.meets_mono fun x _ => (ih x).1, S.meets_mono fun x _ => (ih x).2⟩

end Program

/-! ## Computations that may fail -/

namespace Call

variable {σ α β : Type} {S : Surroundings Query.Answer σ}

/-- However it is answered, the call keeps its obligations and ends with a value
in `ok` or with a failure in `err`. -/
def Leads (S : Surroundings Query.Answer σ) (ok : α → σ → Prop) (err : RelationError → σ → Prop)
    (c : Call α) (s : σ) : Prop :=
  Program.Leads S (fun outcome s =>
    match outcome with
    | .ok a => ok a s
    | .error e => err e s) c.run s

variable {ok : α → σ → Prop} {err : RelationError → σ → Prop} {s : σ}

theorem leads_mono {ok' : α → σ → Prop} {err' : RelationError → σ → Prop} {c : Call α}
    (hok : ∀ a s, ok a s → ok' a s) (herr : ∀ e s, err e s → err' e s)
    (h : c.Leads S ok err s) : c.Leads S ok' err' s := by
  refine Program.leads_mono ?_ h
  rintro (e | a) s' hs
  · exact herr e s' hs
  · exact hok a s' hs

theorem leads_bind {ok : β → σ → Prop} {c : Call α} {f : α → Call β} :
    (c >>= f).Leads S ok err s ↔ c.Leads S (fun a => (f a).Leads S ok err) err s := by
  refine Program.leads_bind.trans ⟨Program.leads_mono ?_, Program.leads_mono ?_⟩ <;>
    · rintro (e | a) s' hs <;> exact hs

theorem leads_mk {p : Dialogue (Except RelationError α)} :
    Leads S ok err (ExceptT.mk p) s ↔ p.Leads S (fun outcome s =>
      match outcome with
      | .ok a => ok a s
      | .error e => err e s) s := Iff.rfl

theorem leads_lift {p : Dialogue α} :
    Leads S ok err (ExceptT.lift p) s ↔ p.Leads S ok s := Program.leads_bind

theorem leads_orFail {ε : Type} {wrap : ε → RelationError} {p : Dialogue (Except ε α)} :
    (orFail wrap p).Leads S ok err s ↔ p.Leads S (fun outcome s =>
      match outcome with
      | .ok a => ok a s
      | .error e => err (wrap e) s) s := by
  refine Program.leads_bind.trans ⟨Program.leads_mono ?_, Program.leads_mono ?_⟩ <;>
    · rintro (e | a) s' hs <;> exact hs

theorem leads_ofExcept {outcome : Except RelationError α} :
    (ofExcept outcome).Leads S ok err s ↔
      match outcome with
      | .ok a => ok a s
      | .error e => err e s := Iff.rfl

theorem leads_now {ok : Instant → σ → Prop} :
    now.Leads S ok err s ↔ S.meets .now ok s := leads_lift

theorem leads_freshId {use : IdUse} {ok : Uuid → σ → Prop} :
    (freshId use).Leads S ok err s ↔ S.meets (.freshId use) ok s := leads_lift

theorem leads_log {event : LogEvent} {ok : Unit → σ → Prop} :
    (log event).Leads S ok err s ↔ S.meets (.log event) ok s := leads_lift

/-- A reported call ends as the call does; a failure is logged on the way. -/
theorem leads_reported {c : Call α} :
    c.reported.Leads S ok err s ↔
      c.Leads S ok (fun e => S.meets (.log (.callFailed e)) fun _ => err e) s := by
  refine Program.leads_bind.trans ⟨Program.leads_mono ?_, Program.leads_mono ?_⟩ <;>
    · rintro (e | a) s' hs <;> exact hs

end Call

end PartnerRelations
