/-
# `Proofs.Relation.Keeping` — what a relation keeps until it is deleted

A relation that is there keeps its identifier, its name and the moment of its creation,
whatever it is told except to be deleted.  It also keeps its stage: none is added, none is
taken away, and the one that it has keeps its owner, its kind and the moment of its own
creation (`RelationStage.frame`).

    Keeps r r'        `r'` has all of these as `r` has them
    keeps_obeyAll     a relation that is there keeps them through any commands but a deletion

Whoever writes a relation over an older state of it may rest on this, and leave alone what is
kept.
-/
import PartnerRelations.Proofs.Relation.Coherence

namespace PartnerRelations

namespace RelationStage

variable {stage stage' : RelationStage} {id : RelationId}

/-- What no command changes about a stage. -/
def frame (stage : RelationStage) : RelationId × StageType × Instant :=
  (stage.relationId, stage.stage, stage.createdAt)

/-- The stage is the input stage of a relation. -/
structure InputOf (stage : RelationStage) (id : RelationId) : Prop where
  owner : stage.relationId = id
  kind : stage.stage = .input

theorem InputOf.of_frame (h : stage.InputOf id) (hframe : stage'.frame = stage.frame) :
    stage'.InputOf id where
  owner := (congrArg (·.1) hframe).trans h.owner
  kind := (congrArg (·.2.1) hframe).trans h.kind

end RelationStage

namespace Relation

/-- The relation is there, and its stage is its own and an input. -/
structure Rooted (r : Relation) : Prop where
  live : r.isCreated = true
  input : ∀ stage ∈ r.input, stage.InputOf r.id

/-- What no command but a deletion changes about a relation that is there. -/
structure Keeps (r r' : Relation) : Prop where
  id : r'.id = r.id
  key : r'.key = r.key
  createdAt : r'.createdAt = r.createdAt
  input : r'.input.map (·.frame) = r.input.map (·.frame)

variable {r r' r'' : Relation} {es : List RelationEvent} {command : RelationCommand}

namespace Keeps

theorem refl (r : Relation) : r.Keeps r where
  id := rfl
  key := rfl
  createdAt := rfl
  input := rfl

theorem trans (h : r.Keeps r') (h' : r'.Keeps r'') : r.Keeps r'' where
  id := h'.id.trans h.id
  key := h'.key.trans h.key
  createdAt := h'.createdAt.trans h.createdAt
  input := h'.input.trans h.input

theorem applyAll (h : ∀ e ∈ es, ∀ r : Relation, r.Keeps (r.apply e)) : r.Keeps (r.applyAll es) := by
  induction es generalizing r with
  | nil => exact refl r
  | cons e es ih =>
    obtain ⟨he, hes⟩ := List.forall_mem_cons.1 h
    exact (he r).trans (ih hes)

/-- A stage that is kept was there before, with the same frame. -/
theorem exists_stage (h : r.Keeps r') {stage : RelationStage} (hstage : stage ∈ r'.input) :
    ∃ first ∈ r.input, stage.frame = first.frame := by
  have hframe : stage.frame ∈ r'.input.map (·.frame) := Option.mem_map_of_mem _ hstage
  rw [h.input] at hframe
  obtain ⟨first, hfirst, heq⟩ := Option.map_eq_some_iff.1 hframe
  exact ⟨first, hfirst, heq.symm⟩

end Keeps

/-- An update of the input leaves the frame of the stage. -/
theorem keeps_apply_updated (r : Relation) (id : RelationId) (relationType : RelationType)
    (source target : ResolvedPartner) (at_ : Instant) :
    r.Keeps (r.apply (.inputUpdated id relationType source target at_)) where
  id := rfl
  key := rfl
  createdAt := rfl
  input := Option.map_map ..

/-- An accepted command that is not a deletion keeps a relation that is there. -/
theorem keeps_of_handle (h : r.handle command = .ok es) (hr : r.isCreated = true)
    (hc : command.isDelete = false) : r.Keeps (r.applyAll es) := by
  refine Keeps.applyAll fun e he r' => ?_
  cases listed_of_handle h e he with
  | created hnew => simp [(isCreated_iff.1 hr).1] at hnew
  | deleted => cases hc
  | updated => exact keeps_apply_updated ..
  | _ => exact ⟨rfl, rfl, rfl, rfl⟩

/-- A relation that is there is kept, and stays there, through any commands but a deletion. -/
theorem keeps_obeyAll {commands : List RelationCommand} (hr : r.isCreated = true)
    (hcommands : ∀ command ∈ commands, command.isDelete = false) :
    r.Keeps (r.obeyAll commands).1 ∧ (r.obeyAll commands).1.isCreated = true := by
  induction commands using List.reverseRecOn with
  | nil => exact ⟨.refl r, hr⟩
  | append_singleton commands command ih =>
    obtain ⟨hkeeps, hlive⟩ := ih fun c hc => hcommands c (List.mem_append_left _ hc)
    have hcommand := hcommands command List.mem_concat_self
    rw [obeyAll_concat]
    obtain ⟨es, hes, h⟩ | h := obey_cases (r.obeyAll commands) command <;> rw [h]
    · exact ⟨hkeeps.trans (keeps_of_handle hes hlive hcommand),
        isCreated_applyAll_of_handle hes (isCreated_iff.1 hlive).2 hcommand⟩
    · exact ⟨hkeeps, hlive⟩

theorem Rooted.obeyAll {commands : List RelationCommand} (hr : r.Rooted)
    (hcommands : ∀ command ∈ commands, command.isDelete = false) :
    (r.obeyAll commands).1.Rooted := by
  obtain ⟨hkeeps, hlive⟩ := keeps_obeyAll hr.live hcommands
  refine ⟨hlive, fun stage hstage => ?_⟩
  obtain ⟨first, hfirst, hframe⟩ := hkeeps.exists_stage hstage
  rw [hkeeps.id]
  exact (hr.input first hfirst).of_frame hframe

end Relation

end PartnerRelations
