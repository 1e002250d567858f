/-
# `Store.Tables` — relations in memory

Two tables: the relations by identifier, and the identifiers by name.  `apply`
makes one change or says why it cannot be made; `commit` makes a batch of
changes one after the other on a copy, so a refused change leaves nothing
behind.  A refusal names the version found.
-/
import PartnerRelations.Store.Change
import PartnerRelations.Store.Table

namespace PartnerRelations

/-- The relations of all tenants. -/
structure Tables where
  relations : Table RelationId Relation
  keys : Table RelationKey RelationId
deriving Repr

namespace Tables

/-- No relations. -/
def empty : Tables := ⟨.empty, .empty⟩

/-- The version of a stored relation. -/
def currentVersion (t : Tables) (id : RelationId) : Except StoreError Nat :=
  match t.relations.get? id with
  | some relation => .ok relation.version
  | none => .error (.concurrency s!"relation {id.text} no longer exists")

/-- Refuse a relation that is gone or at another version than expected. -/
def ensureVersion (t : Tables) (id : RelationId) (expected : ExpectedVersion) :
    Except StoreError Unit := do
  let found ← t.currentVersion id
  if expected.admits found then .ok ()
  else .error (.concurrency s!"relation {id.text}: expected {expected.text}, found {found}")

/-- Make one change. -/
def apply (t : Tables) : RelationChange → Except StoreError Tables
  | .insert relation =>
    match t.keys.get? relation.key with
    | some _ => .error (.duplicateExternalId relation.tenant relation.externalId)
    | none => .ok
      { relations := t.relations.insert relation.id relation
        keys := t.keys.insert relation.key relation.id }
  | .update relation expected => do
    t.ensureVersion relation.id expected
    return { t with relations := t.relations.insert relation.id relation }
  | .delete id expected => do
    t.ensureVersion id expected
    match t.relations.get? id with
    | some removed =>
      return { relations := t.relations.erase id, keys := t.keys.erase removed.key }
    | none => return t

/-- Make a batch of changes, all or none. -/
def commit (t : Tables) (changes : List RelationChange) : Except StoreError Tables :=
  changes.foldlM apply t

/-! ## Reading -/

/-- The relation under a name. -/
def find? (t : Tables) (key : RelationKey) : Option Relation :=
  (t.keys.get? key).bind t.relations.get?

/-- A stage of a relation. -/
def findStage? (t : Tables) (id : RelationId) (stage : StageType) : Option RelationStage :=
  (t.relations.get? id).bind (·.stage stage)

end Tables

end PartnerRelations
