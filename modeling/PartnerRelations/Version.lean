/-
# `Version` — optimistic concurrency

A relation's version counts the events applied to it.  A writer says which
version it read, or that it does not care.
-/
import PartnerRelations.DomainError

namespace PartnerRelations

/-- The version a writer expects to replace. -/
inductive ExpectedVersion where
  | any
  | exact (version : Nat)
deriving DecidableEq, Repr

namespace ExpectedVersion

/-- The expectation holds of the version found. -/
def admits : ExpectedVersion → Nat → Bool
  | .any, _ => true
  | .exact version, actual => version == actual

/-- The text of an expectation in messages. -/
def text : ExpectedVersion → String
  | .any => "Any"
  | .exact version => s!"Exact({version})"

/-- Refuse a version that does not meet the expectation. -/
def check (expected : ExpectedVersion) (actual : Nat) : Except DomainError Unit :=
  if expected.admits actual then .ok ()
  else .error (.conflict
    s!"optimistic concurrency check failed (expected: {expected.text}, actual: {actual})")

end ExpectedVersion

end PartnerRelations
