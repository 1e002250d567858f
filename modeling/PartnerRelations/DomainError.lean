/-
# `DomainError` — why a rule of the domain refuses something

Refusals of the deterministic rules: a value that is not valid, a broken
invariant, an identifier that cannot be read, something absent, a conflict.
Storage and lookup failures have types of their own.
-/

namespace PartnerRelations

/-- A refusal by a rule of the domain, with its reason. -/
inductive DomainError where
  | validation (reason : String)
  | invariantViolation (reason : String)
  | invalidId (reason : String)
  | notFound
  | conflict (reason : String)
deriving DecidableEq, Repr

/-- The text shown for a refusal. -/
def DomainError.message : DomainError → String
  | .validation reason => s!"validation failed: {reason}"
  | .invariantViolation reason => s!"invariant violated: {reason}"
  | .invalidId reason => s!"invalid identifier: {reason}"
  | .notFound => "not found"
  | .conflict reason => s!"conflict: {reason}"

end PartnerRelations
