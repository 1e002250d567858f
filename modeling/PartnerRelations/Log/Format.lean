/-
# `Log.Format` — settings of the log

Log lines are written for machines or for people, and a filter says which events
appear when nothing else does.
-/
import PartnerRelations.Enumeration
import PartnerRelations.Text.Blank

namespace PartnerRelations

/-- The form of log lines. -/
inductive LogFormat where
  | json
  | pretty
deriving DecidableEq, Repr

/-- The name of a log format. -/
def LogFormat.name : LogFormat → String
  | .json => "json"
  | .pretty => "pretty"

instance : Enumeration LogFormat where
  all := [.json, .pretty]
  name := LogFormat.name
  noun := "log format"

namespace LogFormat

/-- The text that a log format is looked up under: trimmed, and ASCII letters in
lower case. -/
def normalize (s : String) : String :=
  String.ofList ((Text.trimChars s.toList).map Char.toLower)

/-- Read a log format, whatever the case of its ASCII letters; a text that is
none is given back as it was looked up. -/
def parse (s : String) : Except String LogFormat :=
  match (Enumeration.ofName? (normalize s) : Option LogFormat) with
  | some format => .ok format
  | none => .error (normalize s)

/-- The text shown for a log format that there is not. -/
def unknownMessage (s : String) : String :=
  s!"unknown log format '{s}', expected 'json' or 'pretty'"

end LogFormat

/-- Settings of the log. -/
structure LogSettings where
  format : LogFormat
  defaultFilter : String
deriving DecidableEq, Repr

/-- The settings with a given format: informative events and above. -/
def LogSettings.ofFormat (format : LogFormat) : LogSettings :=
  ⟨format, "info"⟩

end PartnerRelations
