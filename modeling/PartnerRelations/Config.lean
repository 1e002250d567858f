/-
# `Config` — the configuration and where it comes from

Six settings are looked up by name.  A value is trimmed, and a blank value counts
as absent; every setting but the database has a default.  Reading stops at the
first value that cannot be read, in the order of `Setting`; only a configuration
whose values can all be read is checked for consistency.
-/
import PartnerRelations.Log.Format
import PartnerRelations.Service.Settings
import PartnerRelations.Text.Digits

namespace PartnerRelations

/-- What can be set. -/
inductive Setting where
  | databaseUrl
  | dbMaxConnections
  | maxPageSize
  | defaultPageSize
  | upsertRetries
  | logFormat
deriving DecidableEq, Repr

/-- The name that a setting is looked up under. -/
def Setting.key : Setting → String
  | .databaseUrl => "BPGATE_DATABASE_URL"
  | .dbMaxConnections => "BPGATE_DB_MAX_CONNECTIONS"
  | .maxPageSize => "BPGATE_MAX_PAGE_SIZE"
  | .defaultPageSize => "BPGATE_DEFAULT_PAGE_SIZE"
  | .upsertRetries => "BPGATE_UPSERT_RETRIES"
  | .logFormat => "BPGATE_LOG_FORMAT"

/-- Why a value cannot be read. -/
inductive ValueError where
  | noDigits
  | invalidDigit
  | tooLarge
  | unknownLogFormat (value : String)
deriving DecidableEq, Repr

/-- The text shown for a value that cannot be read. -/
def ValueError.message : ValueError → String
  | .noDigits => "cannot parse integer from empty string"
  | .invalidDigit => "invalid digit found in string"
  | .tooLarge => "number too large to fit in target type"
  | .unknownLogFormat value => LogFormat.unknownMessage value

/-- Why a configuration is refused. -/
inductive ConfigError where
  | invalidValue (setting : Setting) (value : String) (reason : ValueError)
  | emptyPages
  | defaultAboveMax (defaultSize maxSize : UInt32)
  | noConnections
deriving DecidableEq, Repr

/-- The text shown for a refused configuration. -/
def ConfigError.message : ConfigError → String
  | .invalidValue setting value reason =>
    s!"invalid value '{value}' for {setting.key}: {reason.message}"
  | .emptyPages => "page sizes must be positive"
  | .defaultAboveMax defaultSize maxSize =>
    let default_ := Setting.defaultPageSize.key
    let max_ := Setting.maxPageSize.key
    s!"{default_} ({defaultSize}) exceeds {max_} ({maxSize})"
  | .noConnections =>
    let connections := Setting.dbMaxConnections.key
    s!"{connections} must be positive"

/-- A configuration. -/
structure GateConfig where
  /-- Where the database is; without one, everything is kept in memory. -/
  databaseUrl : Option String
  dbMaxConnections : UInt32
  maxPageSize : UInt32
  defaultPageSize : UInt32
  upsertRetries : UInt32
  logFormat : LogFormat
deriving DecidableEq, Repr

/-! ## Reading values -/

/-- Read digits on from a number; the first bad digit or overflow ends it. -/
def readDigits (n : Nat) : List Char → Except ValueError UInt32
  | [] => .ok (UInt32.ofNat n)
  | c :: rest =>
    match Text.decimalValue? c with
    | none => .error .invalidDigit
    | some d =>
      if 10 * n + d < UInt32.size then readDigits (10 * n + d) rest else .error .tooLarge

/-- Read a 32-bit word: digits, after an optional plus sign. -/
def readWord (s : String) : Except ValueError UInt32 :=
  match s.toList with
  | [] => .error .noDigits
  | ['+'] => .error .invalidDigit
  | '+' :: rest => readDigits 0 rest
  | cs => readDigits 0 cs

/-- Read a log format. -/
def readLogFormat (s : String) : Except ValueError LogFormat :=
  (LogFormat.parse s).mapError .unknownLogFormat

namespace GateConfig

/-- In memory, five connections, pages of 50 and at most 1000, one retry, log
lines for machines. -/
def standard : GateConfig :=
  { databaseUrl := none, dbMaxConnections := 5, maxPageSize := 1000, defaultPageSize := 50
    upsertRetries := 1, logFormat := .json }

/-- Refuse sizes and numbers that do not fit together. -/
def validate (c : GateConfig) : Except ConfigError Unit :=
  if c.maxPageSize = 0 ∨ c.defaultPageSize = 0 then .error .emptyPages
  else if c.maxPageSize < c.defaultPageSize then
    .error (.defaultAboveMax c.defaultPageSize c.maxPageSize)
  else if c.dbMaxConnections = 0 then .error .noConnections
  else .ok ()

/-- The trimmed value of a setting, if it is there and not blank. -/
def value? (lookup : String → Option String) (setting : Setting) : Option String :=
  ((lookup setting.key).map Text.trim).filter (· ≠ "")

/-- The value of a setting as `read` reads it, or the default. -/
def valueOr {α : Type} (lookup : String → Option String) (setting : Setting)
    (read : String → Except ValueError α) (default_ : α) : Except ConfigError α :=
  match value? lookup setting with
  | none => .ok default_
  | some value => (read value).mapError (.invalidValue setting value)

/-- The configuration that has the values found by a look-up of names, whether they
fit together or not. -/
def readValues (lookup : String → Option String) : Except ConfigError GateConfig := do
  let dbMaxConnections ←
    valueOr lookup .dbMaxConnections readWord standard.dbMaxConnections
  let maxPageSize ← valueOr lookup .maxPageSize readWord standard.maxPageSize
  let defaultPageSize ← valueOr lookup .defaultPageSize readWord standard.defaultPageSize
  let upsertRetries ← valueOr lookup .upsertRetries readWord standard.upsertRetries
  let logFormat ← valueOr lookup .logFormat readLogFormat standard.logFormat
  return { databaseUrl := value? lookup .databaseUrl
           dbMaxConnections, maxPageSize, defaultPageSize, upsertRetries, logFormat }

/-- The configuration that a look-up of names gives. -/
def ofLookup (lookup : String → Option String) : Except ConfigError GateConfig := do
  let config ← readValues lookup
  config.validate
  return config

/-- The tunables of the service under a configuration. -/
def settings (c : GateConfig) : ServiceSettings :=
  ⟨c.maxPageSize, c.defaultPageSize, c.upsertRetries⟩

/-- The settings of the log under a configuration. -/
def logSettings (c : GateConfig) : LogSettings :=
  .ofFormat c.logFormat

/-- Where relations are kept. -/
inductive Backend where
  | inMemory
  | postgres
deriving DecidableEq, Repr

/-- The name of a backend. -/
def Backend.name : Backend → String
  | .inMemory => "in-memory"
  | .postgres => "postgres"

/-- The backend that a configuration selects. -/
def backend (c : GateConfig) : Backend :=
  if c.databaseUrl.isSome then .postgres else .inMemory

end GateConfig

end PartnerRelations
