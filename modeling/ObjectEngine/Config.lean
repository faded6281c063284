import ObjectEngine.Error
import ObjectEngine.Event
import ObjectEngine.Json.Reader
import ObjectEngine.Json.Record

/-!
# Configuration

The settings of an engine, read from a JSON text. Settings that are not given take their
defaults, and unknown ones are passed over. Settings that parse are checked: batches of
included objects hold at least one, a time limit is positive, and log levels are known.
-/

namespace ObjectEngine

/-- Which of the default indexes are created. -/
structure DefaultIndexes where
  userUsername : Bool := true
  userUsernameCaseInsensitive : Bool := true
  userEmail : Bool := true
  userEmailCaseInsensitive : Bool := true
  userEmailVerifyToken : Bool := true
  userPasswordResetToken : Bool := true
  roleName : Bool := true
  deriving DecidableEq, Inhabited

/-- The settings of an engine. -/
structure Config where
  databaseUri : String := ""
  /-- The time limit of queries. -/
  maxTimeMs : Option Nat := none
  /-- How long a schema is cached; `0` turns caching off. -/
  schemaCacheTtlMs : Nat := 5000
  indexes : DefaultIndexes := {}
  loggedEvents : List LoggedEvent := []
  /-- Whether callers without privilege may use scripts. -/
  allowSandboxedExpressions : Bool := false
  /-- Whether errors are reduced to what callers may see. -/
  sanitizeErrors : Bool := true
  /-- The most ids in one fetch of included objects. -/
  includeBatchSize : Nat := 1000
  /-- How often a transaction is tried again after a transient error. -/
  transactionRetryLimit : Nat := 5
  deriving DecidableEq, Inhabited

namespace DefaultIndexes

/-- The names of the flags. -/
def names : List String :=
  ["createIndexUserUsername", "createIndexUserUsernameCaseInsensitive", "createIndexUserEmail",
   "createIndexUserEmailCaseInsensitive", "createIndexUserEmailVerifyToken",
   "createIndexUserPasswordResetToken", "createIndexRoleName"]

/-- Reads the flags. -/
def ofJson? (j : Json) : Option DefaultIndexes := do
  match ← (← j.record? names).mapM (Json.orElse true Json.asBool?) with
  | [a, b, c, d, e, f, g] => some ⟨a, b, c, d, e, f, g⟩
  | _ => none

end DefaultIndexes

/-- Reads an event to log. -/
def LoggedEvent.ofJson? (j : Json) : Option LoggedEvent := do
  match ← j.record? ["name", "keys", "level"] with
  | [some name, keys, level] =>
    some {
      name := ← name.asString?
      keys := ← Json.orElse none (Json.nullable? (Json.list? Json.asString?)) keys
      level := ← Json.orElse "info" Json.asString? level }
  | _ => none

namespace Config

/-- The names of the settings. -/
def names : List String :=
  ["databaseUri", "maxTimeMs", "schemaCacheTtlMs", "indexes", "loggedEvents",
   "allowSandboxedExpressions", "sanitizeErrors", "includeBatchSize", "transactionRetryLimit"]

/-- Reads the settings. -/
def ofJson? (j : Json) : Option Config := do
  match ← j.record? names with
  | [uri, maxTime, ttl, indexes, events, scripts, sanitize, batch, retries] =>
    some {
      databaseUri := ← Json.orElse "" Json.asString? uri
      maxTimeMs := ← Json.orElse none (Json.nullable? (Json.natBelow? UInt64.size)) maxTime
      schemaCacheTtlMs := ← Json.orElse 5000 (Json.natBelow? UInt64.size) ttl
      indexes := ← Json.orElse {} DefaultIndexes.ofJson? indexes
      loggedEvents := ← Json.orElse [] (Json.list? LoggedEvent.ofJson?) events
      allowSandboxedExpressions := ← Json.orElse false Json.asBool? scripts
      sanitizeErrors := ← Json.orElse true Json.asBool? sanitize
      includeBatchSize := ← Json.orElse 1000 (Json.natBelow? UInt64.size) batch
      transactionRetryLimit := ← Json.orElse 5 (Json.natBelow? UInt32.size) retries }
  | _ => none

/-- Refuses settings that cannot work. -/
def validate (config : Config) : Outcome Unit :=
  if config.includeBatchSize = 0 then
    .error (.invalidConfig "includeBatchSize must be at least 1")
  else if config.maxTimeMs = some 0 then .error (.invalidConfig "maxTimeMs must be positive")
  else match config.loggedEvents.find? fun e => !logLevels.contains e.level with
    | some e => .error (.invalidConfig s!"unknown log level '{e.level}' for event {e.name}")
    | none => .ok ()

/-- The settings of a JSON text. -/
def ofText (text : String) : Outcome Config := do
  let config ← Outcome.ofOption (.invalidConfig "*") ((Json.readAsWritten? text).bind ofJson?)
  config.validate
  return config

end Config

end ObjectEngine
