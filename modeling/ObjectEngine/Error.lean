import ObjectEngine.Members

/-!
# Errors

The kinds of failure of the engine. Errors of planning (schema, type, key and query
errors) are raised before a store is called; the store adds its own, with a code and a text.
`EngineError.message` is the one place where their wording is put together, and
`EngineError.sanitized` the form that an untrusted caller may see.
-/

namespace ObjectEngine

/-- A failure. -/
inductive EngineError
  /-- A field or value the schema does not allow. -/
  | schemaViolation (text : String)
  /-- A value that does not have the declared type of its field. -/
  | typeMismatch (field expected actual : String)
  /-- A malformed, hidden or read-only field name. -/
  | invalidKeyName (text : String)
  /-- A malformed filter, update or value. -/
  | invalidQuery (text : String)
  /-- The caller's permissions do not suffice. -/
  | permissionDenied (text : String)
  /-- A query ran past its time limit. -/
  | timeLimitExceeded (limitMs : Nat)
  /-- Stored data that cannot be read. -/
  | dataCorruption (text : String)
  /-- A failure of the store that may pass when the work is repeated. -/
  | transientStore (text : String)
  /-- A key that is already taken. -/
  | duplicate (text : String)
  /-- A class without a schema. -/
  | classNotFound (className : String)
  /-- No object was there to work on. -/
  | objectNotFound
  /-- Any other failure of the store. -/
  | store (code : Int) (text : String)
  /-- A configuration that does not hold. -/
  | invalidConfig (text : String)
  deriving DecidableEq, Inhabited

/-- The outcome of work that can fail. -/
abbrev Outcome (α : Type) := Except EngineError α

namespace EngineError

/-- The text shown for an error. -/
def message : EngineError → String
  | .schemaViolation text => s!"schema violation: {text}"
  | .typeMismatch field expected actual =>
    s!"type mismatch on '{field}': expected {expected}, got {actual}"
  | .invalidKeyName text => s!"invalid key name: {text}"
  | .invalidQuery text => s!"invalid query: {text}"
  | .permissionDenied text => s!"permission denied: {text}"
  | .timeLimitExceeded limitMs => s!"operation exceeded time limit of {limitMs}ms"
  | .dataCorruption text => s!"data corruption: {text}"
  | .transientStore text => s!"transient store error: {text}"
  | .duplicate text => s!"duplicate value: {text}"
  | .classNotFound className => s!"class {className} does not exist"
  | .objectNotFound => "object not found"
  | .store code text => s!"store error {code}: {text}"
  | .invalidConfig text => s!"invalid configuration: {text}"

/-- The number of an error in the wire protocol. -/
def code : EngineError → Int
  | .schemaViolation _ | .typeMismatch .. => 111
  | .invalidKeyName _ => 105
  | .invalidQuery _ => 102
  | .permissionDenied _ => 119
  | .timeLimitExceeded _ => 50
  | .duplicate _ => 137
  | .classNotFound _ => 103
  | .objectNotFound => 101
  | .store code _ => code
  | .dataCorruption _ | .transientStore _ | .invalidConfig _ => 1

/-- The name of the kind of an error. -/
def kind : EngineError → String
  | .schemaViolation _ => "SchemaViolation"
  | .typeMismatch .. => "TypeMismatch"
  | .invalidKeyName _ => "InvalidKeyName"
  | .invalidQuery _ => "InvalidQuery"
  | .permissionDenied _ => "PermissionDenied"
  | .timeLimitExceeded _ => "OperationExceededTimeLimit"
  | .dataCorruption _ => "DataCorruption"
  | .transientStore _ => "TransientStore"
  | .duplicate _ => "Duplicate"
  | .classNotFound _ => "ClassNotFound"
  | .objectNotFound => "ObjectNotFound"
  | .store .. => "Store"
  | .invalidConfig _ => "InvalidConfig"

/-- Names the field of a type mismatch that has none yet. -/
def inField (field : String) : EngineError → EngineError
  | .typeMismatch "" expected actual => .typeMismatch field expected actual
  | e => e

/-- Whether a transaction may be tried again after this error. -/
def isTransient : EngineError → Bool
  | .transientStore _ => true
  | _ => false

/-- The form an untrusted caller may see: permission and store errors lose their detail. -/
def sanitized (enabled : Bool) (e : EngineError) : EngineError :=
  if enabled then
    match e with
    | .permissionDenied _ => .permissionDenied "Permission denied"
    | .store .. => .store 1 "Internal server error"
    | e => e
  else e

end EngineError

namespace Outcome

variable {α : Type}

/-- Names the field in the error of an outcome, if it lacks one. -/
def inField (field : String) : Outcome α → Outcome α
  | .ok a => .ok a
  | .error e => .error (e.inField field)

/-- The value, or an error in place of nothing. -/
def ofOption (e : EngineError) : Option α → Outcome α
  | some a => .ok a
  | none => .error e

end Outcome

end ObjectEngine
