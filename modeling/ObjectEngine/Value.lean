import ObjectEngine.Error
import ObjectEngine.Double.Shortest
import ObjectEngine.Time.Instant

/-!
# Values and documents

The values that callers exchange with the engine, each kind under its own tag, and the
documents that own them. A document holds its fields by name; its access control list is the
field `ACL`. A reference to another object is a `Pointer`; `Value.included` is a reference
that has been replaced by the whole object.
-/

namespace ObjectEngine

/-- A reference to one object of a class. -/
structure Pointer where
  className : String
  objectId : String
  deriving DecidableEq, Inhabited

/-- A position on the globe, in degrees. -/
structure GeoPoint where
  latitude : Double
  longitude : Double
  deriving DecidableEq, Inhabited

namespace GeoPoint

/-- A finite number whose magnitude is at most `bound`. -/
def inBounds (bound : Nat) (x : Double) : Bool :=
  x.isFinite && (Double.ofInt (-(bound : Int))).le x && x.le (Double.ofInt bound)

/-- Refuses a latitude beyond 90 degrees or a longitude beyond 180. -/
def validate (p : GeoPoint) : Outcome Unit :=
  if !inBounds 90 p.latitude then
    .error (.schemaViolation s!"GeoPoint latitude {p.latitude.plain} out of bounds")
  else if !inBounds 180 p.longitude then
    .error (.schemaViolation s!"GeoPoint longitude {p.longitude.plain} out of bounds")
  else .ok ()

end GeoPoint

/-- What one subject of an access control list may do. -/
structure Grant where
  read : Bool
  write : Bool
  deriving DecidableEq, Inhabited

/-- An access control list: what each subject (`*`, a user id or `role:` and a name) may
do. -/
structure Acl where
  entries : Members Grant
  deriving DecidableEq, Inhabited

namespace Acl

/-- The list that grants nothing. -/
def empty : Acl := ⟨[]⟩

/-- Sets what a subject may do; granting neither removes its entry. -/
def grant (subject : String) (read write : Bool) (acl : Acl) : Acl :=
  if read || write then ⟨Members.insert subject ⟨read, write⟩ acl.entries⟩
  else ⟨Members.erase subject acl.entries⟩

/-- The list that grants everyone everything. -/
def everyone : Acl := grant "*" true true empty

/-- The subjects that may read. -/
def readers (acl : Acl) : List String :=
  (acl.entries.filter fun e => e.2.read).map Prod.fst

/-- The subjects that may write. -/
def writers (acl : Acl) : List String :=
  (acl.entries.filter fun e => e.2.write).map Prod.fst

end Acl

/-- A value of a kind the engine does not interpret, kept as it is. -/
structure RawValue where
  kind : String
  bytes : List UInt8
  deriving DecidableEq, Inhabited

/-- An object of a class, over the type of its field values. -/
structure DocumentOf (α : Type) where
  className : String
  objectId : String
  createdAt : Option Instant
  updatedAt : Option Instant
  fields : List (String × α)
  deriving Inhabited

/-- A value. -/
inductive Value
  | null
  | bool (b : Bool)
  | int (n : Int64)
  | float (x : Double)
  | string (s : String)
  | date (t : Instant)
  /-- Bytes, given by their base-64 text. -/
  | bytes (base64 : String)
  | pointer (p : Pointer)
  /-- The set of related objects of a class. -/
  | relation (className : String)
  | geoPoint (p : GeoPoint)
  /-- A ring of points, kept as given. -/
  | polygon (ring : List GeoPoint)
  /-- A file, by its name. -/
  | file (name : String)
  | acl (acl : Acl)
  | array (items : List Value)
  | object (members : List (String × Value))
  /-- A reference replaced by the object it refers to. -/
  | included (document : DocumentOf Value)
  | raw (value : RawValue)
  deriving Inhabited

/-- An object of a class. -/
abbrev Document := DocumentOf Value

namespace Document

/-- The reference to a document. -/
def pointer {α : Type} (d : DocumentOf α) : Pointer := ⟨d.className, d.objectId⟩

end Document

namespace Value

/-- The name of a value's kind in error texts. -/
def typeName : Value → String
  | .null => "Null"
  | .bool _ => "Boolean"
  | .int _ | .float _ => "Number"
  | .string _ => "String"
  | .date _ => "Date"
  | .bytes _ => "Bytes"
  | .pointer _ => "Pointer"
  | .relation _ => "Relation"
  | .geoPoint _ => "GeoPoint"
  | .polygon _ => "Polygon"
  | .file _ => "File"
  | .acl _ => "ACL"
  | .array _ => "Array"
  | .object _ => "Object"
  | .included _ => "Object"
  | .raw _ => "Raw"

/-- Whether the value is `null`. -/
def isNull : Value → Bool
  | .null => true
  | _ => false

/-- The text, if the value is one. -/
def asString? : Value → Option String
  | .string s => some s
  | _ => none

/-- The number as a double, if the value is a number. -/
def asDouble? : Value → Option Double
  | .int n => some (Double.ofInt n.toInt)
  | .float x => some x
  | _ => none

/-- The reference that a value is or stands for. -/
def asPointer? : Value → Option Pointer
  | .pointer p => some p
  | .included d => some (Document.pointer d)
  | _ => none

end Value

end ObjectEngine
