import ObjectEngine.Double
import ObjectEngine.Error
import ObjectEngine.Text.Split
import ObjectEngine.Time.Instant

/-!
# Stored data

What the document store holds: records, which are maps from keys to data, nested to any
depth. `Record.get?` reads at a dotted path; arrays are not entered there.
-/

namespace ObjectEngine

/-- A stored value. -/
inductive Datum
  | null
  | bool (b : Bool)
  | int (n : Int64)
  | double (x : Double)
  | string (s : String)
  | date (t : Instant)
  | binary (bytes : List UInt8)
  | array (items : List Datum)
  | record (members : List (String × Datum))
  /-- A kind of value without a constructor of its own. -/
  | extended (kind : String) (bytes : List UInt8)
  deriving Inhabited

/-- A stored document. -/
abbrev Record := Members Datum

namespace Datum

/-- The name of a value's kind in the store's error texts. -/
def typeName : Datum → String
  | .null => "null"
  | .bool _ => "bool"
  | .int _ => "long"
  | .double _ => "double"
  | .string _ => "string"
  | .date _ => "date"
  | .binary _ => "binData"
  | .array _ => "array"
  | .record _ => "object"
  | .extended .. => "extended"

/-- The text, if the value is one. -/
def asString? : Datum → Option String
  | .string s => some s
  | _ => none

/-- The number as a double, if the value is a number. -/
def asDouble? : Datum → Option Double
  | .int n => some (Double.ofInt n.toInt)
  | .double x => some x
  | _ => none

/-- Whether the value is a record. -/
def isRecord : Datum → Bool
  | .record _ => true
  | _ => false

mutual

/-- Equality of kind and content; doubles are equal as numbers, so NaN equals nothing. -/
def same : Datum → Datum → Bool
  | .null, .null => true
  | .bool a, .bool b => a = b
  | .int a, .int b => a = b
  | .double a, .double b => a.same b
  | .string a, .string b => a = b
  | .date a, .date b => a = b
  | .binary a, .binary b => a = b
  | .array a, .array b => sameItems a b
  | .record a, .record b => sameMembers a b
  | .extended k a, .extended l b => k = l && a = b
  | _, _ => false

/-- Equality of arrays, item by item. -/
def sameItems : List Datum → List Datum → Bool
  | [], [] => true
  | a :: as, b :: bs => a.same b && sameItems as bs
  | _, _ => false

/-- Equality of records, member by member. -/
def sameMembers : List (String × Datum) → List (String × Datum) → Bool
  | [], [] => true
  | (k, a) :: as, (l, b) :: bs => k = l && a.same b && sameMembers as bs
  | _, _ => false

end

mutual

/-- Equality as written: of kind, content and the bits of doubles, except that NaNs are
equal to each other. -/
def identical : Datum → Datum → Bool
  | .null, .null => true
  | .bool a, .bool b => a = b
  | .int a, .int b => a = b
  | .double a, .double b => a = b || (a.isNaN && b.isNaN)
  | .string a, .string b => a = b
  | .date a, .date b => a = b
  | .binary a, .binary b => a = b
  | .array a, .array b => identicalItems a b
  | .record a, .record b => identicalMembers a b
  | .extended k a, .extended l b => k = l && a = b
  | _, _ => false

/-- Equality as written of arrays. -/
def identicalItems : List Datum → List Datum → Bool
  | [], [] => true
  | a :: as, b :: bs => a.identical b && identicalItems as bs
  | _, _ => false

/-- Equality as written of records. -/
def identicalMembers : List (String × Datum) → List (String × Datum) → Bool
  | [], [] => true
  | (k, a) :: as, (l, b) :: bs => k = l && a.identical b && identicalMembers as bs
  | _, _ => false

end

/-- Equality of two optional values. -/
def sameOption : Option Datum → Option Datum → Bool
  | none, none => true
  | some a, some b => a.same b
  | _, _ => false

/-- Reads along path segments; only records are entered. -/
def getAlong? : List String → Datum → Option Datum
  | [], d => some d
  | s :: rest, .record members => (members.lookup s).bind (getAlong? rest)
  | _ :: _, _ => none

end Datum

namespace Record

/-- Reads at a dotted path; arrays are not entered. -/
def get? (record : Record) (path : String) : Option Datum :=
  Datum.getAlong? (Text.split '.' path) (.record record)

/-- The text under a key, if there is one. -/
def string? (record : Record) (key : String) : Option String :=
  (record.lookup key).bind Datum.asString?

/-- The key under which records are stored. -/
def idKey : String := "_id"

/-- The id of a record. -/
def id? (record : Record) : Option String := record.string? idKey

end Record

end ObjectEngine
