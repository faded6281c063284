import ObjectEngine.Error
import ObjectEngine.Json
import ObjectEngine.Words

/-!
# The wire form

How the engine's data are exchanged with other programs: as JSON, without loss. An integer is a
plain number. A double is an object whose only member `$f` holds the sixteen hexadecimal digits
of its bits, or `nan`; where a double is expected, and where a number is not an integer of 64
signed bits, a plain number is read as one, too.

`ToWire.wire` writes and `FromWire.ofWire` reads. A member that is missing or `null` takes the
default of its type. A reader tells a form it does not know from content that the engine
refuses.
-/

namespace ObjectEngine

namespace Wire

/-- Why a wire form has no reading. -/
inductive Failure
  /-- It is not of the form that is read. -/
  | malformed
  /-- The engine refuses what it says. -/
  | refused (e : EngineError)
  deriving DecidableEq, Inhabited

/-- The reading of a wire form. -/
abbrev Reader (α : Type) := Except Failure α

variable {α β : Type}

/-- No reading. -/
def malformed : Reader α := .error .malformed

/-- The reading of a form whose content the engine checks. -/
def checked (outcome : Outcome α) : Reader α := outcome.mapError .refused

/-- The value, or no reading. -/
def ofOption : Option α → Reader α
  | some a => .ok a
  | none => malformed

end Wire

/-- Types whose values have a wire form. -/
class ToWire (α : Type) where
  /-- The wire form of a value. -/
  wire : α → Json

/-- Types whose values are read from a wire form. -/
class FromWire (α : Type) where
  /-- The value of a wire form. -/
  ofWire : Json → Wire.Reader α

export ToWire (wire)

namespace Wire

variable {α β : Type}

/-! ### Members -/

/-- A member of an object, `null` if it is missing. -/
def member (j : Json) (key : String) : Json := (j.member? key).getD .null

/-- Reads a member of an object. -/
def field [FromWire α] (j : Json) (key : String) : Reader α := FromWire.ofWire (member j key)

/-- Reads a member of an object that has a default value. -/
def fieldOr [FromWire α] (fallback : α) (j : Json) (key : String) : Reader α :=
  match member j key with
  | .null => .ok fallback
  | v => FromWire.ofWire v

/-- Reads the items of an array. -/
def items (read : Json → Reader α) : Json → Reader (List α)
  | .arr xs => xs.mapM read
  | .null => .ok []
  | _ => malformed

/-- Reads a pair, an array of two items. -/
def pair (first : Json → Reader α) (second : Json → Reader β) : Json → Reader (α × β)
  | .arr [a, b] => do return (← first a, ← second b)
  | _ => malformed

/-- Reads the members of an object. -/
def members (read : Json → Reader α) : Json → Reader (Members α)
  | .obj ms => ms.mapM fun m => do return (m.1, ← read m.2)
  | .null => .ok []
  | _ => malformed

/-- Reads an object of one member, by the key of the member. -/
def choice (read : String → Json → Reader α) : Json → Reader α
  | .obj [(key, j)] => read key j
  | _ => malformed

/-- The wire form of a map. -/
def ofMembers [ToWire α] (ms : Members α) : Json := .obj (Members.mapValues wire ms)

/-! ### Numbers -/

/-- A double by the text of its bits. -/
def doubleOfBits (text : String) : Reader Double :=
  if text = "nan" then .ok Double.nan
  else (ofOption (Hex.decodeWord? text)).map Double.mk

/-- A number whose kind decides: an integer of 64 signed bits, or a double. -/
def number (int : Int64 → α) (float : Double → α) : Json → Option α
  | .int n => some (((Words.int64? n).map int).getD (float (Double.ofInt n)))
  | .float x => some (float x)
  | _ => none

end Wire

/-! ### Plain types -/

open Wire

instance : ToWire Unit := ⟨fun _ => .bool true⟩

instance : ToWire Bool := ⟨.bool⟩

instance : FromWire Bool where
  ofWire
    | .bool b => .ok b
    | .null => .ok false
    | _ => malformed

instance : ToWire Int := ⟨.int⟩

instance : FromWire Int where
  ofWire
    | .int n => .ok n
    | _ => malformed

instance : ToWire Nat := ⟨fun n => .int n⟩

instance : FromWire Nat where
  ofWire
    | .int n => if 0 ≤ n then .ok n.toNat else malformed
    | _ => malformed

instance : ToWire Int32 := ⟨fun n => .int n.toInt⟩

instance : FromWire Int32 where
  ofWire
    | .int n => ofOption (Words.int32? n)
    | _ => malformed

instance : ToWire String := ⟨.str⟩

instance : FromWire String where
  ofWire
    | .str s => .ok s
    | .null => .ok ""
    | _ => malformed

instance : ToWire Double where
  wire x := .obj [("$f", .str (if x.isNaN then "nan" else Hex.encodeWord x.bits))]

instance : FromWire Double where
  ofWire
    | .int n => .ok (Double.ofInt n)
    | .float x => .ok x
    | .obj [("$f", .str bits)] => doubleOfBits bits
    | _ => malformed

instance {α : Type} [ToWire α] : ToWire (List α) := ⟨fun xs => .arr (xs.map wire)⟩

instance {α : Type} [FromWire α] : FromWire (List α) := ⟨items FromWire.ofWire⟩

instance {α : Type} [ToWire α] : ToWire (Option α) where
  wire
    | some a => wire a
    | none => .null

instance {α : Type} [FromWire α] : FromWire (Option α) where
  ofWire
    | .null => .ok none
    | j => some <$> FromWire.ofWire j

/-! ### JSON itself -/

namespace Wire

mutual

/-- JSON with its doubles in wire form. -/
def ofJson : Json → Json
  | .float x => wire x
  | .arr xs => .arr (ofJsonItems xs)
  | .obj ms => .obj (ofJsonMembers ms)
  | j => j

/-- The items of an array with their doubles in wire form. -/
def ofJsonItems : List Json → List Json
  | [] => []
  | j :: rest => ofJson j :: ofJsonItems rest

/-- The members of an object with their doubles in wire form. -/
def ofJsonMembers : List (String × Json) → List (String × Json)
  | [] => []
  | (k, j) :: rest => (k, ofJson j) :: ofJsonMembers rest

end

end Wire

instance : ToWire Json := ⟨Wire.ofJson⟩

instance : FromWire Json := ⟨.ok⟩

/-! ### Errors and outcomes -/

instance : ToWire EngineError where
  wire e := .obj [("error", .str e.kind), ("message", .str e.message)]

instance : FromWire EngineError where
  ofWire j := do
    let text : String ← field j "text"
    match (← field j "kind" : String) with
    | "SchemaViolation" => return .schemaViolation text
    | "TypeMismatch" =>
      return .typeMismatch (← field j "field") (← field j "expected") (← field j "actual")
    | "InvalidKeyName" => return .invalidKeyName text
    | "InvalidQuery" => return .invalidQuery text
    | "PermissionDenied" => return .permissionDenied text
    | "OperationExceededTimeLimit" => return .timeLimitExceeded (← fieldOr 0 j "limit")
    | "DataCorruption" => return .dataCorruption text
    | "TransientStore" => return .transientStore text
    | "Duplicate" => return .duplicate text
    | "ClassNotFound" => return .classNotFound text
    | "ObjectNotFound" => return .objectNotFound
    | "Store" => return .store (← fieldOr 0 j "code") text
    | "InvalidConfig" => return .invalidConfig text
    | _ => malformed

instance {α : Type} [ToWire α] : ToWire (Outcome α) where
  wire
    | .ok a => .obj [("ok", wire a)]
    | .error e => wire e

end ObjectEngine
