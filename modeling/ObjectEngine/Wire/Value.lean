import ObjectEngine.Value
import ObjectEngine.Wire

/-!
# Values in wire form

Null, truth values, texts, numbers and arrays stand for themselves; every other kind of value is
an object of one member whose key names the kind. A document is an object with the members
`class`, `id`, `created`, `updated` and `fields`.
-/

namespace ObjectEngine

open Wire

instance : ToWire Instant where
  wire t := .obj [("$date", .arr [.int t.seconds, .int t.nanos])]

namespace Wire

/-- An instant as its seconds and nanoseconds. -/
def instant : Json → Reader Instant
  | .arr [.int seconds, .int nanos] =>
    if 0 ≤ nanos then .ok ⟨seconds, nanos.toNat⟩ else malformed
  | _ => malformed

/-- An instant that may be missing. -/
def instant? : Json → Reader (Option Instant)
  | .null => .ok none
  | j => some <$> instant j

end Wire

instance : ToWire Pointer := ⟨fun p => .arr [.str p.className, .str p.objectId]⟩

instance : FromWire Pointer where
  ofWire
    | .arr [.str className, .str objectId] => .ok ⟨className, objectId⟩
    | _ => malformed

instance : ToWire GeoPoint := ⟨fun p => .arr [wire p.latitude, wire p.longitude]⟩

instance : FromWire GeoPoint where
  ofWire j := do
    let (latitude, longitude) ← pair FromWire.ofWire FromWire.ofWire j
    return ⟨latitude, longitude⟩

instance : ToWire Grant := ⟨fun g => .arr [.bool g.read, .bool g.write]⟩

instance : FromWire Grant where
  ofWire
    | .arr [.bool r, .bool w] => .ok ⟨r, w⟩
    | _ => malformed

instance : ToWire Acl := ⟨fun acl => ofMembers acl.entries⟩

instance : FromWire Acl := ⟨fun j => Acl.mk <$> members FromWire.ofWire j⟩

namespace Wire

/-! ### Writing -/

/-- The wire form of a document of which the wire form of the fields is known. -/
def ofHeader {α : Type} (d : DocumentOf α) (fields : List (String × Json)) : Json :=
  .object [("class", .str d.className), ("id", .str d.objectId), ("created", wire d.createdAt),
    ("updated", wire d.updatedAt), ("fields", .obj fields)]

mutual

/-- The wire form of a value. -/
def ofValue : Value → Json
  | .null => .null
  | .bool b => .bool b
  | .int n => .int n.toInt
  | .float x => wire x
  | .string s => .str s
  | .date t => wire t
  | .bytes base64 => .obj [("$bytes", .str base64)]
  | .pointer p => .obj [("$ptr", wire p)]
  | .relation className => .obj [("$rel", .str className)]
  | .geoPoint p => .obj [("$geo", wire p)]
  | .polygon ring => .obj [("$poly", wire ring)]
  | .file name => .obj [("$file", .str name)]
  | .acl acl => .obj [("$acl", wire acl)]
  | .array xs => .arr (ofValues xs)
  | .object ms => .obj [("$obj", .obj (ofFields ms))]
  | .included d => .obj [("$inc", ofHeader d (ofFields d.fields))]
  | .raw v => .obj [("$raw", .arr [.str v.kind, .str (Hex.encode v.bytes)])]

/-- The wire forms of the items of an array. -/
def ofValues : List Value → List Json
  | [] => []
  | v :: rest => ofValue v :: ofValues rest

/-- The wire forms of members. -/
def ofFields : List (String × Value) → List (String × Json)
  | [] => []
  | (k, v) :: rest => (k, ofValue v) :: ofFields rest

end

/-! ### Reading -/

/-- Reads a value of a kind without values of its own. -/
def taggedValue (tag : String) (j : Json) : Reader Value :=
  match tag, j with
  | "$f", .str bits => .float <$> doubleOfBits bits
  | "$date", j => .date <$> instant j
  | "$bytes", .str base64 => .ok (.bytes base64)
  | "$ptr", j => .pointer <$> FromWire.ofWire j
  | "$rel", .str className => .ok (.relation className)
  | "$geo", j => .geoPoint <$> FromWire.ofWire j
  | "$poly", j => .polygon <$> FromWire.ofWire j
  | "$file", .str name => .ok (.file name)
  | "$acl", j => .acl <$> FromWire.ofWire j
  | "$raw", .arr [.str kind, .str bytes] => do
    return .raw ⟨kind, ← ofOption (Hex.decode? bytes)⟩
  | _, _ => malformed

/-- Adds a member other than the fields to a document. -/
def addPart (d : Document) (key : String) (j : Json) : Reader Document :=
  match key with
  | "class" => do return { d with className := ← FromWire.ofWire j }
  | "id" => do return { d with objectId := ← FromWire.ofWire j }
  | "created" => do return { d with createdAt := ← instant? j }
  | "updated" => do return { d with updatedAt := ← instant? j }
  | _ => .ok d

mutual

/-- Reads a value. -/
def value : Json → Reader Value
  | .null => .ok .null
  | .bool b => .ok (.bool b)
  | .str s => .ok (.string s)
  | .arr xs => do return .array (← values xs)
  | .obj [("$obj", .obj ms)] => do return .object (← fieldValues ms)
  | .obj [("$inc", .obj ms)] => do return .included (← documentParts ms)
  | .obj [(tag, j)] => taggedValue tag j
  | j => ofOption (number .int .float j)

/-- Reads the items of an array. -/
def values : List Json → Reader (List Value)
  | [] => .ok []
  | j :: rest => do
    let v ← value j
    return v :: (← values rest)

/-- Reads members. -/
def fieldValues : List (String × Json) → Reader (List (String × Value))
  | [] => .ok []
  | (k, j) :: rest => do
    let v ← value j
    return (k, v) :: (← fieldValues rest)

/-- Reads the members of a document. -/
def documentParts : List (String × Json) → Reader Document
  | [] =>
    .ok { className := "", objectId := "", createdAt := none, updatedAt := none, fields := [] }
  | ("fields", .obj ms) :: rest => do
    let fields ← fieldValues ms
    return { (← documentParts rest) with fields }
  | (key, j) :: rest => do addPart (← documentParts rest) key j

end

end Wire

instance : ToWire Value := ⟨ofValue⟩

instance : FromWire Value := ⟨value⟩

instance : ToWire Document := ⟨fun d => ofHeader d (ofFields d.fields)⟩

instance : FromWire Document where
  ofWire
    | .obj ms => documentParts ms
    | _ => malformed

end ObjectEngine
