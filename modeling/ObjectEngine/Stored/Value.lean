import ObjectEngine.Schema
import ObjectEngine.Store.Datum
import ObjectEngine.Text.Bytes
import ObjectEngine.Value

/-!
# Storing values

Values of a declared type are stored compactly: a pointer as its key `Class$id`, a point as
longitude and latitude, a polygon as GeoJSON. Inside objects and arrays, where no type is
declared, a value the store does not know becomes a record with a member `__type`, by which
`Stored.decodeFree` finds it again. A stored value that does not fit its declared type is read
freely, too, so unfamiliar data survives.
-/

namespace ObjectEngine

namespace Stored

/-! ### Pointer keys -/

/-- The stored form of a reference. -/
def pointerKey (p : Pointer) : String := s!"{p.className}${p.objectId}"

/-- Reads a reference: a class and an id, neither empty, with the first `$` between them. -/
def pointerOfKey (key : String) : Outcome Pointer :=
  match Text.splitFirst '$' key with
  | some (className, objectId) =>
    if className.isEmpty || objectId.isEmpty then
      .error (.dataCorruption s!"malformed pointer key '{key}'")
    else .ok ⟨className, objectId⟩
  | none => .error (.dataCorruption s!"malformed pointer key '{key}'")

/-! ### Access control lists -/

/-- What a subject may do: only what is granted is stored. -/
def encodeGrant (g : Grant) : Datum :=
  .record ((if g.read then [("r", .bool true)] else []) ++
    (if g.write then [("w", .bool true)] else []))

/-- The stored form of an access control list. -/
def encodeAcl (acl : Acl) : Record := Members.mapValues encodeGrant acl.entries

/-- A stored flag, off unless it is `true`. -/
def flag (key : String) (members : List (String × Datum)) : Bool :=
  match members.lookup key with
  | some (.bool b) => b
  | _ => false

/-- Reads an access control list; members that are not records are passed over. -/
def decodeAcl (record : Record) : Acl :=
  record.foldl (fun acl m => match m.2 with
    | .record grant => acl.grant m.1 (flag "r" grant) (flag "w" grant)
    | _ => acl) Acl.empty

/-! ### Values without a declared type -/

/-- A record with a type tag. -/
def tagged (tag : String) (members : List (String × Datum)) : Datum :=
  .record (Members.ofList (("__type", .string tag) :: members))

/-- The tagged form of a reference. -/
def pointerTag (p : Pointer) : Datum :=
  tagged "Pointer" [("className", .string p.className), ("objectId", .string p.objectId)]

/-- Whether the store can hold a record with this key that is not a tag. -/
def isObjectKey (key : String) : Bool :=
  !(key.toList.head? = some '$' || key.toList.contains '.' || key = "__type")

/-- The bytes of a base-64 text. -/
def bytesOfBase64 (text : String) : Outcome (List UInt8) :=
  .ofOption (.invalidQuery "invalid base64 payload: *") (Base64.decode? text)

mutual

/-- The stored form of a value without a declared type. -/
def encodeFree : Value → Outcome Datum
  | .null => .ok .null
  | .bool b => .ok (.bool b)
  | .int n => .ok (.int n)
  | .float x => .ok (.double x)
  | .string s => .ok (.string s)
  | .date t => .ok (.date t)
  | .bytes base64 => do return .binary (← bytesOfBase64 base64)
  | .pointer p => .ok (pointerTag p)
  | .included d => .ok (pointerTag ⟨d.className, d.objectId⟩)
  | .relation className => .ok (tagged "Relation" [("className", .string className)])
  | .geoPoint p =>
    .ok (tagged "GeoPoint" [("latitude", .double p.latitude), ("longitude", .double p.longitude)])
  | .polygon ring =>
    let pair (p : GeoPoint) : Datum := .array [.double p.latitude, .double p.longitude]
    .ok (tagged "Polygon" [("coordinates", .array (ring.map pair))])
  | .file name => .ok (tagged "File" [("name", .string name)])
  | .acl acl => .ok (tagged "ACL" [("entries", .record (encodeAcl acl))])
  | .array items => do return .array (← encodeItems items)
  | .object members => do return .record (← encodeMembers members)
  | .raw value => .ok (.extended value.kind value.bytes)

/-- The stored form of the items of an array. -/
def encodeItems : List Value → Outcome (List Datum)
  | [] => .ok []
  | v :: rest => do
    let d ← encodeFree v
    return d :: (← encodeItems rest)

/-- The stored form of the members of an object. -/
def encodeMembers : List (String × Value) → Outcome (List (String × Datum))
  | [] => .ok []
  | (k, v) :: rest => do
    if !isObjectKey k then throw (.invalidKeyName k)
    let d ← encodeFree v
    return (k, d) :: (← encodeMembers rest)

end

/-- A member of a tagged record that must be a text. -/
def stringMember (members : List (String × Datum)) (tag key : String) : Outcome String :=
  .ofOption (.dataCorruption s!"{tag} sub-document is missing '{key}'")
    ((members.lookup key).bind Datum.asString?)

/-- A member of a tagged record that must be a number. -/
def doubleMember (members : List (String × Datum)) (tag key : String) : Outcome Double :=
  .ofOption (.dataCorruption s!"{tag} sub-document is missing '{key}'")
    ((members.lookup key).bind Datum.asDouble?)

/-- A pair of numbers. -/
def pair? : Datum → Option (Double × Double)
  | .array [a, b] => do some (← a.asDouble?, ← b.asDouble?)
  | _ => none

/-- The value of a tagged record; nothing if the tag is not one of these. -/
def decodeTagged (tag : String) (members : List (String × Datum)) : Outcome (Option Value) :=
  match tag with
  | "Pointer" => do
    return some (.pointer ⟨← stringMember members tag "className",
      ← stringMember members tag "objectId"⟩)
  | "Relation" => do return some (.relation (← stringMember members tag "className"))
  | "GeoPoint" => do
    return some (.geoPoint ⟨← doubleMember members tag "latitude",
      ← doubleMember members tag "longitude"⟩)
  | "Polygon" =>
    match members.lookup "coordinates" with
    | some (.array points) =>
      match points.mapM pair? with
      | some ring => .ok (some (.polygon (ring.map fun p => ⟨p.1, p.2⟩)))
      | none => .error (.dataCorruption "malformed Polygon coordinates")
    | _ => .error (.dataCorruption "Polygon sub-document is missing 'coordinates'")
  | "File" => do return some (.file (← stringMember members tag "name"))
  | "ACL" =>
    match members.lookup "entries" with
    | some (.record entries) => .ok (some (.acl (decodeAcl entries)))
    | _ => .error (.dataCorruption "ACL sub-document is missing 'entries'")
  | _ => .ok none

mutual

/-- Reads a stored value by its structure. -/
def decodeFree : Datum → Outcome Value
  | .null => .ok .null
  | .bool b => .ok (.bool b)
  | .int n => .ok (.int n)
  | .double x => .ok (.float x)
  | .string s => .ok (.string s)
  | .date t => .ok (.date t)
  | .binary bytes => .ok (.bytes (Base64.encode bytes))
  | .array items => do return .array (← decodeItems items)
  | .record members => do
    match (members.lookup "__type").bind Datum.asString? with
    | some tag =>
      match ← decodeTagged tag members with
      | some v => return v
      | none => return .object (← decodeMembers members)
    | none => return .object (← decodeMembers members)
  | .extended kind bytes => .ok (.raw ⟨kind, bytes⟩)

/-- Reads the items of a stored array. -/
def decodeItems : List Datum → Outcome (List Value)
  | [] => .ok []
  | d :: rest => do
    let v ← decodeFree d
    return v :: (← decodeItems rest)

/-- Reads the members of a stored record. -/
def decodeMembers : List (String × Datum) → Outcome (List (String × Value))
  | [] => .ok []
  | (k, d) :: rest => do
    let v ← decodeFree d
    return (k, v) :: (← decodeMembers rest)

end

/-! ### Values of a declared type -/

/-- A point as longitude and latitude. -/
def encodePoint (p : GeoPoint) : Datum := .array [.double p.longitude, .double p.latitude]

/-- A ring as a GeoJSON polygon. -/
def encodePolygon (ring : List GeoPoint) : Outcome Datum := do
  if ring.length < 3 then throw (.schemaViolation "Polygon must have at least 3 points")
  ring.forM GeoPoint.validate
  return .record [("coordinates", .array [.array (ring.map encodePoint)]),
    ("type", .string "Polygon")]

/-- The stored form of a value for a field of a declared type. -/
def encode (ty : FieldType) (value : Value) : Outcome Datum :=
  let mismatch : Outcome Datum := .error (.typeMismatch "" ty.shown value.typeName)
  match ty, value with
  | _, .null => .ok .null
  | .string, .string s => .ok (.string s)
  | .number, .int n => .ok (.int n)
  | .number, .float x => .ok (.double x)
  | .boolean, .bool b => .ok (.bool b)
  | .date, .date t => .ok (.date t)
  | .bytes, .bytes base64 => do return .binary (← bytesOfBase64 base64)
  | .file, .file name => .ok (.string name)
  | .geoPoint, .geoPoint p => do
    p.validate
    return encodePoint p
  | .polygon, .polygon ring => encodePolygon ring
  | .pointer target, v =>
    match v.asPointer? with
    | some p => if p.className = target then .ok (.string (pointerKey p)) else mismatch
    | none => mismatch
  | .relation target, .relation className =>
    if className = target then .ok (tagged "Relation" [("className", .string className)])
    else mismatch
  | .acl, .acl acl => .ok (.record (encodeAcl acl))
  | .object, .object members => encodeFree (.object members)
  | .array, .array items => encodeFree (.array items)
  | _, _ => mismatch

/-- Reads a GeoJSON polygon. -/
def polygon? (members : List (String × Datum)) : Option (List GeoPoint) :=
  match (members.lookup "type").bind Datum.asString?, members.lookup "coordinates" with
  | some "Polygon", some (.array (.array ring :: _)) =>
    (ring.mapM pair?).map fun points => points.map fun p => ⟨p.2, p.1⟩
  | _, _ => none

/-- Reads a stored value of a field of a declared type. -/
def decode (ty : FieldType) (d : Datum) : Outcome Value :=
  match ty, d with
  | _, .null => .ok .null
  | .string, .string s => .ok (.string s)
  | .number, .int n => .ok (.int n)
  | .number, .double x => .ok (.float x)
  | .boolean, .bool b => .ok (.bool b)
  | .date, .date t => .ok (.date t)
  | .bytes, .binary bytes => .ok (.bytes (Base64.encode bytes))
  | .file, .string name => .ok (.file name)
  | .pointer _, .string key => do return .pointer (← pointerOfKey key)
  | .geoPoint, .array items =>
    match pair? (.array items) with
    | some p => .ok (.geoPoint ⟨p.2, p.1⟩)
    | none => decodeFree (.array items)
  | .polygon, .record members =>
    match polygon? members with
    | some ring => .ok (.polygon ring)
    | none => decodeFree (.record members)
  | .acl, .record members => .ok (.acl (decodeAcl members))
  | _, d => decodeFree d

end Stored

end ObjectEngine
