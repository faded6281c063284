import ObjectEngine.Json
import ObjectEngine.Text.Bytes
import ObjectEngine.Time.Iso
import ObjectEngine.Value
import ObjectEngine.Words

/-!
# The REST dialect of JSON

Values that JSON does not know are objects with a member `__type`. `Value.toRest` writes a
value and `Value.ofRest` reads one; `Document.toRest` and `Document.ofRest` do so for whole
documents, whose identity and times are members beside the fields. An object whose
`__type` is not a text is a plain object. An integer beyond 64 signed bits is read as the
nearest double.
-/

namespace ObjectEngine

/-! ### Access control lists -/

namespace Acl

/-- What a subject may do; only what is granted is named. -/
def grantToRest (g : Grant) : Json :=
  .object ((if g.read then [("read", .bool true)] else []) ++
    (if g.write then [("write", .bool true)] else []))

/-- The list as an object by subject. -/
def toRest (acl : Acl) : Json := .obj (Members.mapValues grantToRest acl.entries)

/-- A flag of a grant, off unless it is `true`. -/
def flag (key : String) (grant : Json) : Bool :=
  ((grant.member? key).bind Json.asBool?).getD false

/-- Reads a list; subjects that are granted nothing are left out. -/
def ofRest : Json → Outcome Acl
  | .obj members =>
    .ok (members.foldl (fun acl m => acl.grant m.1 (flag "read" m.2) (flag "write" m.2)) empty)
  | _ => .error (.invalidQuery "ACL must be an object")

end Acl

/-! ### Writing -/

/-- An object with a type tag. -/
def Json.tagged (tag : String) (members : List (String × Json)) : Json :=
  .object (("__type", .str tag) :: members)

/-- The members of a document that are not fields. -/
def Document.restHeader {α : Type} (d : DocumentOf α) : List (String × Json) :=
  let time (key : String) (t : Option Instant) := match t with
    | some t => [(key, Json.str t.iso)]
    | none => []
  [("className", .str d.className), ("objectId", .str d.objectId)] ++
    time "createdAt" d.createdAt ++ time "updatedAt" d.updatedAt

namespace Value

mutual

/-- The value in the REST dialect. -/
def toRest : Value → Json
  | .null => .null
  | .bool b => .bool b
  | .int n => .int n.toInt
  | .float x => .ofDouble x
  | .string s => .str s
  | .date t => .tagged "Date" [("iso", .str t.iso)]
  | .bytes base64 => .tagged "Bytes" [("base64", .str base64)]
  | .pointer p => .tagged "Pointer" [("className", .str p.className), ("objectId", .str p.objectId)]
  | .relation className => .tagged "Relation" [("className", .str className)]
  | .geoPoint p =>
    .tagged "GeoPoint" [("latitude", .ofDouble p.latitude), ("longitude", .ofDouble p.longitude)]
  | .polygon ring =>
    .tagged "Polygon"
      [("coordinates", .arr (ring.map fun p => .arr [.ofDouble p.latitude, .ofDouble p.longitude]))]
  | .file name => .tagged "File" [("name", .str name)]
  | .acl list => list.toRest
  | .array items => .arr (toRestItems items)
  | .object members => .obj (toRestMembers members)
  | .included d =>
    .obj (Members.insert "__type" (.str "Object")
      (Members.insertAll (Members.ofList (Document.restHeader d)) (toRestMembers d.fields)))
  | .raw value =>
    .tagged "Raw" [("kind", .str value.kind), ("base64", .str (Base64.encode value.bytes))]

/-- The items of an array in the REST dialect. -/
def toRestItems : List Value → List Json
  | [] => []
  | v :: rest => v.toRest :: toRestItems rest

/-- The members of an object in the REST dialect. -/
def toRestMembers : List (String × Value) → List (String × Json)
  | [] => []
  | (k, v) :: rest => (k, v.toRest) :: toRestMembers rest

end

end Value

/-- The document in the REST dialect: a field of the name of another member takes its
place. -/
def Document.toRest (d : Document) : Json :=
  .obj (Members.insertAll (Members.ofList (Document.restHeader d)) (Value.toRestMembers d.fields))

/-! ### Reading -/

namespace Rest

/-- The instant that a text names. -/
def instant (s : String) : Outcome Instant :=
  match Instant.parse? s with
  | some t => .ok t
  | none => .error (.invalidQuery s!"invalid ISO date '{s}': *")

/-- A time beside the fields of a document: a text or a tagged date. -/
def time : Json → Outcome Instant
  | .str s => instant s
  | .obj members =>
    match (members.lookup "iso").bind Json.asString? with
    | some s => instant s
    | none => .error (.invalidQuery "Date is missing 'iso'")
  | other => .error (.invalidQuery s!"invalid date: {other.text}")

/-- A member that must be a text. -/
def stringMember (members : List (String × Json)) (tag key : String) : Outcome String :=
  .ofOption (.invalidQuery s!"{tag} is missing '{key}'")
    ((members.lookup key).bind Json.asString?)

/-- A member that must be a number. -/
def doubleMember (members : List (String × Json)) (tag key : String) : Outcome Double :=
  .ofOption (.invalidQuery s!"{tag} is missing '{key}'")
    ((members.lookup key).bind Json.asDouble?)

/-- The bytes of a base-64 text. -/
def bytes (base64 : String) : Outcome (List UInt8) :=
  .ofOption (.invalidQuery "invalid base64: *") (Base64.decode? base64)

/-- A point of a polygon. -/
def polygonPoint : Json → Outcome GeoPoint
  | .arr [lat, lng] =>
    match lat.asDouble?, lng.asDouble? with
    | some lat, some lng => .ok ⟨lat, lng⟩
    | _, _ => .error (.invalidQuery "Polygon coordinate must be numeric")
  | _ => .error (.invalidQuery "Polygon coordinate must be a pair")

/-- A tagged object that holds no values of its own. -/
def tagged (tag : String) (members : List (String × Json)) : Outcome Value :=
  match tag with
  | "Date" => do return .date (← instant (← stringMember members tag "iso"))
  | "Bytes" => do
    let base64 ← stringMember members tag "base64"
    let _ ← bytes base64
    return .bytes base64
  | "Pointer" => do
    return .pointer ⟨← stringMember members tag "className", ← stringMember members tag "objectId"⟩
  | "Relation" => do return .relation (← stringMember members tag "className")
  | "GeoPoint" => do
    return .geoPoint ⟨← doubleMember members tag "latitude", ← doubleMember members tag "longitude"⟩
  | "Polygon" =>
    match members.lookup "coordinates" with
    | some (.arr points) => do return .polygon (← points.mapM polygonPoint)
    | _ => .error (.invalidQuery "Polygon is missing 'coordinates'")
  | "File" => do return .file (← stringMember members tag "name")
  | "Raw" => do
    let payload ← bytes (← stringMember members tag "base64")
    return .raw ⟨← stringMember members tag "kind", payload⟩
  | other => .error (.invalidQuery s!"unknown __type '{other}'")

/-- The type tag of an object, if it has one. -/
def tag? (members : List (String × Json)) : Option String :=
  (members.lookup "__type").bind Json.asString?

/-- What the members of a document's JSON object come to: times go beside the fields. -/
structure Body where
  createdAt : Option Instant := none
  updatedAt : Option Instant := none
  fields : List (String × Value) := []

/-- The id that a document's JSON object gives, empty if it gives none. -/
def objectId (members : List (String × Json)) : String :=
  ((members.lookup "objectId").bind Json.asString?).getD ""

/-- The document of a body. -/
def Body.document (className : String) (members : List (String × Json)) (body : Body) : Document :=
  { className, objectId := objectId members, createdAt := body.createdAt,
    updatedAt := body.updatedAt, fields := body.fields }

mutual

/-- Reads a value of the REST dialect. -/
def value : Json → Outcome Value
  | .null => .ok .null
  | .bool b => .ok (.bool b)
  | .int n => .ok (((Words.int64? n).map .int).getD (.float (Double.ofInt n)))
  | .float x => .ok (.float x)
  | .str s => .ok (.string s)
  | .arr items => do return .array (← values items)
  | .obj members =>
    match tag? members with
    | none => do return .object (← memberValues members)
    | some "Object" => do
      let className ← stringMember members "Object" "className"
      return .included ((← body members).document className members)
    | some tag => tagged tag members

/-- Reads the items of an array. -/
def values : List Json → Outcome (List Value)
  | [] => .ok []
  | j :: rest => do
    let v ← value j
    return v :: (← values rest)

/-- Reads the members of a plain object. -/
def memberValues : List (String × Json) → Outcome (List (String × Value))
  | [] => .ok []
  | (k, j) :: rest => do
    let v ← value j
    return (k, v) :: (← memberValues rest)

/-- Reads the members of a document, from the first to the last. -/
def body : List (String × Json) → Outcome Body
  | [] => .ok {}
  | (k, j) :: rest =>
    if k = "objectId" || k = "className" || k = "__type" then body rest
    else if k = "createdAt" then do
      let t ← time j
      return { (← body rest) with createdAt := some t }
    else if k = "updatedAt" then do
      let t ← time j
      return { (← body rest) with updatedAt := some t }
    else do
      let v ← if k = "ACL" then (do return .acl (← Acl.ofRest j)) else value j
      let b ← body rest
      return { b with fields := (k, v) :: b.fields }

end

end Rest

/-- Reads a value of the REST dialect. -/
def Value.ofRest (json : Json) : Outcome Value := Rest.value json

/-- Reads a document of a class from its JSON object. -/
def Document.ofRest (className : String) : Json → Outcome Document
  | .obj members => do return (← Rest.body members).document className members
  | _ => .error (.invalidQuery "document body must be an object")

end ObjectEngine
