import ObjectEngine.Json.Record
import ObjectEngine.Schema
import ObjectEngine.Words

/-!
# Schemas in JSON

The form in which schemas are exchanged with other programs. A field type is an object with
a member `type` (or an array that starts with it), and a pointer or relation adds
`targetClass`.
-/

namespace ObjectEngine

/-! ### Writing -/

/-- The exchanged form of a type. -/
def FieldType.toJson (ty : FieldType) : Json :=
  .object (("type", .str ty.name) ::
    match ty.target? with
    | some target => [("targetClass", .str target)]
    | none => [])

/-- The exchanged form of an index. -/
def IndexDescriptor.toJson (index : IndexDescriptor) : Json :=
  .object [("name", .str index.name),
    ("fields", .arr (index.fields.map fun f => .arr [.str f.1, .int f.2.toInt])),
    ("unique", .bool index.unique),
    ("caseInsensitive", .bool index.caseInsensitive)]

/-- The exchanged form of a schema. -/
def ClassSchema.toJson (schema : ClassSchema) : Json :=
  .object [("className", .str schema.className),
    ("fields", .obj (Members.mapValues FieldType.toJson schema.fields)),
    ("indexes", .obj (Members.mapValues IndexDescriptor.toJson schema.indexes))]

/-! ### Reading -/

namespace FieldType

/-- The type without a target class of a name. -/
def ofName? : String → Option FieldType
  | "String" => some .string
  | "Number" => some .number
  | "Boolean" => some .boolean
  | "Date" => some .date
  | "Object" => some .object
  | "Array" => some .array
  | "GeoPoint" => some .geoPoint
  | "Polygon" => some .polygon
  | "Bytes" => some .bytes
  | "File" => some .file
  | "ACL" => some .acl
  | _ => none

/-- The pointer or relation of a name and a target class. -/
def ofTarget? (name : String) (target : Json) : Option FieldType := do
  let target ← target.asString?
  match name with
  | "Pointer" => some (.pointer target)
  | "Relation" => some (.relation target)
  | _ => none

/-- Reads a type. -/
def ofJson? : Json → Option FieldType
  | .obj members => do
    let name ← (← members.lookup "type").asString?
    match ofName? name with
    | some ty => some ty
    | none => ofTarget? name (← members.lookup "targetClass")
  | .arr [name] => name.asString? >>= ofName?
  | .arr [name, target] => do ofTarget? (← name.asString?) target
  | _ => none

end FieldType

/-- A field of an index with its direction. -/
def IndexDescriptor.fieldOfJson? : Json → Option (String × Int32)
  | .arr [name, .int direction] => do some (← name.asString?, ← Words.int32? direction)
  | _ => none

/-- Reads an index; the flags are off unless they are given. -/
def IndexDescriptor.ofJson? (j : Json) : Option IndexDescriptor := do
  match ← j.record? ["name", "fields", "unique", "caseInsensitive"] with
  | [some name, some fields, unique, caseInsensitive] =>
    some {
      name := ← name.asString?
      fields := ← fields.list? fieldOfJson?
      unique := ← Json.orElse false Json.asBool? unique
      caseInsensitive := ← Json.orElse false Json.asBool? caseInsensitive }
  | _ => none

/-- Reads a schema; it has no indexes unless they are given. -/
def ClassSchema.ofJson? (j : Json) : Option ClassSchema := do
  match ← j.record? ["className", "fields", "indexes"] with
  | [some className, some fields, indexes] =>
    some {
      className := ← className.asString?
      fields := ← fields.map? FieldType.ofJson?
      indexes := ← Json.orElse [] (Json.map? IndexDescriptor.ofJson?) indexes }
  | _ => none

end ObjectEngine
