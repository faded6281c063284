import ObjectEngine.Engine.Program
import ObjectEngine.Schema.TypeText
import ObjectEngine.Words

/-!
# Persisted schemas

Schemas live in a collection of their own, one record per class under the name of the class:
a text per field that is not a default one, and the indexes under `_metadata.indexes`. The
default fields are not stored; reading adds them back.
-/

namespace ObjectEngine

namespace Catalog

/-- The collection of the schemas. -/
def collection : String := "_SCHEMA"

/-- The member that holds what is not a field. -/
def metadataKey : String := "_metadata"

/-! ### Schema records -/

/-- The stored form of an index. -/
def indexToDatum (index : IndexDescriptor) : Datum :=
  .record [("caseInsensitive", .bool index.caseInsensitive),
    ("keys", .array (index.fields.map fun f =>
      .array [.string f.1, .int (Int64.ofInt f.2.toInt)])),
    ("unique", .bool index.unique)]

/-- A field of a stored index with its direction. -/
def indexField? : Datum → Option (String × Int32)
  | .array [.string field, .int direction] => (Words.int32? direction.toInt).map (field, ·)
  | _ => none

/-- A stored flag, off unless it is `true`. -/
def flag (key : String) (members : List (String × Datum)) : Bool :=
  match members.lookup key with
  | some (.bool b) => b
  | _ => false

/-- Reads a stored index. -/
def indexOfDatum (name : String) (d : Datum) : Outcome IndexDescriptor :=
  let corrupt : EngineError := .dataCorruption s!"malformed index metadata for {name}"
  match d with
  | .record members =>
    match members.lookup "keys" with
    | some (.array keys) =>
      match keys.mapM indexField? with
      | some fields =>
        .ok { name, fields, unique := flag "unique" members,
              caseInsensitive := flag "caseInsensitive" members }
      | none => .error corrupt
    | _ => .error corrupt
  | _ => .error corrupt

/-- The record that stores a schema. -/
def toRecord (schema : ClassSchema) : Record :=
  let fields := schema.fields.filter fun f => !defaultFields.contains f.1
  Members.insert metadataKey
    (.record [("indexes", .record (Members.mapValues indexToDatum schema.indexes))])
    (Members.insertAll [(Record.idKey, .string schema.className)]
      (Members.mapValues (fun ty => .string ty.storedText) fields))

/-- Adds one member of a schema record to the schema read from it. -/
def readMember (schema : ClassSchema) (key : String) (d : Datum) : Outcome ClassSchema :=
  if key = Record.idKey then .ok schema
  else match key, d with
    | "_metadata", .record metadata =>
      match metadata.lookup "indexes" with
      | some (.record indexes) =>
        indexes.foldlM (fun schema m => do
          let index ← indexOfDatum m.1 m.2
          return { schema with indexes := Members.insert m.1 index schema.indexes }) schema
      | _ => .ok schema
    | name, .string text => do
      let ty ← FieldType.ofStoredText text
      return { schema with fields := Members.insert name ty schema.fields }
    | name, _ =>
      .error (.dataCorruption s!"schema field {name} of {schema.className} has no type string")

/-- Reads a schema record. -/
def ofRecord (record : Record) : Outcome ClassSchema := do
  let className ← Outcome.ofOption (.dataCorruption "schema document without _id") record.id?
  let start ← match ClassSchema.create className with
    | .ok schema => pure schema
    | .error _ => throw (.dataCorruption s!"stored schema has invalid class name {className}")
  record.foldlM (fun schema m => readMember schema m.1 m.2) start

/-! ### Operations -/

/-- The schema of a class, if it exists. -/
def load (className : String) : StoreAction (Option ClassSchema) := do
  let records ← Program.call
    (.find collection { filter := .byId className, limit := some 1 } none)
  match records with
  | [] => return none
  | r :: _ => return some (← ofRecord r)

/-- All schemas in the order of their classes. -/
def loadAll : StoreAction (List ClassSchema) := do
  let records ← Program.call (.find collection { sort := [(Record.idKey, 1)] } none)
  records.mapM fun r => (ofRecord r : Outcome ClassSchema)

/-- Adds a class. -/
def createClass (schema : ClassSchema) : StoreAction Unit :=
  tryCatch (Program.call (.insert collection (toRecord schema) none)) fun e =>
    match e with
    | .duplicate _ => throw (.duplicate s!"Class {schema.className} already exists.")
    | e => throw e

/-- The schema of a class that must exist. -/
def require (className : String) : StoreAction ClassSchema := do
  match ← load className with
  | some schema => return schema
  | none => throw (.classNotFound className)

/-- Updates the record of a class. -/
def edit (className : String) (e : Edit) : StoreAction Unit := do
  let _ ← Program.call (.update collection (.byId className) e none)

/-- Declares a field and answers the schema with it. -/
def addField (className name : String) (ty : FieldType) : StoreAction ClassSchema := do
  let schema ← require className
  if schema.fieldType? name = some ty then return schema
  let schema ← (schema.addField name ty : Outcome ClassSchema)
  edit className { set := [(name, .string ty.storedText)] }
  return schema

/-- Removes fields and answers the schema without them. -/
def removeFields (className : String) (names : List String) : StoreAction ClassSchema := do
  let schema ← require className
  let schema ← (names.foldlM ClassSchema.removeField schema : Outcome ClassSchema)
  edit className { unset := NameSet.ofList names }
  return schema

/-- The path of an index in the record of a class. -/
def indexPath (name : String) : String := s!"{metadataKey}.indexes.{name}"

/-- Records an index. -/
def recordIndex (className : String) (index : IndexDescriptor) : StoreAction Unit :=
  edit className { set := [(indexPath index.name, indexToDatum index)] }

/-- Removes the record of an index. -/
def forgetIndex (className name : String) : StoreAction Unit :=
  edit className { unset := [indexPath name] }

/-- Removes a class and answers whether it existed. -/
def deleteClass (className : String) : StoreAction Bool := do
  let deleted : Nat ← Program.call (.delete collection (.byId className) none)
  return deleted != 0

end Catalog

end ObjectEngine
