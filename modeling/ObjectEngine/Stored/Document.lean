import ObjectEngine.Stored.Value

/-!
# Storing documents

A document is stored as one record. Its id and times go under `_id`, `_created_at` and
`_updated_at`; its access control list under `_acl`, with the lists of readers and writers
under `_rperm` and `_wperm` beside it; a pointer field `f` under `_p_f`. Relation fields are
not stored here, and reading adds them back from the schema.
-/

namespace ObjectEngine

namespace Stored

/-- The key of the time of creation. -/
def createdAtKey : String := "_created_at"

/-- The key of the time of the last update. -/
def updatedAtKey : String := "_updated_at"

/-- The key of the access control list. -/
def aclKey : String := "_acl"

/-- The key of the list of readers. -/
def readPermKey : String := "_rperm"

/-- The key of the list of writers. -/
def writePermKey : String := "_wperm"

/-- What the keys of pointer fields start with. -/
def pointerMark : String := "_p_"

/-- The stored key of a field without a subpath. -/
def rootKey (schema : ClassSchema) (root : String) : String :=
  match root with
  | "objectId" => Record.idKey
  | "createdAt" => createdAtKey
  | "updatedAt" => updatedAtKey
  | "ACL" => aclKey
  | root =>
    match schema.fieldType? root with
    | some (.pointer _) => pointerMark ++ root
    | _ => root

/-- The stored path of a field path: its first segment is renamed. -/
def keyPath (schema : ClassSchema) (path : String) : String :=
  match Text.splitFirst '.' path with
  | some (root, rest) => rootKey schema root ++ "." ++ rest
  | none => rootKey schema path

/-- The members that store an access control list. -/
def aclMembers (value : Value) : Outcome (List (String × Datum)) :=
  let subjects (names : List String) : Datum := .array (names.map .string)
  match value with
  | .null => .ok []
  | .acl acl =>
    .ok [(aclKey, .record (encodeAcl acl)), (readPermKey, subjects acl.readers),
      (writePermKey, subjects acl.writers)]
  | other => .error (.typeMismatch "ACL" "ACL" other.typeName)

/-- The members that store one field. -/
def encodeField (schema : ClassSchema) (name : String) (value : Value) :
    Outcome (List (String × Datum)) :=
  if name = "ACL" then aclMembers value
  else match schema.fieldType? name with
    | some (.relation _) => .ok []
    | some ty => do return [(keyPath schema name, ← (encode ty value).inField name)]
    | none =>
      if isInternalField name then do return [(name, ← encodeFree value)]
      else .error (.schemaViolation s!"field {name} is not defined on class {schema.className}")

/-- The members that store the identity and the times of a document. -/
def headerMembers {α : Type} (d : DocumentOf α) : Record :=
  let time (key : String) (t : Option Instant) := match t with
    | some t => [(key, Datum.date t)]
    | none => []
  Members.ofList ((Record.idKey, .string d.objectId) ::
    (time createdAtKey d.createdAt ++ time updatedAtKey d.updatedAt))

/-- The record that stores a document. -/
def encodeDocument (schema : ClassSchema) (d : Document) : Outcome Record :=
  d.fields.foldlM (fun record f =>
    if f.1 = "objectId" || f.1 = "createdAt" || f.1 = "updatedAt" then .ok record
    else do return Members.insertAll record (← encodeField schema f.1 f.2)) (headerMembers d)

/-- The time a member holds, or the one known so far. -/
def timeOr (t : Option Instant) : Datum → Option Instant
  | .date t => some t
  | _ => t

/-- Adds one member of a stored record to the document read from it. -/
def decodeMember (schema : ClassSchema) (doc : Document) (key : String) (d : Datum) :
    Outcome Document :=
  let field (name : String) (v : Value) : Document :=
    { doc with fields := Members.insert name v doc.fields }
  if key = Record.idKey || key = readPermKey || key = writePermKey then .ok doc
  else if key = createdAtKey then .ok { doc with createdAt := timeOr doc.createdAt d }
  else if key = updatedAtKey then .ok { doc with updatedAt := timeOr doc.updatedAt d }
  else if key = aclKey then
    match d with
    | .record members => .ok (field "ACL" (.acl (decodeAcl members)))
    | _ => .ok doc
  else match Text.afterStart? pointerMark key with
    | some name => do
      let ty := match schema.fieldType? name with
        | some (.pointer target) => .pointer target
        | _ => .pointer ""
      return field name (← (decode ty d).inField name)
    | none =>
      match schema.fieldType? key with
      | some ty => do return field key (← (decode ty d).inField key)
      | none => do return field key (← decodeFree d)

/-- The document with the relation fields of its class. -/
def withRelations (schema : ClassSchema) (doc : Document) : Document :=
  let relations := schema.relationFields.map fun (name, target) => (name, Value.relation target)
  { doc with fields := Members.insertAll doc.fields relations }

/-- Reads a stored document. -/
def decodeDocument (schema : ClassSchema) (record : Record) : Outcome Document := do
  let objectId ← Outcome.ofOption
    (.dataCorruption s!"document in {schema.className} has no string _id") record.id?
  let start : Document :=
    { className := schema.className, objectId, createdAt := none, updatedAt := none, fields := [] }
  let doc ← record.foldlM (fun doc m => decodeMember schema doc m.1 m.2) start
  return withRelations schema doc

end Stored

end ObjectEngine
