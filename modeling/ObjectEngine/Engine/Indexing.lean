import ObjectEngine.Config
import ObjectEngine.Engine.Action
import ObjectEngine.Engine.Join

/-!
# Indexes and deleted fields

An index is created in the store and recorded in the schema of its class. The default indexes
back the system classes; each can be turned off. To delete fields removes them from the schema
and from every object, with the indexes that cover nothing else.
-/

namespace ObjectEngine

/-- What happened to an index that is to exist. -/
inductive IndexOutcome
  | created
  /-- An index of the same name and definition was there. -/
  | unchanged
  deriving DecidableEq, Inhabited

/-- The purpose of a default index. -/
inductive IndexPurpose
  | username
  | usernameCaseInsensitive
  | email
  | emailCaseInsensitive
  | emailVerifyToken
  | passwordResetToken
  | roleName
  deriving DecidableEq, Inhabited

namespace IndexPurpose

/-- All purposes, in the order in which their indexes are created. -/
def all : List IndexPurpose :=
  [.username, .usernameCaseInsensitive, .email, .emailCaseInsensitive, .emailVerifyToken,
   .passwordResetToken, .roleName]

/-- The class that the index is on. -/
def className : IndexPurpose → String
  | .roleName => "_Role"
  | _ => "_User"

/-- The index. -/
def descriptor : IndexPurpose → IndexDescriptor
  | .username => (IndexDescriptor.single "username").makeUnique
  | .usernameCaseInsensitive => (IndexDescriptor.single "username").makeCaseInsensitive
  | .email => (IndexDescriptor.single "email").makeUnique
  | .emailCaseInsensitive => (IndexDescriptor.single "email").makeCaseInsensitive
  | .emailVerifyToken => IndexDescriptor.single "_email_verify_token"
  | .passwordResetToken => IndexDescriptor.single "_perishable_token"
  | .roleName => (IndexDescriptor.single "name").makeUnique

/-- Whether the index is turned on. -/
def isEnabled (config : DefaultIndexes) : IndexPurpose → Bool
  | .username => config.userUsername
  | .usernameCaseInsensitive => config.userUsernameCaseInsensitive
  | .email => config.userEmail
  | .emailCaseInsensitive => config.userEmailCaseInsensitive
  | .emailVerifyToken => config.userEmailVerifyToken
  | .passwordResetToken => config.userPasswordResetToken
  | .roleName => config.roleName

end IndexPurpose

namespace Indexing

/-- The store's index for an index of a class. Unique indexes leave out the records that lack
their fields, so that these do not clash. -/
def storeIndex (schema : ClassSchema) (index : IndexDescriptor) : StoreIndex where
  name := index.name
  keys := index.fields.map fun f => (Stored.keyPath schema f.1, f.2)
  unique := index.unique
  sparse := index.unique
  collation := if index.caseInsensitive then some Collation.caseInsensitive else none

/-- Whether a declared field is a relation. -/
def isRelationField (schema : ClassSchema) (name : String) : Bool :=
  (schema.fieldType? name).any FieldType.isRelation

/-- Refuses a field that cannot be indexed. -/
def checkField (schema : ClassSchema) (className field : String) : Outcome Unit :=
  if !schema.hasField field && !isInternalField field then
    .error (.schemaViolation s!"cannot index undeclared field {field} of {className}")
  else if isRelationField schema field then
    .error (.schemaViolation s!"cannot index relation field {field} of {className}")
  else .ok ()

/-- Makes sure that a class has an index. -/
def ensureIndex (className : String) (index : IndexDescriptor) : Action IndexOutcome := do
  let schema ← Action.schema className
  if index.fields.isEmpty then throw (.invalidQuery s!"index {index.name} has no fields")
  (index.fields.forM fun f => checkField schema className f.1 : Outcome Unit)
  let wanted := storeIndex schema index
  let existing : List StoreIndex ← Program.call (.listIndexes className)
  match existing.find? fun i => i.name = wanted.name with
  | some current =>
    if current.sameDefinition wanted then return .unchanged
    else throw (.duplicate
      s!"index {wanted.name} already exists on {className} with a different definition")
  | none =>
    Program.call (.createIndex className wanted)
    Catalog.recordIndex className index
    Action.publish (.ofClass className)
    return .created

/-- Drops an index and its record, and answers whether the store had it. -/
def dropIndex (className name : String) : Action Bool := do
  let existing : List StoreIndex ← Program.call (.listIndexes className)
  let existed := existing.any fun i => i.name = name
  if existed then Program.call (.dropIndex className name)
  Catalog.forgetIndex className name
  Action.publish (.ofClass className)
  return existed

/-- The stored keys of the fields to delete, all of which must be declared. -/
def storedKeys (schema : ClassSchema) (className : String) (names : List String) :
    Outcome NameSet :=
  names.foldlM (fun keys name =>
    match schema.fieldType? name with
    | none =>
      .error (.schemaViolation s!"field {name} does not exist on {className}, cannot delete")
    | some ty =>
      .ok (if ty.isRelation then keys else NameSet.insert (Stored.keyPath schema name) keys)) []

/-- Deletes fields from the schema of a class and from its objects. -/
def deleteFields (className : String) (names : List String) : Action ClassSchema := do
  let schema ← (Catalog.require className : StoreAction ClassSchema)
  let keys ← (storedKeys schema className names : Outcome NameSet)
  let updated ← (Catalog.removeFields className names : StoreAction ClassSchema)
  let existing : List StoreIndex ← Program.call (.listIndexes className)
  for index in existing do
    if index.keys.all fun k => keys.contains (Text.root k.1) then
      Program.call (.dropIndex className index.name)
  for (name, index) in schema.indexes do
    if index.fields.all fun f => names.contains f.1 then Catalog.forgetIndex className name
  for name in names do
    if isRelationField schema name then
      let _ ← (Join.drop className name : StoreAction Bool)
  if !keys.isEmpty then
    let _ ← Program.call (.update className .all { unset := keys } none)
  Action.publish (.ofClass className)
  let after ← (Catalog.load className : StoreAction (Option ClassSchema))
  return after.getD updated

/-- Makes sure that the class of a default index exists. -/
def ensureClass (className : String) : Action Unit := do
  let known ← (Catalog.load className : StoreAction (Option ClassSchema))
  if known.isNone then
    let schema ← (ClassSchema.create className : Outcome ClassSchema)
    tryCatch (Catalog.createClass schema : StoreAction Unit) fun e =>
      match e with
      | .duplicate _ => pure ()
      | e => throw e
    Action.publish (.ofClass className)

/-- Makes sure that the default indexes which are turned on exist. -/
def ensureDefaults (config : DefaultIndexes) : Action (List (IndexPurpose × IndexOutcome)) :=
  (IndexPurpose.all.filter (IndexPurpose.isEnabled config)).mapM fun purpose => do
    ensureClass purpose.className
    return (purpose, ← ensureIndex purpose.className purpose.descriptor)

end Indexing

end ObjectEngine
