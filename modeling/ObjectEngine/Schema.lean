import ObjectEngine.Error

/-!
# Class schemas

The declared field types of a class and the indexes that back it. Every class carries the
default fields `objectId`, `createdAt`, `updatedAt` and `ACL`; the system classes, whose
names start with an underscore, carry more.
-/

namespace ObjectEngine

/-! ### Field types -/

/-- The declared type of a field. -/
inductive FieldType
  | string
  | number
  | boolean
  | date
  | object
  | array
  | pointer (target : String)
  | relation (target : String)
  | geoPoint
  | polygon
  | bytes
  | file
  | acl
  deriving DecidableEq, Inhabited

namespace FieldType

/-- The name of a type, without the class it refers to. -/
def name : FieldType → String
  | .string => "String"
  | .number => "Number"
  | .boolean => "Boolean"
  | .date => "Date"
  | .object => "Object"
  | .array => "Array"
  | .pointer _ => "Pointer"
  | .relation _ => "Relation"
  | .geoPoint => "GeoPoint"
  | .polygon => "Polygon"
  | .bytes => "Bytes"
  | .file => "File"
  | .acl => "ACL"

/-- The class that a pointer or relation refers to. -/
def target? : FieldType → Option String
  | .pointer target | .relation target => some target
  | _ => none

/-- Whether the type is a relation. -/
def isRelation : FieldType → Bool
  | .relation _ => true
  | _ => false

/-- The type as error texts show it. -/
def shown (ty : FieldType) : String :=
  match ty.target? with
  | some target => s!"{ty.name}<{target}>"
  | none => ty.name

end FieldType

/-! ### Indexes -/

/-- A named index over fields of a class, each with its direction (`1` or `-1`). -/
structure IndexDescriptor where
  name : String
  fields : List (String × Int32)
  unique : Bool := false
  caseInsensitive : Bool := false
  deriving DecidableEq, Inhabited

namespace IndexDescriptor

/-- The ascending index over one field. -/
def single (field : String) : IndexDescriptor :=
  { name := s!"{field}_1", fields := [(field, 1)] }

/-- The index with unique keys. -/
def makeUnique (index : IndexDescriptor) : IndexDescriptor :=
  { index with unique := true }

/-- The index that ignores case; over one field it is renamed. -/
def makeCaseInsensitive (index : IndexDescriptor) : IndexDescriptor :=
  match index.fields with
  | [(field, _)] => { index with caseInsensitive := true, name := s!"case_insensitive_{field}" }
  | _ => { index with caseInsensitive := true }

/-- Whether the index has fields and all of them are `field`. -/
def coversOnly (index : IndexDescriptor) (field : String) : Bool :=
  !index.fields.isEmpty && index.fields.all fun f => f.1 = field

/-- Whether `field` is one of the index's fields. -/
def covers (index : IndexDescriptor) (field : String) : Bool :=
  index.fields.any fun f => f.1 = field

end IndexDescriptor

/-! ### Names -/

/-- An ASCII letter followed by ASCII letters, digits and underscores. -/
def isIdentifier (name : String) : Bool :=
  match name.toList with
  | [] => false
  | c :: rest => c.isAlpha && rest.all fun d => d.isAlphanum || d = '_'

/-- The classes that may exist despite the underscore. -/
def systemClasses : List String := ["_User", "_Role", "_Session", "_Installation"]

/-- The fields every class carries. -/
def defaultFields : List String := ["objectId", "createdAt", "updatedAt", "ACL"]

/-- Whether a class may have this name. -/
def isClassName (name : String) : Bool := systemClasses.contains name || isIdentifier name

/-- Whether a caller may declare a field of this name. -/
def isFieldName (name : String) : Bool := isIdentifier name

/-- Whether a field is an internal of the storage layout. -/
def isInternalField (name : String) : Bool := name.toList.head? = some '_'

/-! ### Classes -/

/-- The schema of a class. -/
structure ClassSchema where
  className : String
  fields : Members FieldType
  indexes : Members IndexDescriptor
  deriving DecidableEq, Inhabited

namespace ClassSchema

/-- The fields a system class carries beside the default ones. -/
def systemFields : String → List (String × FieldType)
  | "_User" =>
    [("username", .string), ("password", .string), ("email", .string),
     ("emailVerified", .boolean), ("authData", .object)]
  | "_Role" => [("name", .string), ("users", .relation "_User"), ("roles", .relation "_Role")]
  | "_Session" => [("user", .pointer "_User"), ("sessionToken", .string), ("expiresAt", .date)]
  | "_Installation" =>
    [("installationId", .string), ("deviceToken", .string), ("deviceType", .string)]
  | _ => []

/-- The fields a class has from the start. -/
def initialFields (className : String) : Members FieldType :=
  Members.ofList ([("objectId", .string), ("createdAt", .date), ("updatedAt", .date), ("ACL", .acl)]
    ++ systemFields className)

/-- The schema of a new class. -/
def create (className : String) : Outcome ClassSchema :=
  if isClassName className then
    .ok { className, fields := initialFields className, indexes := [] }
  else .error (.invalidQuery s!"invalid class name: {className}")

/-- The declared type of a field. -/
def fieldType? (schema : ClassSchema) (name : String) : Option FieldType :=
  schema.fields.lookup name

/-- Whether a field is declared. -/
def hasField (schema : ClassSchema) (name : String) : Bool := (schema.fieldType? name).isSome

/-- Declares a field; to declare it again with the same type changes nothing. -/
def addField (schema : ClassSchema) (name : String) (ty : FieldType) : Outcome ClassSchema :=
  if !isFieldName name then .error (.invalidKeyName name)
  else match schema.fieldType? name with
    | some existing =>
      if existing = ty then .ok schema
      else .error (.typeMismatch name existing.shown ty.shown)
    | none => .ok { schema with fields := Members.insert name ty schema.fields }

/-- The schema of a new class with further fields. -/
def withFields (className : String) (fields : List (String × FieldType)) : Outcome ClassSchema := do
  fields.foldlM (fun schema f => schema.addField f.1 f.2) (← create className)

/-- Removes a field; the default fields stay. -/
def removeField (schema : ClassSchema) (name : String) : Outcome ClassSchema :=
  if defaultFields.contains name then
    .error (.schemaViolation s!"cannot remove default field {name}")
  else .ok { schema with fields := Members.erase name schema.fields }

/-- The relation fields with the classes they relate to. -/
def relationFields (schema : ClassSchema) : List (String × String) :=
  schema.fields.filterMap fun f => match f.2 with
    | .relation target => some (f.1, target)
    | _ => none

/-- The first case-insensitive index over exactly one field. -/
def caseInsensitiveIndex? (schema : ClassSchema) (field : String) : Option IndexDescriptor :=
  (Members.values schema.indexes).find? fun index =>
    index.caseInsensitive && index.coversOnly field

end ClassSchema

end ObjectEngine
