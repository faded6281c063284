import ObjectEngine.Plan.Field
import ObjectEngine.Sorting
import ObjectEngine.Store.Predicate
import ObjectEngine.Update

/-!
# Updates as store edits

`Plan.update` turns a map of update operators into one update of the store, and the
operators on relation fields into edits of join collections. Two operators may not touch
paths of which one is the other or lies below it.
-/

namespace ObjectEngine

namespace Plan

/-- The fields no update may write. -/
def readOnlyFields : List String := ["objectId", "createdAt", "updatedAt"]

/-- The ids to add to and remove from a relation field. -/
structure RelationEdit where
  field : String
  target : String
  add : List String
  remove : List String
  deriving DecidableEq, Inhabited

/-- What an update does to the store. -/
structure UpdatePlan where
  edit : Edit := {}
  relations : List RelationEdit := []
  deriving Inhabited

namespace UpdatePlan

/-- Whether the update changes nothing. -/
def isEmpty (u : UpdatePlan) : Bool := u.edit.isEmpty && u.relations.isEmpty

end UpdatePlan

/-- An operator that does not fit a field. -/
def opMismatch (path : String) (ty : FieldType) (op : UpdateOp) : EngineError :=
  .typeMismatch path ty.shown op.name

/-- The stored form of a value that is set. -/
def setValue (target : Target) (path : String) (v : Value) : Outcome Datum :=
  match target with
  | .declared ty false => (Stored.encode ty v).inField path
  | _ => Stored.encodeFree v

/-- The ids of references, all of one class. -/
def relationIds (field target : String) (ps : List Pointer) : Outcome (List String) :=
  ps.mapM fun p =>
    if p.className = target then .ok p.objectId
    else .error (.typeMismatch field s!"Relation<{target}>" s!"Pointer<{p.className}>")

/-- The edit of a relation field. -/
def relationEdit (path target : String) (op : UpdateOp) : Outcome RelationEdit :=
  match op with
  | .addRelation ps => do
    return { field := path, target, add := ← relationIds path target ps, remove := [] }
  | .removeRelation ps => do
    return { field := path, target, add := [], remove := ← relationIds path target ps }
  | other => .error (opMismatch path (.relation target) other)

/-- The keys that store an access control list. -/
def aclKeys : List String := [Stored.aclKey, Stored.readPermKey, Stored.writePermKey]

/-- Adds an operator on the access control list. -/
def aclEdit (edit : Edit) (path : String) : UpdateOp → Outcome Edit
  | .set v => do
    let members ← Stored.aclMembers v
    let edit := if members.isEmpty then
        { edit with unset := aclKeys.foldl (fun s k => NameSet.insert k s) edit.unset }
      else edit
    return { edit with set := Members.insertAll edit.set members }
  | .delete => .ok { edit with unset := aclKeys.foldl (fun s k => NameSet.insert k s) edit.unset }
  | other => .error (opMismatch path .acl other)

/-- Refuses an operator on a field of another declared type. -/
def requireOperand (target : Target) (path : String) (expected : FieldType) (op : UpdateOp) :
    Outcome Unit :=
  match target.wholeType? with
  | some ty => if ty = expected then .ok () else .error (opMismatch path ty op)
  | none => .ok ()

/-- Adds an operator on a field that is neither a relation nor the access control list. -/
def fieldEdit (edit : Edit) (target : Target) (path stored : String) (op : UpdateOp) :
    Outcome Edit :=
  match op with
  | .set v => do
    return { edit with set := Members.insert stored (← setValue target path v) edit.set }
  | .setOnInsert v => do
    return { edit with
      setOnInsert := Members.insert stored (← setValue target path v) edit.setOnInsert }
  | .delete => .ok { edit with unset := NameSet.insert stored edit.unset }
  | .increment amount => do
    requireOperand target path .number op
    let d ← match amount with
      | .int n => pure (Datum.int n)
      | .float x => pure (Datum.double x)
      | other => throw (.typeMismatch path "Number" other.typeName)
    return { edit with inc := Members.insert stored d edit.inc }
  | .add vs => do
    requireOperand target path .array op
    return { edit with push := Members.insert stored (← vs.mapM Stored.encodeFree) edit.push }
  | .addUnique vs => do
    requireOperand target path .array op
    return { edit with
      addToSet := Members.insert stored (← vs.mapM Stored.encodeFree) edit.addToSet }
  | .remove vs => do
    requireOperand target path .array op
    return { edit with pull := Members.insert stored (← vs.mapM Stored.encodeFree) edit.pull }
  | .addRelation _ | .removeRelation _ =>
    .error (opMismatch path (target.wholeType?.getD .object) op)

/-- Adds the operator at one path to a plan. -/
def updateStep (schema : ClassSchema) (caller : Caller) (out : UpdatePlan)
    (path : String) (op : UpdateOp) : Outcome UpdatePlan := do
  let root := Text.root path
  if readOnlyFields.contains root then throw (.invalidKeyName s!"{root} is read-only")
  if !caller.privileged && !isInternalField root && !schema.hasField root then
    throw (.schemaViolation s!"field {root} is not defined on class {schema.className}")
  let target ← resolve schema caller path
  match target with
  | .declared ty true =>
    if ty ≠ .object then
      throw (.invalidQuery s!"cannot update a subkey of {ty.shown} field '{path}'")
  | _ => pure ()
  match target.wholeType? with
  | some (.relation related) =>
    return { out with relations := out.relations ++ [← relationEdit path related op] }
  | _ =>
    if root = "ACL" then return { out with edit := ← aclEdit out.edit path op }
    else
      return { out with edit := ← fieldEdit out.edit target path (Stored.keyPath schema path) op }

/-- Whether one path lies strictly below another. -/
def isBelow (path ancestor : String) : Bool :=
  match Text.afterStart? ancestor path with
  | some rest => rest.toList.head? = some '.'
  | none => false

/-- The order of touched paths: by path, then by operator. -/
def touchedLe (a b : String × String) : Bool :=
  a.1 < b.1 || (a.1 = b.1 && !(b.2 < a.2))

/-- The first two touched paths, in order, of which one is the other or lies below it. -/
def conflict? : List (String × String) → Option ((String × String) × (String × String))
  | [] => none
  | a :: rest =>
    match rest.find? fun b => a.1 = b.1 || isBelow b.1 a.1 with
    | some b => some (a, b)
    | none => conflict? rest

/-- Refuses an update that touches a path twice. -/
def checkConflicts (edit : Edit) : Outcome Unit :=
  match conflict? (Sorting.sort touchedLe edit.touched) with
  | some ((a, opA), (b, opB)) =>
    .error (.invalidQuery s!"updating '{b}' with {opB} conflicts with {opA} on '{a}'")
  | none => .ok ()

/-- The plan of a map of operators. -/
def update (schema : ClassSchema) (caller : Caller) (ops : UpdateMap) : Outcome UpdatePlan := do
  let out ← ops.foldlM (fun out m => updateStep schema caller out m.1 m.2) {}
  checkConflicts out.edit
  return out

end Plan

end ObjectEngine
