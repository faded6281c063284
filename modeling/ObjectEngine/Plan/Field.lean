import ObjectEngine.Caller
import ObjectEngine.Stored.Document

/-!
# Field paths under the key policy

A path in a filter or an update is checked before anything else: it must be well formed, its
root must not be protected from the caller, and unless the caller is privileged the root must
be a declared field that is not an internal of the storage layout.
-/

namespace ObjectEngine

namespace Plan

/-- What a path refers to. -/
inductive Target
  /-- A declared field, or a subpath of one. -/
  | declared (ty : FieldType) (dotted : Bool)
  /-- A field without a declared type. -/
  | free
  deriving DecidableEq, Inhabited

namespace Target

/-- The declared type of a field that is not a subpath. -/
def wholeType? : Target → Option FieldType
  | .declared ty false => some ty
  | _ => none

/-- Whether the field is a relation. -/
def isRelation : Target → Bool
  | .declared ty _ => ty.isRelation
  | .free => false

end Target

/-- Applies the key policy to a path. -/
def resolve (schema : ClassSchema) (caller : Caller) (path : String) : Outcome Target := do
  let (root, dotted) ← match Text.splitFirst '.' path with
    | some (root, rest) =>
      if root.isEmpty || rest.isEmpty then throw (.invalidKeyName path) else pure (root, true)
    | none => pure (path, false)
  if path.toList.head? = some '$' || (Text.split '.' path).any String.isEmpty then
    throw (.invalidKeyName path)
  if caller.isProtected root then
    throw (.permissionDenied s!"field {root} of {schema.className} is protected")
  if isInternalField root && !caller.privileged then throw (.invalidKeyName root)
  match schema.fieldType? root with
  | some ty => return .declared ty dotted
  | none =>
    if caller.privileged then return .free
    else throw (.invalidKeyName s!"{root} is not a field of {schema.className}")

end Plan

end ObjectEngine
