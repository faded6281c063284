import ObjectEngine.Members

/-!
# Callers

Who makes a request and what was decided about their permissions. A privileged caller sees
and writes everything; any other acts under a list of subjects of access control lists and
may neither read nor filter on the fields that are protected from them.
-/

namespace ObjectEngine

/-- An authenticated user with the roles they hold. -/
structure Principal where
  id : String
  roles : List String
  deriving DecidableEq, Inhabited

/-- The caller of a request. -/
structure Caller where
  principal : Option Principal := none
  privileged : Bool := false
  protectedFields : List String := []
  deriving DecidableEq, Inhabited

namespace Caller

/-- Whether a field is hidden from the caller. -/
def isProtected (caller : Caller) (field : String) : Bool :=
  !caller.privileged && caller.protectedFields.contains field

/-- The subjects the caller acts as; nothing if no access control list binds them. -/
def subjects? (caller : Caller) : Option (List String) :=
  if caller.privileged then none
  else some ("*" :: match caller.principal with
    | some p => p.id :: p.roles.map fun r => s!"role:{r}"
    | none => [])

end Caller

end ObjectEngine
