import ObjectEngine.Text.Split
import ObjectEngine.Value

/-!
# Update operators

An update is a map from field paths to operators, so that its effect does not depend
on the order in which a caller lists them.
-/

namespace ObjectEngine

/-- What an update does at one path. -/
inductive UpdateOp
  | set (v : Value)
  /-- Adds to the number there, or sets it. -/
  | increment (amount : Value)
  /-- Appends every value. -/
  | add (vs : List Value)
  /-- Appends the values that are not there. -/
  | addUnique (vs : List Value)
  /-- Removes every occurrence of each value. -/
  | remove (vs : List Value)
  /-- Sets the value when the update inserts an object. -/
  | setOnInsert (v : Value)
  | delete
  | addRelation (ps : List Pointer)
  | removeRelation (ps : List Pointer)
  deriving Inhabited

namespace UpdateOp

/-- The name of an operator in error texts. -/
def name : UpdateOp → String
  | .set _ => "Set"
  | .increment _ => "Increment"
  | .add _ => "Add"
  | .addUnique _ => "AddUnique"
  | .remove _ => "Remove"
  | .setOnInsert _ => "SetOnInsert"
  | .delete => "Delete"
  | .addRelation _ => "AddRelation"
  | .removeRelation _ => "RemoveRelation"

end UpdateOp

/-- Operators by field path. -/
abbrev UpdateMap := Members UpdateOp

end ObjectEngine
