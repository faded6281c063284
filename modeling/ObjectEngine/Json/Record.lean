import ObjectEngine.Json

/-!
# Records in JSON

A record with named fields is read from an object, whose other members are passed over, or
from an array that gives the fields in order and may stop early. `Json.record?` finds the
fields either way; the remaining readers of this file take a field to a plain type.
-/

namespace ObjectEngine

namespace Json

/-- The fields of a record by position, each if it is given. An object that names a field
twice and an array with more items than fields are refused. -/
def record? (names : List String) : Json → Option (List (Option Json))
  | .obj members =>
    if names.all fun n => (members.filter fun m => m.1 = n).length ≤ 1 then
      some (names.map fun n => members.lookup n)
    else none
  | .arr items =>
    if items.length ≤ names.length then
      some (items.map some ++ List.replicate (names.length - items.length) none)
    else none
  | _ => none

/-- A field that has a default value. -/
def orElse {α : Type} (fallback : α) (read? : Json → Option α) : Option Json → Option α
  | none => some fallback
  | some j => read? j

/-- A field that may be `null`. -/
def nullable? {α : Type} (read? : Json → Option α) : Json → Option (Option α)
  | .null => some none
  | j => (read? j).map some

/-- A natural number below `bound`. -/
def natBelow? (bound : Nat) : Json → Option Nat
  | .int n => if 0 ≤ n ∧ n < bound then some n.toNat else none
  | _ => none

/-- An array of items of one type. -/
def list? {α : Type} (read? : Json → Option α) : Json → Option (List α)
  | .arr items => items.mapM read?
  | _ => none

/-- An object of members of one type. -/
def map? {α : Type} (read? : Json → Option α) : Json → Option (Members α)
  | .obj members => members.mapM fun m => (read? m.2).map fun v => (m.1, v)
  | _ => none

end Json

end ObjectEngine
