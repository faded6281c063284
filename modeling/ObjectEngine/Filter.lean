import ObjectEngine.Regex
import ObjectEngine.Value

/-!
# Filters and find options

What callers ask for: a tree of constraints on fields, and how the objects found are sorted,
cut and extended.
-/

namespace ObjectEngine

/-- An order that a field must have to a value. -/
inductive Comparison
  | lt
  | le
  | gt
  | ge
  deriving DecidableEq, Inhabited

/-- A region of the globe. -/
inductive GeoRegion
  /-- Between two corners. -/
  | box (southWest northEast : GeoPoint)
  | polygon (ring : List GeoPoint)
  /-- Within a distance, in radians, of a centre. -/
  | sphere (center : GeoPoint) (radius : Double)
  deriving Inhabited

/-- A constraint on one field. -/
inductive Constraint
  /-- Equality; an array field has it if an element has. -/
  | equals (v : Value)
  | notEqual (v : Value)
  | compare (c : Comparison) (v : Value)
  | isIn (vs : List Value)
  | notIn (vs : List Value)
  /-- An array field holds every one of the values. -/
  | containsAll (vs : List Value)
  | isPresent (b : Bool)
  | regex (pattern options : String)
  /-- Equality of texts up to case. -/
  | equalsIgnoreCase (text : String)
  | geoWithin (region : GeoRegion)
  /-- A relation field holds the object. -/
  | relationContains (p : Pointer)
  deriving Inhabited

namespace Constraint

/-- A match of a regular expression, refused where its options or its pattern are not
understood. -/
def matching (pattern options : String) : Outcome Constraint :=
  match options.toList.find? fun c => !Regex.Flags.letters.contains c with
  | some c => .error (.invalidQuery s!"unsupported regex option '{c}'")
  | none =>
    match Regex.compile? (.ofLetters options) pattern with
    | some _ => .ok (.regex pattern options)
    | none => .error (.invalidQuery "bad $regex: *")

end Constraint

/-- A filter. -/
inductive Filter
  /-- Every object. -/
  | all
  | and (parts : List Filter)
  | or (parts : List Filter)
  | field (path : String) (c : Constraint)
  /-- The members of the relation `key` of an object. -/
  | relatedTo (owner : Pointer) (key : String)
  /-- A script that the store evaluates. -/
  | raw (script : String)
  deriving Inhabited

namespace Filter

/-- Both filters at once: `all` is dropped and conjunctions are joined into one. -/
def both : Filter → Filter → Filter
  | .all, f => f
  | f, .all => f
  | .and left, .and right => .and (left ++ right)
  | .and left, f => .and (left ++ [f])
  | f, .and right => .and (f :: right)
  | l, r => .and [l, r]

end Filter

/-- A field to sort by. -/
structure SortKey where
  field : String
  descending : Bool
  deriving DecidableEq, Inhabited

namespace SortKey

/-- Reads a sort key: a minus sign in front sorts downwards. -/
def parse (spec : String) : SortKey :=
  match spec.toList with
  | '-' :: field => ⟨String.ofList field, true⟩
  | _ => ⟨spec, false⟩

end SortKey

/-- How the objects found are sorted, cut and extended. -/
structure FindOptions where
  sort : List SortKey := []
  skip : Option Nat := none
  limit : Option Nat := none
  /-- The fields to return; all visible ones if not given. -/
  keys : Option (List String) := none
  maxTimeMs : Option Nat := none
  /-- Paths of references to replace by their objects. -/
  includes : List String := []
  deriving Inhabited

end ObjectEngine
