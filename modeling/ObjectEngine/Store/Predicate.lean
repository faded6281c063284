import ObjectEngine.Store.Datum

/-!
# Store queries

The predicates, updates and indexes of the document store. Points of a region are pairs of
longitude and latitude.
-/

namespace ObjectEngine

/-- How texts are compared: `strength` 1 by base letters, 2 with accents, 3 with case. -/
structure Collation where
  locale : String
  strength : Nat
  deriving DecidableEq, Inhabited

namespace Collation

/-- Equality of texts up to case. -/
def caseInsensitive : Collation := ⟨"en_US", 2⟩

/-- Whether case makes no difference. -/
def ignoresCase (c : Collation) : Bool := c.strength ≤ 2

end Collation

/-- A region in the store's order of coordinates. -/
inductive Region
  | box (bottomLeft upperRight : Double × Double)
  | polygon (ring : List (Double × Double))
  | sphere (center : Double × Double) (radius : Double)
  deriving Inhabited

/-- A condition on the values at one path. -/
inductive Condition
  | eq (d : Datum)
  | ne (d : Datum)
  | gt (d : Datum)
  | ge (d : Datum)
  | lt (d : Datum)
  | le (d : Datum)
  | isIn (ds : List Datum)
  | notIn (ds : List Datum)
  | containsAll (ds : List Datum)
  | isPresent (b : Bool)
  | regex (pattern options : String)
  | geoWithin (region : Region)
  deriving Inhabited

/-- A predicate on records. -/
inductive Predicate
  | all
  | and (parts : List Predicate)
  | or (parts : List Predicate)
  | nor (parts : List Predicate)
  | field (path : String) (c : Condition)
  /-- A script evaluated on each record. -/
  | script (text : String)
  deriving Inhabited

namespace Predicate

/-- The record with an id. -/
def byId (id : String) : Predicate := .field Record.idKey (.eq (.string id))

/-- The records with one of some ids. -/
def byIds (ids : List String) : Predicate := .field Record.idKey (.isIn (ids.map .string))

/-- Both predicates at once: `all` is dropped and a conjunction on the left is extended. -/
def both : Predicate → Predicate → Predicate
  | .all, p => p
  | p, .all => p
  | .and left, .and right => .and (left ++ right)
  | .and left, p => .and (left ++ [p])
  | l, r => .and [l, r]

end Predicate

/-- A query. -/
structure Selection where
  filter : Predicate := .all
  /-- Paths with their directions, `-1` downwards, the first deciding. -/
  sort : List (String × Int32) := []
  skip : Nat := 0
  limit : Option Nat := none
  /-- The paths whose roots are returned, besides the id. -/
  projection : Option (List String) := none
  collation : Option Collation := none
  maxTimeMs : Option Nat := none
  deriving Inhabited

/-- An update of one record, by the kind of change at each path. -/
structure Edit where
  set : Members Datum := []
  unset : NameSet := []
  inc : Members Datum := []
  push : Members (List Datum) := []
  addToSet : Members (List Datum) := []
  pull : Members (List Datum) := []
  /-- Applied only to a record that is being inserted. -/
  setOnInsert : Members Datum := []
  deriving Inhabited

namespace Edit

/-- Whether the update changes nothing. -/
def isEmpty (e : Edit) : Bool :=
  e.set.isEmpty && e.unset.isEmpty && e.inc.isEmpty && e.push.isEmpty && e.addToSet.isEmpty &&
    e.pull.isEmpty && e.setOnInsert.isEmpty

/-- Every path the update touches, with the operator that touches it. -/
def touched (e : Edit) : List (String × String) :=
  (Members.keys e.set).map (·, "$set") ++
  e.unset.map (·, "$unset") ++
  (Members.keys e.inc).map (·, "$inc") ++
  (Members.keys e.push).map (·, "$push") ++
  (Members.keys e.addToSet).map (·, "$addToSet") ++
  (Members.keys e.pull).map (·, "$pullAll") ++
  (Members.keys e.setOnInsert).map (·, "$setOnInsert")

end Edit

/-- An index of a collection. -/
structure StoreIndex where
  name : String
  keys : List (String × Int32)
  unique : Bool
  /-- Records without a value at any of the paths are left out. -/
  sparse : Bool
  collation : Option Collation
  deriving DecidableEq, Inhabited

namespace StoreIndex

/-- Whether two indexes enforce and serve the same, whatever their names. -/
def sameDefinition (a b : StoreIndex) : Bool :=
  a.keys = b.keys && a.unique = b.unique && a.sparse = b.sparse && a.collation = b.collation

end StoreIndex

end ObjectEngine
