import ObjectEngine.Caller
import ObjectEngine.Filter
import ObjectEngine.Update
import ObjectEngine.Wire.Value

/-!
# Requests in wire form

Callers, filters, find options and updates. A filter that matches everything is the text `all`;
every other filter, constraint and operator is an object whose key names its kind.
-/

namespace ObjectEngine

open Wire

instance : FromWire Caller where
  ofWire j := do
    let roles : List String ← field j "roles"
    let user : Option String ← field j "user"
    return { principal := user.map fun id => ⟨id, roles⟩, privileged := ← field j "priv",
             protectedFields := ← field j "protected" }

namespace Wire

/-! ### Constraints -/

/-- Reads a constraint of a kind. -/
def taggedConstraint (tag : String) (j : Json) : Reader Constraint :=
  match tag with
  | "eq" => .equals <$> FromWire.ofWire j
  | "ne" => .notEqual <$> FromWire.ofWire j
  | "lt" => .compare .lt <$> FromWire.ofWire j
  | "lte" => .compare .le <$> FromWire.ofWire j
  | "gt" => .compare .gt <$> FromWire.ofWire j
  | "gte" => .compare .ge <$> FromWire.ofWire j
  | "in" => .isIn <$> FromWire.ofWire j
  | "nin" => .notIn <$> FromWire.ofWire j
  | "all" => .containsAll <$> FromWire.ofWire j
  | "exists" => .isPresent <$> FromWire.ofWire j
  | "regex" => do
    let (pattern, options) ← pair FromWire.ofWire FromWire.ofWire j
    return .regex pattern options
  | "regexChecked" => do
    let (pattern, options) ← pair FromWire.ofWire FromWire.ofWire j
    checked (Constraint.matching pattern options)
  | "ieq" => .equalsIgnoreCase <$> FromWire.ofWire j
  | "box" => do
    let (southWest, northEast) ← pair FromWire.ofWire FromWire.ofWire j
    return .geoWithin (.box southWest northEast)
  | "polygon" => (.geoWithin ∘ .polygon) <$> FromWire.ofWire j
  | "sphere" => do
    let (center, radius) ← pair FromWire.ofWire FromWire.ofWire j
    return .geoWithin (.sphere center radius)
  | "contains" => .relationContains <$> FromWire.ofWire j
  | _ => malformed

/-- The key of a comparison. -/
def comparisonKey : Comparison → String
  | .lt => "lt"
  | .le => "lte"
  | .gt => "gt"
  | .ge => "gte"

/-- The kind of a constraint and what it says. -/
def constraintParts : Constraint → String × Json
  | .equals v => ("eq", wire v)
  | .notEqual v => ("ne", wire v)
  | .compare c v => (comparisonKey c, wire v)
  | .isIn vs => ("in", wire vs)
  | .notIn vs => ("nin", wire vs)
  | .containsAll vs => ("all", wire vs)
  | .isPresent b => ("exists", wire b)
  | .regex pattern options => ("regex", .arr [.str pattern, .str options])
  | .equalsIgnoreCase text => ("ieq", .str text)
  | .geoWithin (.box southWest northEast) => ("box", .arr [wire southWest, wire northEast])
  | .geoWithin (.polygon ring) => ("polygon", wire ring)
  | .geoWithin (.sphere center radius) => ("sphere", .arr [wire center, wire radius])
  | .relationContains p => ("contains", wire p)

/-! ### Filters -/

mutual

/-- Reads a filter. -/
def filter : Json → Reader Filter
  | .null => .ok .all
  | .str "all" => .ok .all
  | .obj [("and", .arr fs)] => do return .and (← filters fs)
  | .obj [("or", .arr fs)] => do return .or (← filters fs)
  | .obj [("raw", .str script)] => .ok (.raw script)
  | .obj [("related", .arr [.str className, .str objectId, .str key])] =>
    .ok (.relatedTo ⟨className, objectId⟩ key)
  | .obj [("c", c), ("field", .str path)] => do return .field path (← choice taggedConstraint c)
  | _ => malformed

/-- Reads a list of filters. -/
def filters : List Json → Reader (List Filter)
  | [] => .ok []
  | j :: rest => do
    let f ← filter j
    return f :: (← filters rest)

end

mutual

/-- The wire form of a filter. -/
def ofFilter : Filter → Json
  | .all => .str "all"
  | .and fs => .obj [("and", .arr (ofFilters fs))]
  | .or fs => .obj [("or", .arr (ofFilters fs))]
  | .field path c => .obj [("c", .obj [constraintParts c]), ("field", .str path)]
  | .relatedTo owner key =>
    .obj [("related", .arr [.str owner.className, .str owner.objectId, .str key])]
  | .raw script => .obj [("raw", .str script)]

/-- The wire forms of a list of filters. -/
def ofFilters : List Filter → List Json
  | [] => []
  | f :: rest => ofFilter f :: ofFilters rest

end

end Wire

instance : ToWire Filter := ⟨ofFilter⟩

instance : FromWire Filter := ⟨filter⟩

instance : FromWire FindOptions where
  ofWire j := do
    let sort : List String ← field j "sort"
    return {
      sort := sort.map SortKey.parse
      skip := ← field j "skip"
      limit := ← field j "limit"
      keys := ← field j "keys"
      maxTimeMs := ← field j "maxTimeMs"
      includes := ← field j "include" }

/-! ### Updates -/

namespace Wire

/-- Reads an update operator of a kind. -/
def taggedOp (tag : String) (j : Json) : Reader UpdateOp :=
  match tag with
  | "set" => .set <$> FromWire.ofWire j
  | "inc" => .increment <$> FromWire.ofWire j
  | "add" => .add <$> FromWire.ofWire j
  | "addUnique" => .addUnique <$> FromWire.ofWire j
  | "remove" => .remove <$> FromWire.ofWire j
  | "setOnInsert" => .setOnInsert <$> FromWire.ofWire j
  | "addRel" => .addRelation <$> FromWire.ofWire j
  | "removeRel" => .removeRelation <$> FromWire.ofWire j
  | _ => malformed

/-- Reads an update operator. -/
def updateOp : Json → Reader UpdateOp
  | .str "delete" => .ok .delete
  | j => choice taggedOp j

end Wire

instance : FromWire UpdateMap := ⟨members updateOp⟩

end ObjectEngine
