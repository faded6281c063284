import ObjectEngine.Store.Predicate
import ObjectEngine.Wire.Datum
import ObjectEngine.Wire.Schema

/-!
# Store queries and updates in wire form

The counterparts of filters, find options and updates on the side of the store. A predicate that
holds everywhere is the text `all`.
-/

namespace ObjectEngine

open Wire

namespace Wire

/-! ### Conditions -/

/-- A point as its longitude and latitude. -/
def coordinates : Json → Reader (Double × Double) := pair FromWire.ofWire FromWire.ofWire

/-- The wire form of a point. -/
def ofCoordinates (p : Double × Double) : Json := .arr [wire p.1, wire p.2]

/-- Reads a condition of a kind. -/
def taggedCondition (tag : String) (j : Json) : Reader Condition :=
  match tag with
  | "eq" => .eq <$> datum j
  | "ne" => .ne <$> datum j
  | "gt" => .gt <$> datum j
  | "gte" => .ge <$> datum j
  | "lt" => .lt <$> datum j
  | "lte" => .le <$> datum j
  | "in" => .isIn <$> items datum j
  | "nin" => .notIn <$> items datum j
  | "all" => .containsAll <$> items datum j
  | "exists" => .isPresent <$> FromWire.ofWire j
  | "regex" => do
    let (pattern, options) ← pair FromWire.ofWire FromWire.ofWire j
    return .regex pattern options
  | "box" => do
    let (bottomLeft, upperRight) ← pair coordinates coordinates j
    return .geoWithin (.box bottomLeft upperRight)
  | "polygon" => (.geoWithin ∘ .polygon) <$> items coordinates j
  | "sphere" => do
    let (center, radius) ← pair coordinates FromWire.ofWire j
    return .geoWithin (.sphere center radius)
  | _ => malformed

/-- The kind of a condition and what it says. -/
def conditionParts : Condition → String × Json
  | .eq d => ("eq", wire d)
  | .ne d => ("ne", wire d)
  | .gt d => ("gt", wire d)
  | .ge d => ("gte", wire d)
  | .lt d => ("lt", wire d)
  | .le d => ("lte", wire d)
  | .isIn ds => ("in", wire ds)
  | .notIn ds => ("nin", wire ds)
  | .containsAll ds => ("all", wire ds)
  | .isPresent b => ("exists", wire b)
  | .regex pattern options => ("regex", .arr [.str pattern, .str options])
  | .geoWithin (.box bottomLeft upperRight) =>
    ("box", .arr [ofCoordinates bottomLeft, ofCoordinates upperRight])
  | .geoWithin (.polygon ring) => ("polygon", .arr (ring.map ofCoordinates))
  | .geoWithin (.sphere center radius) => ("sphere", .arr [ofCoordinates center, wire radius])

/-! ### Predicates -/

mutual

/-- Reads a predicate. -/
def predicate : Json → Reader Predicate
  | .null => .ok .all
  | .str "all" => .ok .all
  | .obj [("and", .arr ps)] => do return .and (← predicates ps)
  | .obj [("or", .arr ps)] => do return .or (← predicates ps)
  | .obj [("nor", .arr ps)] => do return .nor (← predicates ps)
  | .obj [("where", .str script)] => .ok (.script script)
  | .obj [("c", c), ("path", .str path)] => do return .field path (← choice taggedCondition c)
  | _ => malformed

/-- Reads a list of predicates. -/
def predicates : List Json → Reader (List Predicate)
  | [] => .ok []
  | j :: rest => do
    let p ← predicate j
    return p :: (← predicates rest)

end

mutual

/-- The wire form of a predicate. -/
def ofPredicate : Predicate → Json
  | .all => .str "all"
  | .and ps => .obj [("and", .arr (ofPredicates ps))]
  | .or ps => .obj [("or", .arr (ofPredicates ps))]
  | .nor ps => .obj [("nor", .arr (ofPredicates ps))]
  | .field path c => .obj [("c", .obj [conditionParts c]), ("path", .str path)]
  | .script text => .obj [("where", .str text)]

/-- The wire forms of a list of predicates. -/
def ofPredicates : List Predicate → List Json
  | [] => []
  | p :: rest => ofPredicate p :: ofPredicates rest

end

end Wire

instance : ToWire Predicate := ⟨ofPredicate⟩

instance : FromWire Predicate := ⟨predicate⟩

/-! ### Updates -/

instance : ToWire Edit where
  wire e := .object [("set", wire e.set), ("unset", wire e.unset), ("inc", wire e.inc),
    ("push", ofMembers e.push), ("addToSet", ofMembers e.addToSet), ("pull", ofMembers e.pull),
    ("setOnInsert", wire e.setOnInsert)]

instance : FromWire Edit where
  ofWire j := do
    let lists (key : String) : Reader (Members (List Datum)) := members (items datum) (member j key)
    let unset : List String ← field j "unset"
    return {
      set := ← field j "set"
      unset := NameSet.ofList unset
      inc := ← field j "inc"
      push := ← lists "push"
      addToSet := ← lists "addToSet"
      pull := ← lists "pull"
      setOnInsert := ← field j "setOnInsert" }

/-! ### Queries -/

instance : ToWire Selection where
  wire s := .object [("filter", wire s.filter), ("sort", ofDirections s.sort),
    ("skip", wire s.skip), ("limit", wire s.limit), ("projection", wire s.projection),
    ("collation", wire s.collation), ("maxTimeMs", wire s.maxTimeMs)]

instance : FromWire Selection where
  ofWire j := do
    return {
      filter := ← field j "filter"
      sort := ← directions (member j "sort")
      skip := ← fieldOr 0 j "skip"
      limit := ← field j "limit"
      projection := ← field j "projection"
      collation := ← field j "collation"
      maxTimeMs := ← field j "maxTimeMs" }

end ObjectEngine
