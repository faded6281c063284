import ObjectEngine.Regex
import ObjectEngine.Store.Predicate
import ObjectEngine.Store.Script
import ObjectEngine.Text.Numeral

/-!
# Matching, sorting and projecting records

`Predicate.matches` decides whether a record satisfies a predicate. The parts of a
conjunction or a disjunction are evaluated from left to right until the answer is known, and
the delays of the scripts evaluated on the way add up, also when a script fails in the end.

A dotted path reaches every value below it (`Record.values`): in an array a numeric segment picks
one item, and any other segment goes on in every item that is a record. Points are pairs of
longitude and latitude in degrees. A polygon contains a point if a ray from it crosses the ring an
odd number of times; distances on the sphere are by the haversine formula.
-/

namespace ObjectEngine

/-! ### Values at a path -/

namespace Datum

/-- The values along path segments. -/
def along : List String → Datum → List Datum
  | [], d => [d]
  | s :: rest, .record members =>
    match members.lookup s with
    | some child => along rest child
    | none => []
  | s :: rest, .array items =>
    match Text.word64? s.toList with
    | some i =>
      match items[i]? with
      | some item => along rest item
      | none => []
    | none => items.flatMap fun item => match item with
      | .record members =>
        match members.lookup s with
        | some child => along rest child
        | none => []
      | _ => []
  | _ :: _, _ => []

/-- Values together with the items of those that are arrays. -/
def withItems (values : List Datum) : List Datum :=
  values.flatMap fun v => match v with
    | .array items => v :: items
    | _ => [v]

end Datum

namespace Record

/-- Every value at a dotted path. -/
def values (record : Record) (path : String) : List Datum :=
  Datum.along (Text.split '.' path) (.record record)

end Record

/-! ### Points in regions -/

namespace Region

/-- An angle in degrees as radians. -/
def radians (x : Double) : Float := x.toFloat * (3.14159265358979323846264338327950288 / 180.0)

/-- Whether the ray from a point crosses the edge between two corners. -/
def crosses (point from_ to_ : Double × Double) : Bool :=
  let x := point.1.toFloat
  let y := point.2.toFloat
  let xi := from_.1.toFloat
  let yi := from_.2.toFloat
  let xj := to_.1.toFloat
  let yj := to_.2.toFloat
  (decide (yi > y) != decide (yj > y)) && decide (x < (xj - xi) * (y - yi) / (yj - yi) + xi)

/-- Whether the ray from a point crosses a ring an odd number of times, starting at the edge
between its first corner and `last`. -/
def inRing (point : Double × Double) (last : Double × Double) : List (Double × Double) → Bool
  | [] => false
  | corner :: rest => crosses point corner last != inRing point corner rest

/-- The distance of two points in radians. -/
def distance (a b : Double × Double) : Double :=
  let lng1 := radians a.1
  let lat1 := radians a.2
  let lng2 := radians b.1
  let lat2 := radians b.2
  let s := ((lat2 - lat1) / 2.0).sin
  let t := ((lng2 - lng1) / 2.0).sin
  let h := s * s + lat1.cos * lat2.cos * (t * t)
  Double.ofFloat (2.0 * h.sqrt.asin)

/-- Whether a region contains a point; edges of a box belong to it. -/
def contains : Region → Double × Double → Bool
  | .box bottomLeft upperRight, p =>
    bottomLeft.1.le p.1 && p.1.le upperRight.1 && bottomLeft.2.le p.2 && p.2.le upperRight.2
  | .polygon ring, p =>
    match ring.getLast? with
    | some last => inRing p last ring
    | none => false
  | .sphere center radius, p => (distance p center).le radius

end Region

/-- The point that a value is: an array of two numbers. -/
def Datum.point? : Datum → Option (Double × Double)
  | .array [lng, lat] => do some (← lng.asDouble?, ← lat.asDouble?)
  | _ => none

/-! ### Conditions -/

namespace Condition

/-- Whether one of the values at a path, or an item of one, equals a value. A path without
values equals `null`. -/
def equalsAny (c : Option Collation) (values : List Datum) (d : Datum) : Bool :=
  (values.isEmpty && match d with
    | .null => true
    | _ => false) ||
  (Datum.withItems values).any fun v => Datum.equalUnder c v d

/-- Whether one of the values at a path, or an item of one, stands in an order to a value. -/
def comparesAny (c : Option Collation) (values : List Datum) (d : Datum)
    (accepts : Ordering → Bool) : Bool :=
  (Datum.withItems values).any fun v => (Datum.compare? c v d).any accepts

/-- Whether the values at a path satisfy a condition. -/
def holds (c : Option Collation) (values : List Datum) : Condition → Outcome Bool
  | .eq d => .ok (equalsAny c values d)
  | .ne d => .ok (!equalsAny c values d)
  | .gt d => .ok (comparesAny c values d (· == .gt))
  | .ge d => .ok (comparesAny c values d (· != .lt))
  | .lt d => .ok (comparesAny c values d (· == .lt))
  | .le d => .ok (comparesAny c values d (· != .gt))
  | .isIn ds => .ok (ds.any (equalsAny c values))
  | .notIn ds => .ok (!ds.any (equalsAny c values))
  | .containsAll ds => .ok (!ds.isEmpty && ds.all (equalsAny c values))
  | .isPresent b => .ok (values.isEmpty != b)
  | .regex pattern options =>
    match Regex.compile? (.ofLetters options) pattern with
    | some r => .ok ((Datum.withItems values).any fun v => v.asString?.any r.isMatch)
    | none => .error (.store 51091 "invalid regular expression: *")
  | .geoWithin region => .ok (values.any fun v => v.point?.any region.contains)

end Condition

/-! ### Predicates -/

namespace Predicate

mutual

/-- Whether a record satisfies a predicate, and the delay collected on the way. -/
def eval (c : Option Collation) (record : Record) : Predicate → Outcome Bool × Nat
  | .all => (.ok true, 0)
  | .and parts => evalUntil c record false parts
  | .or parts => evalUntil c record true parts
  | .nor parts =>
    let (r, delay) := evalUntil c record true parts
    (r.map not, delay)
  | .field path cond => (cond.holds c (record.values path), 0)
  | .script text =>
    match Script.evaluate text record with
    | .ok r => (.ok r.matched, r.delayMs)
    | .error e => (.error e, 0)

/-- Evaluates predicates up to the first whose value is `stop`; the value is `stop` if there
is one. -/
def evalUntil (c : Option Collation) (record : Record) (stop : Bool) :
    List Predicate → Outcome Bool × Nat
  | [] => (.ok !stop, 0)
  | p :: rest =>
    match eval c record p with
    | (.ok b, delay) =>
      if b = stop then (.ok stop, delay)
      else
        let (r, more) := evalUntil c record stop rest
        (r, delay + more)
    | failed => failed

end

end Predicate

/-! ### Sorting -/

namespace Record

/-- The value a record sorts by: the first at the path, or `null`. -/
def sortValue (record : Record) (path : String) : Datum :=
  ((record.values path).head?).getD .null

/-- The order of two records by sort keys, the first key on which they differ deciding. -/
def orderBy (c : Option Collation) (a b : Record) : List (String × Int32) → Ordering
  | [] => .eq
  | (path, direction) :: rest =>
    let o := Datum.sortOrder c (a.sortValue path) (b.sortValue path)
    (if direction < 0 then o.swap else o).then (orderBy c a b rest)

/-- Inserts a record before the first from the right that it does not sort before. The list
is kept in reverse. -/
def insertSorted (before : Record → Record → Bool) (r : Record) : List Record → List Record
  | [] => [r]
  | last :: rest => if before r last then last :: insertSorted before r rest else r :: last :: rest

/-- Records in the order of sort keys; equal ones keep their places. Short lists are sorted
by insertion, long ones by merging. -/
def sort (c : Option Collation) (keys : List (String × Int32)) (records : List Record) :
    List Record :=
  if keys.isEmpty then records
  else if records.length ≤ 20 then
    (records.foldl (fun acc r => insertSorted (fun a b => orderBy c a b keys == .lt) r acc)
      []).reverse
  else records.mergeSort fun a b => orderBy c a b keys != .gt

/-- The members of a record that a projection keeps: the id and the roots of its paths. -/
def project (projection : List String) (record : Record) : Record :=
  record.filter fun m => m.1 = idKey || projection.any fun p => Text.root p = m.1

end Record

end ObjectEngine
