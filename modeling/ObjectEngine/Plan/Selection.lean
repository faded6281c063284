import ObjectEngine.Plan.Field
import ObjectEngine.Filter
import ObjectEngine.Store.Predicate

/-!
# Filters as store queries

`Plan.filter` turns a caller's filter into a predicate of the store, and
`Plan.selection` a whole find into a query. All errors of schema, key policy and type are
raised here, before the store is called. Equality up to case becomes an equality under a
collation where an index serves it, and otherwise an anchored regular expression.
-/

namespace ObjectEngine

namespace Plan

/-- What a caller's filters may hold. -/
structure Policy where
  caller : Caller
  /-- Whether callers without privilege may use scripts. -/
  allowScripts : Bool := false
  /-- The time limit of a query that does not give its own. -/
  maxTimeMs : Option Nat := none
  deriving Inhabited

/-- A predicate with the collation it needs. -/
structure FilterPlan where
  filter : Predicate
  collation : Option Collation
  deriving Inhabited

/-! ### Conditions -/

/-- A point in the store's order of coordinates. -/
def point (p : GeoPoint) : Outcome (Double × Double) := do
  p.validate
  return (p.longitude, p.latitude)

/-- A region in the store's order of coordinates. -/
def region : GeoRegion → Outcome Region
  | .box southWest northEast => do return .box (← point southWest) (← point northEast)
  | .polygon ring =>
    if ring.length < 3 then
      .error (.invalidQuery "$geoWithin polygon needs at least 3 points")
    else do return .polygon (← ring.mapM point)
  | .sphere center radius =>
    if !radius.isFinite || radius.lt (Double.zero false) then
      .error (.invalidQuery s!"bad $centerSphere radius {radius.plain}")
    else do return .sphere (← point center) radius

/-- The stored form of a value that a field is compared with. -/
def operand (target : Target) (path : String) (v : Value) : Outcome Datum :=
  match target with
  | .free | .declared _ true | .declared .array false | .declared .object false =>
    Stored.encodeFree v
  | .declared ty false => (Stored.encode ty v).inField path

/-- Refuses a field of a declared type that `accepts` does not hold of. -/
def requireType (target : Target) (path expected : String) (accepts : FieldType → Bool) :
    Outcome Unit :=
  match target.wholeType? with
  | some ty => if accepts ty then .ok () else .error (.typeMismatch path expected ty.shown)
  | none => .ok ()

/-- The characters that have a meaning in a regular expression. -/
def isRegexSpecial (c : Char) : Bool :=
  ['\\', '.', '+', '*', '?', '(', ')', '|', '[', ']', '{', '}', '^', '$', '#', '&', '-',
    '~'].contains c

/-- A regular expression that matches exactly a text. -/
def regexEscape (text : String) : String :=
  String.ofList (text.toList.flatMap fun c => if isRegexSpecial c then ['\\', c] else [c])

/-- The condition of a constraint, with the collation it needs. -/
def condition (schema : ClassSchema) (path : String) (target : Target) :
    Constraint → Outcome (Condition × Option Collation)
  | .equals v => do return (.eq (← operand target path v), none)
  | .notEqual v => do return (.ne (← operand target path v), none)
  | .compare c v => do
    let d ← operand target path v
    return (match c with
      | .lt => .lt d
      | .le => .le d
      | .gt => .gt d
      | .ge => .ge d, none)
  | .isIn vs => do return (.isIn (← vs.mapM (operand target path)), none)
  | .notIn vs => do return (.notIn (← vs.mapM (operand target path)), none)
  | .containsAll vs => do
    requireType target path "Array" (· = .array)
    return (.containsAll (← vs.mapM (operand target path)), none)
  | .isPresent b => .ok (.isPresent b, none)
  | .regex pattern options => do
    requireType target path "String" fun ty => ty = .string || ty = .array || ty = .object
    return (.regex pattern options, none)
  | .equalsIgnoreCase text => do
    requireType target path "String" (· = .string)
    if (schema.caseInsensitiveIndex? path).isSome then
      return (.eq (.string text), some Collation.caseInsensitive)
    else
      return (.regex ("^" ++ regexEscape text ++ "$") "i", none)
  | .geoWithin r => do
    requireType target path "GeoPoint" (· = .geoPoint)
    return (.geoWithin (← region r), none)
  | .relationContains _ =>
    .error (.invalidQuery s!"relation containment on '{path}' must be reduced before compilation")

/-- The predicate of a constraint on a field. -/
def fieldFilter (schema : ClassSchema) (policy : Policy) (path : String) (c : Constraint) :
    Outcome FilterPlan := do
  let target ← resolve schema policy.caller path
  match target with
  | .declared ty true =>
    if ty ≠ .object then
      throw (.invalidQuery s!"cannot query a subkey of {ty.shown} field '{path}'")
  | _ => pure ()
  if target.isRelation then
    throw (.invalidQuery
      s!"relation field '{path}' must be queried through $relatedTo or relation containment")
  let (cond, collation) ← condition schema path target c
  return ⟨.field (Stored.keyPath schema path) cond, collation⟩

/-! ### Filters -/

mutual

/-- The predicate of a filter. The last collation that a constraint asks for is kept. -/
def filter (schema : ClassSchema) (policy : Policy) : Filter → Outcome FilterPlan
  | .all => .ok ⟨.all, none⟩
  | .and parts => conjunction schema policy ⟨.all, none⟩ parts
  | .or parts =>
    if parts.isEmpty then .error (.invalidQuery "$or needs at least one clause")
    else do
      let (planned, collation) ← alternatives schema policy parts
      return ⟨.or planned, collation⟩
  | .field path c => fieldFilter schema policy path c
  | .relatedTo _ key =>
    .error (.invalidQuery s!"$relatedTo on '{key}' must be reduced before compilation")
  | .raw text =>
    if policy.allowScripts || policy.caller.privileged then .ok ⟨.script text, none⟩
    else .error (.invalidQuery "sandboxed expressions are disabled")

/-- The predicate that holds where `acc` and all of the filters do. -/
def conjunction (schema : ClassSchema) (policy : Policy) (acc : FilterPlan) :
    List Filter → Outcome FilterPlan
  | [] => .ok acc
  | part :: rest => do
    let p ← filter schema policy part
    conjunction schema policy ⟨acc.filter.both p.filter, p.collation <|> acc.collation⟩ rest

/-- The predicates of a list of filters. -/
def alternatives (schema : ClassSchema) (policy : Policy) :
    List Filter → Outcome (List Predicate × Option Collation)
  | [] => .ok ([], none)
  | part :: rest => do
    let p ← filter schema policy part
    let (ps, collation) ← alternatives schema policy rest
    return (p.filter :: ps, collation <|> p.collation)

end

/-- The records without the permission list `permKey` and those whose list names one of the
caller's subjects. -/
def permission (permKey : String) (caller : Caller) : Predicate :=
  match caller.subjects? with
  | none => .all
  | some subjects =>
    .or [.field permKey (.isPresent false), .field permKey (.isIn (subjects.map .string))]

/-! ### Finds -/

/-- The stored path of a sort key with its direction. -/
def sortKey (schema : ClassSchema) (caller : Caller) (key : SortKey) :
    Outcome (String × Int32) := do
  let target ← resolve schema caller key.field
  if target.isRelation then
    throw (.invalidQuery s!"cannot sort by relation field '{key.field}'")
  return (Stored.keyPath schema key.field, if key.descending then -1 else 1)

/-- The keys that every projection returns. -/
def projectionBase : List String :=
  [Record.idKey, Stored.createdAtKey, Stored.updatedAtKey, Stored.aclKey]

/-- The stored keys to return for a list of fields; protected fields and relations are
passed over. -/
def projection (schema : ClassSchema) (caller : Caller) (keys : List String) :
    Outcome (List String) :=
  keys.foldlM (fun out key => do
    let root := Text.root key
    if caller.isProtected root then return out
    let target ← resolve schema caller root
    if target.isRelation then return out
    let stored := Stored.keyPath schema root
    return if out.contains stored then out else out ++ [stored]) projectionBase

/-- The query of a find, within what the caller may read. -/
def selection (schema : ClassSchema) (policy : Policy) (f : Filter) (options : FindOptions) :
    Outcome Selection := do
  let planned ← filter schema policy f
  let sort ← options.sort.mapM (sortKey schema policy.caller)
  let keys ← match options.keys with
    | some keys => some <$> projection schema policy.caller keys
    | none => pure none
  return {
    filter := planned.filter.both (permission Stored.readPermKey policy.caller)
    sort
    skip := options.skip.getD 0
    limit := options.limit
    projection := keys
    collation := planned.collation
    maxTimeMs := options.maxTimeMs <|> policy.maxTimeMs }

end Plan

end ObjectEngine
