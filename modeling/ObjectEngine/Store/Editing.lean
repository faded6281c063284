import ObjectEngine.Store.Matching
import ObjectEngine.Words

/-!
# Applying updates

`Edit.apply` carries out an update on a record. The operators are applied in the order of the
fields of `Edit`; setting a path creates the records on the way to it, and a path that runs
into another kind of value is refused. `Edit.applyFrom` also tells how far a failing update
got.
-/

namespace ObjectEngine

namespace Record

/-- A path that runs into a value that is not a record. -/
def pathConflict (path : String) : EngineError :=
  .store 28 s!"cannot create field in element along path '{path}'"

/-- Changes the value at a path, given as its segments, creating the records on the way. The
change sees what was there. -/
def alterAlong (path : String) (change : Option Datum → Outcome Datum) :
    List String → Record → Outcome Unit × Record
  | [], record => (.ok (), record)
  | [leaf], record =>
    match change (record.lookup leaf) with
    | .ok d => (.ok (), Members.insert leaf d record)
    | .error e => (.error e, record)
  | s :: rest, record =>
    match record.lookup s with
    | none =>
      let (r, inner) := alterAlong path change rest []
      (r, Members.insert s (.record inner) record)
    | some (.record inner) =>
      let (r, inner) := alterAlong path change rest inner
      (r, Members.insert s (.record inner) record)
    | some _ => (.error (pathConflict path), record)

/-- Sets the value at a path. -/
def setPath (path : String) (d : Datum) (record : Record) : Outcome Unit × Record :=
  alterAlong path (fun _ => .ok d) (Text.split '.' path) record

/-- Removes the value at a path, given as its segments. -/
def unsetAlong : List String → Record → Record
  | [], record => record
  | [leaf], record => Members.erase leaf record
  | s :: rest, record =>
    match record.lookup s with
    | some (.record inner) => Members.insert s (.record (unsetAlong rest inner)) record
    | _ => record

/-- Removes the value at a path. -/
def unsetPath (path : String) (record : Record) : Record :=
  unsetAlong (Text.split '.' path) record

end Record

namespace Edit

/-- The sum of two numbers: of integers exactly, otherwise of doubles. -/
def addNumbers (path : String) (current amount : Datum) : Outcome Datum :=
  match current, amount with
  | .int a, .int b =>
    match Words.int64? (a.toInt + b.toInt) with
    | some sum => .ok (.int sum)
    | none => .error (.store 2 s!"integer overflow applying $inc to '{path}'")
  | a, b =>
    match a.asDouble?, b.asDouble? with
    | some x, some y => .ok (.double (x.add y))
    | _, _ => .error (.store 14 s!"cannot apply $inc to non-numeric field '{path}'")

/-- An operator on arrays that met another kind of value. -/
def arrayMismatch (op path : String) (d : Datum) : EngineError :=
  .store 2 s!"cannot apply {op} to '{path}' of type {d.typeName}"

/-- Adds to the number at a path, or sets it. -/
def incPath (record : Record) (path : String) (amount : Datum) : Outcome Unit × Record :=
  match record.get? path with
  | some current =>
    match addNumbers path current amount with
    | .ok d => record.setPath path d
    | .error e => (.error e, record)
  | none => record.setPath path amount

/-- Changes the array at a path, which is created empty if there is none. -/
def arrayPath (op : String) (change : List Datum → List Datum) (record : Record) (path : String) :
    Outcome Unit × Record :=
  record.alterAlong path (fun d => match d with
    | none => .ok (.array (change []))
    | some (.array items) => .ok (.array (change items))
    | some d => .error (arrayMismatch op path d)) (Text.split '.' path)

/-- The items with a value at the end, unless one equals it. -/
def addIfNew (items : List Datum) (d : Datum) : List Datum :=
  if items.any fun x => Datum.equalUnder none x d then items else items ++ [d]

/-- The items that equal none of some values. -/
def removeAll (ds items : List Datum) : List Datum :=
  items.filter fun x => !ds.any fun d => Datum.equalUnder none x d

/-- Removes values from the array at a path, if there is one. -/
def pullPath (record : Record) (path : String) (ds : List Datum) : Outcome Unit × Record :=
  match record.get? path with
  | none => (.ok (), record)
  | some (.array items) => record.setPath path (.array (removeAll ds items))
  | some d => (.error (arrayMismatch "$pullAll" path d), record)

/-- Applies steps one after another up to the first that fails. -/
def applySteps {α : Type} (step : Record → α → Outcome Unit × Record) :
    Record → List α → Outcome Unit × Record
  | record, [] => (.ok (), record)
  | record, a :: rest =>
    match step record a with
    | (.ok (), record) => applySteps step record rest
    | failed => failed

/-- Goes on after a stage of an update that did not fail. -/
def andThen (r : Outcome Unit × Record) (next : Record → Outcome Unit × Record) :
    Outcome Unit × Record :=
  match r with
  | (.ok (), record) => next record
  | failed => failed

/-- Sets a list of paths. -/
def setAll (members : Members Datum) (record : Record) : Outcome Unit × Record :=
  applySteps (fun r m => r.setPath m.1 m.2) record members

/-- Carries out an update; of a failing one, the record as far as it got. -/
def applyFrom (e : Edit) (inserting : Bool) (record : Record) : Outcome Unit × Record :=
  andThen (setAll e.set record) fun r =>
  andThen (.ok (), e.unset.foldl (fun r p => r.unsetPath p) r) fun r =>
  andThen (applySteps (fun r m => incPath r m.1 m.2) r e.inc) fun r =>
  andThen (applySteps (fun r m => arrayPath "$push" (· ++ m.2) r m.1) r e.push) fun r =>
  andThen (applySteps (fun r m => arrayPath "$addToSet" (m.2.foldl addIfNew ·) r m.1) r
    e.addToSet) fun r =>
  andThen (applySteps (fun r m => pullPath r m.1 m.2) r e.pull) fun r =>
  if inserting then setAll e.setOnInsert r else (.ok (), r)

/-- Carries out an update. -/
def apply (e : Edit) (inserting : Bool) (record : Record) : Outcome Record :=
  match e.applyFrom inserting record with
  | (.ok (), r) => .ok r
  | (.error err, _) => .error err

end Edit

/-! ### Inserting by a predicate -/

namespace Predicate

mutual

/-- The equalities a predicate requires of whole members, from the last to the first. -/
def equalities : Predicate → List (String × Datum)
  | .and parts => equalitiesOf parts
  | .field path (.eq d) => if path.toList.contains '.' then [] else [(path, d)]
  | _ => []

/-- The equalities that all of some predicates require, from the last to the first. -/
def equalitiesOf : List Predicate → List (String × Datum)
  | [] => []
  | p :: rest => equalitiesOf rest ++ p.equalities

end

/-- The record that an insertion by a predicate starts from: of two equalities on one member
the first counts. -/
def seed (p : Predicate) : Record := Members.ofList p.equalities

end Predicate

/-! ### Index keys -/

namespace StoreIndex

/-- The value of a record under one path of an index. -/
def keyValue (index : StoreIndex) (values : List Datum) : Datum :=
  match values.head? with
  | some (.string s) => .string (Collation.fold index.collation s)
  | some d => d
  | none => .null

/-- The key of a record under an index; nothing if the index is sparse and the record has no
value at any of its paths. -/
def key? (index : StoreIndex) (record : Record) : Option (List Datum) :=
  let values := index.keys.map fun k => record.values k.1
  if index.sparse && values.all List.isEmpty then none
  else some (values.map index.keyValue)

end StoreIndex

end ObjectEngine
