import ObjectEngine.Store.Predicate

/-!
# Calls to the store

The interface of a document store as data: a call names an operation with its arguments, and
`Store.Call.Answer` is the type of what it answers. Writes that carry a session belong to the
transaction that is open on it.
-/

namespace ObjectEngine

/-- A session with the store. -/
structure SessionId where
  number : Nat
  deriving DecidableEq, Inhabited

namespace SessionId

/-- The name of a session in error texts: 32 digits in the groups of a universally unique
identifier. -/
def text (id : SessionId) : String :=
  let digits := Nat.toDigits 10 id.number
  let tail := List.replicate (12 - digits.length) '0' ++ digits
  String.ofList ("00000000-0000-4000-8000-".toList ++ tail)

end SessionId

namespace Store

/-- What an update-or-insert did. -/
structure Upserted where
  /-- How many records were matched, at most one. -/
  matched : Nat
  /-- The id of the record that was inserted. -/
  id : Option String
  /-- The record afterwards. -/
  record : Record
  deriving Inhabited

/-- A call to the store. -/
inductive Call
  | connect (uri : String)
  | close
  | find (collection : String) (selection : Selection) (session : Option SessionId)
  | count (collection : String) (filter : Predicate) (maxTimeMs : Option Nat)
      (session : Option SessionId)
  | insert (collection : String) (record : Record) (session : Option SessionId)
  /-- Updates every match. -/
  | update (collection : String) (filter : Predicate) (edit : Edit) (session : Option SessionId)
  /-- Updates the first match. -/
  | findAndUpdate (collection : String) (filter : Predicate) (edit : Edit)
      (session : Option SessionId)
  /-- Updates the first match or inserts a record. -/
  | upsert (collection : String) (filter : Predicate) (edit : Edit) (session : Option SessionId)
  | delete (collection : String) (filter : Predicate) (session : Option SessionId)
  | drop (collection : String)
  | createIndex (collection : String) (index : StoreIndex)
  | dropIndex (collection : String) (name : String)
  | listIndexes (collection : String)
  | startSession
  | startTransaction (session : SessionId)
  | commit (session : SessionId)
  | abort (session : SessionId)
  /-- Ends a session and aborts the transaction open on it. -/
  | endSession (session : SessionId)
  deriving Inhabited

namespace Call

/-- The name of the operation of a call. -/
def operation : Call → String
  | .connect _ => "connect"
  | .close => "close"
  | .find .. => "find"
  | .count .. => "count"
  | .insert .. => "insert"
  | .update .. => "update"
  | .findAndUpdate .. => "findAndModify"
  | .upsert .. => "upsert"
  | .delete .. => "delete"
  | .drop _ => "drop"
  | .createIndex .. => "createIndex"
  | .dropIndex .. => "dropIndexes"
  | .listIndexes _ => "listIndexes"
  | .startSession => "startSession"
  | .startTransaction _ => "startTransaction"
  | .commit _ => "commitTransaction"
  | .abort _ => "abortTransaction"
  | .endSession _ => "endSession"

/-- The collection of a call, empty if it has none. -/
def collection : Call → String
  | .find c .. | .count c .. | .insert c .. | .update c .. | .findAndUpdate c ..
  | .upsert c .. | .delete c .. | .drop c | .createIndex c _ | .dropIndex c _
  | .listIndexes c => c
  | _ => ""

/-- The session of a call. -/
def session? : Call → Option SessionId
  | .find _ _ s | .count _ _ _ s | .insert _ _ s | .update _ _ _ s | .findAndUpdate _ _ _ s
  | .upsert _ _ _ s | .delete _ _ s => s
  | .startTransaction s | .commit s | .abort s | .endSession s => some s
  | _ => none

/-- What a call answers. -/
def Answer : Call → Type
  | .find .. => List Record
  | .count .. => Nat
  | .update .. => Nat
  | .findAndUpdate .. => Option Record
  | .upsert .. => Upserted
  | .delete .. => Nat
  | .drop _ => Bool
  | .listIndexes _ => List StoreIndex
  | .startSession => SessionId
  | _ => Unit

end Call

end Store

end ObjectEngine
