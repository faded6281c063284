import ObjectEngine.Event
import ObjectEngine.Store.Call
import ObjectEngine.Store.Editing

/-!
# The store in memory

A store holds collections of records by id, and `Store.run` answers a call. Transactions
write in place and keep an undo log per session: to abort reverts, from the last write to the
first, what the transaction wrote and nobody changed since, so writes from outside the
session survive. A call that fails changes no record, no index and no undo log.

Every call is recorded, faults can be set up to make the next calls of an operation fail, and
events announce connections and failures. The store does not sleep: an answer tells how long
its caller has to wait for it.
-/

namespace ObjectEngine

/-- A collection: its records by id and its indexes by name. -/
structure Collection where
  records : Members Record := []
  indexes : Members StoreIndex := []
  deriving Inhabited

namespace Store

/-- One write of a transaction: the record before and after it. A write that inserted has
neither, and one that deleted has no record after it. -/
structure UndoEntry where
  collection : String
  id : String
  previous : Option Record
  written : Option Record
  deriving Inhabited

/-- An active session, with the writes of its transaction from the last to the first. -/
structure Session where
  inTransaction : Bool := false
  undo : List UndoEntry := []
  deriving Inhabited

/-- Makes the next calls of an operation fail. -/
structure Fault where
  operation : String
  error : EngineError
  remaining : Nat
  deriving Inhabited

/-- A call that was made. -/
structure CallRecord where
  operation : String
  collection : String
  session : Option SessionId
  deriving DecidableEq, Inhabited

end Store

/-- A document store. Calls and events are kept from the last to the first. -/
structure Store where
  collections : Members Collection := []
  sessions : List (SessionId × Store.Session) := []
  nextSession : Nat := 0
  nextId : Nat := 0
  connected : Bool := false
  faults : List Store.Fault := []
  calls : List Store.CallRecord := []
  events : List Event := []
  deriving Inhabited

namespace Store

/-- Work on a store that may fail; what it did before it failed stays. -/
abbrev Work (α : Type) := ExceptT EngineError (StateM Store) α

/-! ### Parts of a store -/

/-- The collection of a name, if there is one. -/
def collection? (s : Store) (name : String) : Option Collection := s.collections.lookup name

/-- The collection of a name, or an empty one. -/
def collection (s : Store) (name : String) : Collection := (s.collection? name).getD {}

/-- Replaces a collection. -/
def setCollection (s : Store) (name : String) (c : Collection) : Store :=
  { s with collections := Members.insert name c s.collections }

/-- The session of an id, if it is active. -/
def session? (s : Store) (id : SessionId) : Option Session :=
  (s.sessions.find? fun entry => entry.1 = id).map Prod.snd

/-- Replaces a session. -/
def setSession (s : Store) (id : SessionId) (session : Session) : Store :=
  { s with sessions := s.sessions.map fun entry => if entry.1 = id then (id, session) else entry }

/-- The number of records of a collection. -/
def size (s : Store) (name : String) : Nat := (s.collection name).records.length

/-- The record of an id. -/
def record? (s : Store) (name id : String) : Option Record := (s.collection name).records.lookup id

/-- Makes the next `times` calls of an operation fail. -/
def injectFault (s : Store) (operation : String) (error : EngineError) (times : Nat) : Store :=
  { s with faults := s.faults ++ [⟨operation, error, times⟩] }

/-! ### Events and faults -/

/-- Announces an event. -/
def emit (name : String) (nodes : List (Members EventValue)) : Work Unit :=
  modify fun s => { s with events := ⟨name, ⟨nodes⟩⟩ :: s.events }

/-- Announces that an operation failed. -/
def announceFailure (operation : String) (e : EngineError) : Work Unit :=
  emit "commandFailed"
    [[("commandName", .string operation), ("failure", .node 1)],
     [("code", .int e.code), ("message", .string e.message)]]

/-- Uses up one failure of the first fault that is due for an operation. -/
def dueFault? (operation : String) : List Fault → Option (EngineError × List Fault)
  | [] => none
  | f :: rest =>
    if f.operation = operation ∧ 0 < f.remaining then
      some (f.error, { f with remaining := f.remaining - 1 } :: rest)
    else (dueFault? operation rest).map fun (e, fs) => (e, f :: fs)

/-- Records a call and fails with the fault that is due, if there is one. -/
def begin (operation collection : String) (session : Option SessionId) : Work Unit := do
  modify fun s => { s with calls := ⟨operation, collection, session⟩ :: s.calls }
  match dueFault? operation (← get).faults with
  | none => pure ()
  | some (e, faults) =>
    modify fun s => { s with faults }
    announceFailure operation e
    throw e

/-- The outcome of an operation; a failure is announced. -/
def finish {α : Type} (operation : String) : Outcome α → Work α
  | .ok a => pure a
  | .error e => do
    announceFailure operation e
    throw e

/-! ### Sessions -/

/-- A session that is not active. -/
def inactive (id : SessionId) : EngineError :=
  .store 206 s!"session {id.text} is not active"

/-- Refuses a session that is not active. -/
def checkSession (session : Option SessionId) : Work Unit := do
  match session with
  | some id => if ((← get).session? id).isNone then throw (inactive id)
  | none => pure ()

/-- Adds a write to the undo log of a session with an open transaction. -/
def recordUndo (session : Option SessionId) (entry : UndoEntry) : Work Unit := do
  match session with
  | none => pure ()
  | some id =>
    match (← get).session? id with
    | some state =>
      if state.inTransaction then
        modify fun s => s.setSession id { state with undo := entry :: state.undo }
    | none => pure ()

namespace UndoEntry

/-- The keys of two records, each once. -/
def keysOf (a b : Record) : List String := NameSet.ofList (Members.keys a ++ Members.keys b)

/-- Reverts one member of a record, if the write changed it and nobody did so since. -/
def revertMember (previous written : Record) (current : Record) (key : String) : Record :=
  let before := previous.lookup key
  let after := written.lookup key
  if Datum.sameOption before after || !Datum.sameOption (current.lookup key) after then current
  else match before with
    | some d => Members.insert key d current
    | none => Members.erase key current

/-- Reverts a write: an insertion is removed, a deletion is restored unless the id is taken
again, and an update is reverted member by member. -/
def revert (entry : UndoEntry) (c : Collection) : Collection :=
  match entry.previous, entry.written with
  | none, _ => { c with records := Members.erase entry.id c.records }
  | some previous, none =>
    if (c.records.lookup entry.id).isSome then c
    else { c with records := Members.insert entry.id previous c.records }
  | some previous, some written =>
    match c.records.lookup entry.id with
    | none => c
    | some current =>
      let reverted := (keysOf previous written).foldl (revertMember previous written) current
      { c with records := Members.insert entry.id reverted c.records }

end UndoEntry

/-! ### Uniqueness -/

/-- Equality of index keys, item by item. -/
def sameKey (a b : List Datum) : Bool := Datum.sameItems a b

/-- The refusal of a key that is taken. -/
def duplicateKey (collection index : String) : EngineError :=
  .duplicate s!"E11000 duplicate key error collection: {collection} index: {index}"

/-- Whether a record has the key of another record under an index. -/
def clashes (c : Collection) (index : StoreIndex) (candidate : Record) : Bool :=
  match index.key? candidate with
  | none => false
  | some key =>
    (Members.values c.records).any fun other =>
      !Datum.sameOption (other.lookup Record.idKey) (candidate.lookup Record.idKey) &&
        (index.key? other).any fun k => sameKey k key

/-- Refuses a record that has the key of another under a unique index. -/
def checkUnique (name : String) (c : Collection) (candidate : Record) : Outcome Unit :=
  match (Members.values c.indexes).find? fun i => i.unique && clashes c i candidate with
  | some index => .error (duplicateKey name index.name)
  | none => .ok ()

/-- Whether two records of a list have the same key as written under an index. -/
def hasDuplicateKeys (index : StoreIndex) : List Record → Bool
  | [] => false
  | r :: rest =>
    (match index.key? r with
      | some key => rest.any fun other => (index.key? other).any (Datum.identicalItems key)
      | none => false) || hasDuplicateKeys index rest

/-! ### Queries -/

/-- The records that satisfy a predicate, in the order of their ids, and the delay collected
over all of them. -/
def filterRecords (collation : Option Collation) (p : Predicate) :
    List Record → Outcome (List Record) × Nat
  | [] => (.ok [], 0)
  | r :: rest =>
    match p.eval collation r with
    | (.error e, delay) => (.error e, delay)
    | (.ok b, delay) =>
      let (out, more) := filterRecords collation p rest
      (out.map fun rs => if b then r :: rs else rs, delay + more)

/-- The answer of a query before its time limit, and the delay it takes. -/
def query (s : Store) (name : String) (sel : Selection) : Outcome (List Record) × Nat :=
  let records := Members.values (s.collection name).records
  let (found, delay) := filterRecords sel.collation sel.filter records
  let shape (rs : List Record) : List Record :=
    let rs := (Record.sort sel.collation sel.sort rs).drop sel.skip
    let rs := match sel.limit with
      | some n => rs.take n
      | none => rs
    match sel.projection with
    | some keys => rs.map (Record.project keys)
    | none => rs
  (found.map shape, delay)

/-- The outcome of work under a time limit, and how long it takes: a delay above the limit
is cut there, and a failure takes no time. -/
def underLimit {α : Type} (limit : Option Nat) (work : Outcome α × Nat) : Outcome α × Nat :=
  match work.1 with
  | .error e => (.error e, 0)
  | .ok a =>
    match limit with
    | some ms => if work.2 > ms then (.error (.timeLimitExceeded ms), ms) else (.ok a, work.2)
    | none => (.ok a, work.2)

/-- The ids of the records that satisfy a predicate, only the first if `firstOnly`. -/
def matchingIds (firstOnly : Bool) (p : Predicate) : Members Record → Outcome (List String)
  | [] => .ok []
  | (id, r) :: rest => do
    if ← (p.eval none r).1 then
      if firstOnly then return [id] else return id :: (← matchingIds firstOnly p rest)
    else matchingIds firstOnly p rest

/-! ### Writes -/

/-- The records of some ids with their form after an update, all checked against the
collection as it is. -/
def stage (name : String) (c : Collection) (edit : Edit) :
    List String → Outcome (List (String × Record × Record))
  | [] => .ok []
  | id :: rest =>
    match c.records.lookup id with
    | none => stage name c edit rest
    | some current => do
      let next ← edit.apply false current
      checkUnique name c next
      return (id, current, next) :: (← stage name c edit rest)

/-- Updates the records of some ids, all or none, and answers them. -/
def updateIds (operation name : String) (edit : Edit) (session : Option SessionId)
    (ids : List String) : Work (List Record) := do
  let c := (← get).collection name
  modify fun s => s.setCollection name c
  let staged ← finish operation (stage name c edit ids)
  let records := staged.foldl (fun records w => Members.insert w.1 w.2.2 records) c.records
  modify fun s => s.setCollection name { c with records }
  for (id, previous, next) in staged do
    recordUndo session ⟨name, id, some previous, some next⟩
  return ids.filterMap fun id => records.lookup id

/-- Puts a new record into a collection. -/
def insertRecord (operation name : String) (session : Option SessionId) (id : String)
    (record : Record) : Work Unit := do
  let c := (← get).collection name
  modify fun s => s.setCollection name c
  finish operation <|
    if (c.records.lookup id).isSome then .error (duplicateKey name "_id_")
    else checkUnique name c record
  modify fun s => s.setCollection name { c with records := Members.insert id record c.records }
  recordUndo session ⟨name, id, none, none⟩

/-- An id for a record that was given none. -/
def freshId : Work String := do
  let n := (← get).nextId
  modify fun s => { s with nextId := n + 1 }
  let digits := Nat.toDigits 10 n
  return String.ofList ('f' :: List.replicate (31 - digits.length) '0' ++ digits)

/-- Inserts the record that a predicate and an update describe. -/
def insertSeed (name : String) (filter : Predicate) (edit : Edit) (session : Option SessionId) :
    Work Upserted := do
  let record ← finish "upsert" (edit.apply true filter.seed)
  let (id, record) ← match record.id? with
    | some id => pure (id, record)
    | none => do
      let id ← freshId
      pure (id, Members.insert Record.idKey (.string id) record)
  insertRecord "upsert" name session id record
  return { matched := 0, id := some id, record }

/-- Removes the records of some ids. -/
def deleteIds (name : String) (session : Option SessionId) (ids : List String) : Work Nat := do
  match (← get).collection? name with
  | none => return 0
  | some c =>
    let removed := ids.filterMap fun id => (c.records.lookup id).map fun r => (id, r)
    let records := ids.foldl (fun records id => Members.erase id records) c.records
    modify fun s => s.setCollection name { c with records }
    for (id, r) in removed do
      recordUndo session ⟨name, id, some r, none⟩
    return removed.length

/-- Reverts the transaction of a session, if one is active, from its last write to its
first. -/
def rollBack (id : SessionId) : Work Unit := do
  match (← get).session? id with
  | none => pure ()
  | some state =>
    modify fun s => s.setSession id {}
    for entry in state.undo do
      modify fun s =>
        s.setCollection entry.collection (entry.revert (s.collection entry.collection))

/-! ### Answers -/

/-- The store's work for a call, once it is recorded and no fault is due. A query is handled
with its time limit by `answer`. -/
def perform : (call : Call) → Work call.Answer
  | .connect uri => do
    modify fun s => { s with connected := true }
    emit "connectionPoolCreated"
      [[("address", .string uri), ("options", .node 1)], [("maxPoolSize", .int 100)]]
  | .close => do
    if (← get).connected then
      modify fun s => { s with connected := false }
      emit "connectionPoolClosed" [[]]
  | .find name sel _ => do
    finish "find" (underLimit sel.maxTimeMs ((← get).query name sel)).1
  | .count name filter limit _ => do
    let (found, delay) := (← get).query name { filter }
    finish "count" (underLimit limit (found.map List.length, delay)).1
  | .insert name record session => do
    checkSession session
    let id ← finish "insert"
      (Outcome.ofOption (.invalidQuery "document has no string _id") record.id?)
    insertRecord "insert" name session id record
  | .update name filter edit session => do
    checkSession session
    let ids ← finish "update" (matchingIds false filter ((← get).collection name).records)
    return (← updateIds "update" name edit session ids).length
  | .findAndUpdate name filter edit session => do
    checkSession session
    let ids ← finish "findAndModify" (matchingIds true filter ((← get).collection name).records)
    return (← updateIds "findAndModify" name edit session ids).head?
  | .upsert name filter edit session => do
    checkSession session
    let ids ← finish "upsert" (matchingIds true filter ((← get).collection name).records)
    if ids.isEmpty then insertSeed name filter edit session
    else
      let records ← updateIds "upsert" name edit session ids
      return { matched := 1, id := none, record := records.head?.getD [] }
  | .delete name filter session => do
    checkSession session
    let ids ← finish "delete" (matchingIds false filter ((← get).collection name).records)
    deleteIds name session ids
  | .drop name => do
    let existed := ((← get).collection? name).isSome
    modify fun s => { s with collections := Members.erase name s.collections }
    return existed
  | .createIndex name index => do
    let c := (← get).collection name
    modify fun s => s.setCollection name c
    match c.indexes.lookup index.name with
    | some existing =>
      finish "createIndex" <|
        if existing.sameDefinition index then .ok ()
        else .error
          (.duplicate s!"index {index.name} already exists with a different definition")
    | none =>
      finish "createIndex" <|
        if index.unique && hasDuplicateKeys index (Members.values c.records) then
          .error (duplicateKey name index.name)
        else .ok ()
      modify fun s =>
        s.setCollection name { c with indexes := Members.insert index.name index c.indexes }
  | .dropIndex name index => do
    match (← get).collection? name with
    | some c =>
      if (c.indexes.lookup index).isSome then
        modify fun s => s.setCollection name { c with indexes := Members.erase index c.indexes }
      else finish "dropIndexes" (.error (.store 27 s!"index not found with name [{index}]"))
    | none => finish "dropIndexes" (.error (.store 27 s!"index not found with name [{index}]"))
  | .listIndexes name => do return Members.values ((← get).collection name).indexes
  | .startSession => do
    let id : SessionId := ⟨(← get).nextSession⟩
    modify fun s =>
      { s with sessions := s.sessions ++ [(id, {})], nextSession := s.nextSession + 1 }
    return id
  | .startTransaction id => do
    match (← get).session? id with
    | none => throw (inactive id)
    | some state =>
      if state.inTransaction then throw (.store 256 "transaction already in progress")
      modify fun s => s.setSession id { inTransaction := true, undo := [] }
  | .commit id => modify fun s => if (s.session? id).isSome then s.setSession id {} else s
  | .abort id => rollBack id
  | .endSession id => do
    if ((← get).session? id).any (·.inTransaction) then
      begin "abortTransaction" "" (some id)
      rollBack id
    modify fun s => { s with sessions := s.sessions.filter fun entry => entry.1 ≠ id }

/-- How long the caller of a query waits for its answer. -/
def waitMs (s : Store) : Call → Nat
  | .find name sel _ => (underLimit sel.maxTimeMs (s.query name sel)).2
  | .count name filter limit _ => (underLimit limit (s.query name { filter })).2
  | _ => 0

/-- Answers a call: records it, fails if a fault is due, and otherwise performs it. -/
def answer (call : Call) : Work call.Answer := do
  begin call.operation call.collection call.session?
  perform call

/-- The reply to a call. -/
structure Reply (call : Call) where
  outcome : Outcome call.Answer
  /-- How long the caller waits for the outcome. -/
  waitMs : Nat
  store : Store

/-- Runs a call on a store. -/
def run (s : Store) (call : Call) : Reply call :=
  let (outcome, store) := (answer call).run s
  let due := (dueFault? call.operation s.faults).isSome
  { outcome, waitMs := if due then 0 else s.waitMs call, store }

end Store

end ObjectEngine
