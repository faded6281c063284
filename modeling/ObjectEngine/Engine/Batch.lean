import ObjectEngine.Engine.Join

/-!
# Batches of writes

A planned write is a few calls to the store. A transaction runs a list of writes in order on
one session, all or nothing: it commits when every write succeeded and aborts otherwise, ends
its session in any case, and is tried again as a whole after a transient error. Without a
transaction each write runs for itself, all of them at once.
-/

namespace ObjectEngine

open Plan (UpdatePlan)

/-- A planned write. -/
inductive Write
  | insert (collection : String) (record : Record)
  /-- Updates the first match, or every match. -/
  | update (collection : String) (filter : Predicate) (plan : UpdatePlan) (many : Bool)
  | upsert (collection : String) (filter : Predicate) (edit : Edit)
  /-- Deletes every match with the edges it owns. -/
  | delete (collection : String) (filter : Predicate) (relationFields : List String)
  deriving Inhabited

/-- What a write did. -/
inductive WriteResult
  | created (objectId : String)
  /-- How many were matched, and the record afterwards if a single one was updated. -/
  | updated (matched : Nat) (record : Option Record)
  | upserted (matched : Nat) (objectId : Option String) (record : Record)
  | deleted (count : Nat)
  deriving Inhabited

namespace Write

/-- The collection a write is on. -/
def collection : Write → String
  | .insert c _ | .update c .. | .upsert c .. | .delete c .. => c

/-- The ids of the records that satisfy a predicate. -/
def matchingIds (name : String) (filter : Predicate) (limit : Option Nat)
    (session : Option SessionId) : StoreAction (List String) := do
  let records ← Program.call (.find name { filter, limit, projection := some [] } session)
  return (records : List Record).filterMap Record.id?

/-- The update itself: how many records were matched, and the record of a single one. -/
def updateRecords (name : String) (filter : Predicate) (edit : Edit) (many : Bool)
    (session : Option SessionId) : StoreAction (Nat × Option Record) := do
  if edit.isEmpty then
    let matched : Nat ← Program.call (.count name filter none session)
    return (if many then matched else min matched 1, none)
  else if many then
    let matched : Nat ← Program.call (.update name filter edit session)
    return (matched, none)
  else
    let record : Option Record ← Program.call (.findAndUpdate name filter edit session)
    return (if record.isSome then 1 else 0, record)

/-- Runs a write on a session, or on none. The owners whose relations change are looked up
before the write. -/
def run (session : Option SessionId) : Write → StoreAction WriteResult
  | .insert name record => do
    Program.call (.insert name record session)
    return .created (record.id?.getD "")
  | .update name filter plan many => do
    let owners ← if plan.relations.isEmpty then pure []
      else matchingIds name filter (if many then none else some 1) session
    let (matched, record) ← updateRecords name filter plan.edit many session
    for owner in owners do
      for e in plan.relations do
        Join.apply name owner e session
    return .updated matched record
  | .upsert name filter edit => do
    let out : Store.Upserted ← Program.call (.upsert name filter edit session)
    return .upserted out.matched out.id out.record
  | .delete name filter relationFields => do
    let owners ← if relationFields.isEmpty then pure []
      else matchingIds name filter none session
    let count : Nat ← Program.call (.delete name filter session)
    for field in relationFields do
      let _ ← Join.removeOwners name field owners session
    return .deleted count

end Write

namespace Batch

/-- The outcome of work as a value. -/
def outcomeOf {α : Type} (work : StoreAction α) : StoreAction (Outcome α) := ExceptT.lift work.run

/-- Aborts the transaction of a session because of an error; a failure to do so is passed
over. -/
def abort {α : Type} (session : SessionId) (cause : EngineError) : StoreAction α := do
  let _ ← outcomeOf (Program.call (.abort session))
  throw cause

/-- Runs the writes in order up to the first that fails, and then commits or aborts. -/
def runOn (session : SessionId) (writes : List Write) : StoreAction (List WriteResult) := do
  Program.call (.startTransaction session)
  match ← outcomeOf (writes.mapM (Write.run (some session))) with
  | .error e => abort session e
  | .ok results =>
    match ← outcomeOf (Program.call (.commit session)) with
    | .error e => abort session e
    | .ok () => return results

/-- One attempt at a transaction, on a session of its own that ends with it. -/
def attempt (writes : List Write) : StoreAction (List WriteResult) := do
  let session : SessionId ← Program.call .startSession
  let outcome ← outcomeOf (runOn session writes)
  let _ ← outcomeOf (Program.call (.endSession session))
  outcome

/-- Tries a transaction, and again after a transient error as often as `retries` says. The
pause before an attempt grows with their number. -/
def transaction (writes : List Write) : (retries : Nat) → (number : Nat) →
    StoreAction (List WriteResult)
  | 0, _ => attempt writes
  | retries + 1, number => do
    match ← outcomeOf (attempt writes) with
    | .ok results => return results
    | .error e =>
      if e.isTransient then
        let () ← ExceptT.lift (Program.request (.pause number))
        transaction writes retries (number + 1)
      else throw e

/-- Runs the writes of a batch at once, each for itself. A write waits at most twice. -/
def independent (writes : List Write) (w : World) : List (Outcome WriteResult) × World :=
  w.runTogether (2 * writes.length) (writes.map fun write => (write.run none).run)

/-- Runs a batch: the outcome of each write, or the error that undid them all. -/
def execute (retries : Nat) (writes : List Write) (transactional : Bool) (w : World) :
    Outcome (List (Outcome WriteResult)) × World :=
  if transactional then
    let (outcome, w) := (transaction writes retries 1).run.run w
    (outcome.map fun results => results.map .ok, w)
  else
    let (outcomes, w) := independent writes w
    (.ok outcomes, w)

end Batch

end ObjectEngine
