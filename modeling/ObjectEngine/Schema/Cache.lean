import ObjectEngine.Schema

/-!
# Cached schemas

A cache keeps, for each class, at most one load of its schema: in flight, loaded at some time,
or failed. Readers of a class share the load that the cache keeps and see its outcome; a load
that failed or expired is dropped by those who find it so, and an invalidation drops the load
whatever its state, so that later readers start another. Readers that wait on a dropped load
still get its outcome.

The operations here are the atomic steps of readers and loads; how steps of several readers
interleave is up to those who use the cache.
-/

namespace ObjectEngine

/-- A change of schemas. -/
inductive SchemaChange
  | ofClass (className : String)
  | all
  deriving DecidableEq, Inhabited

namespace SchemaCache

/-- How far a load has got. -/
inductive Load
  | inFlight
  | loaded (schema : ClassSchema) (atMs : Nat)
  | failed (e : EngineError)
  deriving DecidableEq, Inhabited

/-- What a reader makes of a load that is over. -/
inductive Verdict
  | answer (outcome : Outcome ClassSchema)
  /-- The schema has expired: the reader has to start over. -/
  | expired

end SchemaCache

/-- A cache of schemas. Loads are kept by their numbers, also those that have been dropped. -/
structure SchemaCache where
  /-- How long a schema is valid; `0` turns caching off. -/
  ttlMs : Nat
  /-- The load that each class has. -/
  slots : Members Nat := []
  /-- All loads, the latest first. -/
  loads : List (Nat × SchemaCache.Load) := []
  nextLoad : Nat := 0
  deriving Inhabited

namespace SchemaCache

/-- The state of a load. -/
def load? (cache : SchemaCache) (id : Nat) : Option Load := cache.loads.lookup id

/-- The load that a reader of a class waits for, and whether the reader has to issue it. -/
def enter (cache : SchemaCache) (className : String) : Nat × Bool × SchemaCache :=
  match cache.slots.lookup className with
  | some id => (id, false, cache)
  | none =>
    let id := cache.nextLoad
    (id, true, { cache with
      slots := Members.insert className id cache.slots
      loads := (id, .inFlight) :: cache.loads
      nextLoad := id + 1 })

/-- Ends a load. -/
def complete (cache : SchemaCache) (id : Nat) (outcome : Outcome ClassSchema) (nowMs : Nat) :
    SchemaCache :=
  let load := match outcome with
    | .ok schema => .loaded schema nowMs
    | .error e => .failed e
  { cache with loads := cache.loads.map fun l => if l.1 = id then (id, load) else l }

/-- Drops a load, if it is still the one of its class. -/
def evict (cache : SchemaCache) (className : String) (id : Nat) : SchemaCache :=
  if cache.slots.lookup className = some id then
    { cache with slots := Members.erase className cache.slots }
  else cache

/-- Whether a schema loaded at some time is still valid. -/
def isValid (cache : SchemaCache) (loadedMs nowMs : Nat) : Bool := nowMs - loadedMs < cache.ttlMs

/-- What a reader makes of the load it waited for; nothing while it is in flight. -/
def conclude (cache : SchemaCache) (className : String) (id nowMs : Nat) :
    Option (Verdict × SchemaCache) :=
  match cache.load? id with
  | some (.loaded schema atMs) =>
    if cache.isValid atMs nowMs then some (.answer (.ok schema), cache)
    else some (.expired, cache.evict className id)
  | some (.failed e) => some (.answer (.error e), cache.evict className id)
  | _ => none

/-- The valid schema that the cache holds of a class. -/
def peek? (cache : SchemaCache) (className : String) (nowMs : Nat) : Option ClassSchema := do
  match ← cache.load? (← cache.slots.lookup className) with
  | .loaded schema atMs => if cache.isValid atMs nowMs then some schema else none
  | _ => none

/-- Drops the load of a class. -/
def invalidate (cache : SchemaCache) (className : String) : SchemaCache :=
  { cache with slots := Members.erase className cache.slots }

/-- Drops the loads of all classes. -/
def invalidateAll (cache : SchemaCache) : SchemaCache := { cache with slots := [] }

/-- Drops the loads that a change concerns. -/
def apply (cache : SchemaCache) : SchemaChange → SchemaCache
  | .ofClass className => cache.invalidate className
  | .all => cache.invalidateAll

end SchemaCache

end ObjectEngine
