import ObjectEngine.Engine.Catalog
import ObjectEngine.Schema.Cache

/-!
# Work with cached schemas

The engine's operations are programs over the store that thread a schema cache. A failure
keeps what the operation did to the cache before it. `Action.schema` reads a schema through
the cache, and `Action.publish` drops what a change makes stale.
-/

namespace ObjectEngine

/-- A request for the time in milliseconds. The cache counts from the start of 1970. -/
def Instant.toMs (t : Instant) : Nat := (t.seconds * 1000 + (t.nanos / 1000000 : Nat)).toNat

/-- Work on the store and a schema cache that may fail. -/
abbrev Action (α : Type) := ExceptT EngineError (StateT SchemaCache Program) α

namespace Action

/-- Work on the store alone. -/
def ofStore {α : Type} (work : StoreAction α) : Action α :=
  ExceptT.mk fun cache => do return (← work.run, cache)

instance :
    MonadLift (ExceptT EngineError Program) (ExceptT EngineError (StateT SchemaCache Program)) :=
  ⟨ofStore⟩

/-- The time. -/
def now : StoreAction Instant := Program.request .now

/-- An object id that was never used. -/
def newId : StoreAction String := Program.request .newId

/-- Loads the schema of a class that must exist. -/
def load (className : String) : StoreAction ClassSchema := Catalog.require className

/-- Reads the schema of a class through the cache. The reader of a schema that has expired
starts over once; the load it then issues is new. -/
def schemaWithin (className : String) : Nat → Action ClassSchema
  | 0 => load className
  | tries + 1 => do
    let (id, started, cache) := (← get).enter className
    set cache
    if started then
      let outcome ← ofStore (ExceptT.mk (do return .ok (← (load className).run)))
      let t ← now
      modify fun cache => cache.complete id outcome t.toMs
    let t ← now
    match (← get).conclude className id t.toMs with
    | some (.answer outcome, cache) =>
      set cache
      outcome
    | some (.expired, cache) =>
      set cache
      schemaWithin className tries
    | none => load className

/-- Reads the schema of a class through the cache. -/
def schema (className : String) : Action ClassSchema := do
  if (← get).ttlMs = 0 then load className else schemaWithin className 2

/-- The valid schema that the cache holds of a class. -/
def peek? (className : String) : Action (Option ClassSchema) := do
  let t ← now
  return (← get).peek? className t.toMs

/-- Drops what a change makes stale. -/
def publish (change : SchemaChange) : Action Unit := modify fun cache => cache.apply change

/-- Runs work with a cache in a world. -/
def runIn {α : Type} (work : Action α) (cache : SchemaCache) (w : World) :
    (Outcome α × SchemaCache) × World :=
  (work.run.run cache).run w

end Action

end ObjectEngine
