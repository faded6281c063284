import ObjectEngine.Schema.Cache

/-!
# Caches over one source

Several caches read their schemas from one source, whose loads take time: what a load answers
is decided when it starts, and it is known when it ends. A cache may listen to the changes that
another publishes. Notices wait in a queue until the listener takes its turn; a queue that
runs over loses its oldest notices, and the listener then drops everything it holds.

`CacheGroup.readAll` runs readers that start at the same time. Readers that find nothing to
answer with wait together for the end of the loads, and while they wait the listeners take
their turns.
-/

namespace ObjectEngine

/-- The source of schemas. -/
structure SchemaSource where
  schemas : Members ClassSchema := []
  /-- The classes whose loads fail. -/
  failures : Members EngineError := []
  /-- How long a load takes. -/
  delayMs : Nat := 0
  /-- The classes loaded, the latest first. -/
  loads : List String := []
  deriving Inhabited

namespace SchemaSource

/-- What a load answers that starts now. -/
def load (source : SchemaSource) (className : String) : Outcome ClassSchema × SchemaSource :=
  let outcome := match source.failures.lookup className with
    | some e => .error e
    | none => Outcome.ofOption (.classNotFound className) (source.schemas.lookup className)
  (outcome, { source with loads := className :: source.loads })

end SchemaSource

/-- A cache that listens to another, with the notices it has not seen yet, the latest
first. -/
structure Listener where
  cache : String
  publisher : String
  pending : List SchemaChange := []
  deriving Inhabited

/-- Named caches over one source. -/
structure CacheGroup where
  source : SchemaSource := {}
  caches : Members SchemaCache
  listeners : List Listener := []
  clockMs : Nat := 0
  deriving Inhabited

namespace CacheGroup

/-- How many notices a queue holds. -/
def queueCapacity : Nat := 64

/-- The cache of a name. -/
def cache (g : CacheGroup) (name : String) : SchemaCache :=
  (g.caches.lookup name).getD { ttlMs := 0 }

/-- Replaces a cache. -/
def setCache (g : CacheGroup) (name : String) (cache : SchemaCache) : CacheGroup :=
  { g with caches := Members.insert name cache g.caches }

/-- Applies a change to a cache and queues it for those that listen to it. -/
def publish (g : CacheGroup) (name : String) (change : SchemaChange) : CacheGroup :=
  let g := g.setCache name ((g.cache name).apply change)
  { g with listeners := g.listeners.map fun l =>
      if l.publisher = name then { l with pending := change :: l.pending } else l }

/-- Lets a cache listen to another. -/
def listen (g : CacheGroup) (name publisher : String) : CacheGroup :=
  { g with listeners := g.listeners ++ [{ cache := name, publisher }] }

/-- What a cache makes of its notices, given from the latest to the first. -/
def catchUp (pending : List SchemaChange) (cache : SchemaCache) : SchemaCache :=
  let cache := if queueCapacity < pending.length then cache.invalidateAll else cache
  (pending.take queueCapacity).reverse.foldl SchemaCache.apply cache

/-- Lets every listener take its turn. -/
def settle (g : CacheGroup) : CacheGroup :=
  let g := g.listeners.foldl (fun g l => g.setCache l.cache (catchUp l.pending (g.cache l.cache))) g
  { g with listeners := g.listeners.map fun l => { l with pending := [] } }

/-- Lets time pass, in which the listeners take their turns. -/
def wait (g : CacheGroup) (ms : Nat) : CacheGroup := { g.settle with clockMs := g.clockMs + ms }

/-- A reader after its first step. -/
inductive Reader
  | answered (outcome : Outcome ClassSchema)
  /-- Waits for a load of its own that no cache keeps. -/
  | alone (outcome : Outcome ClassSchema)
  /-- Waits for a load that the cache keeps. -/
  | waiting (className : String) (load : Nat)

/-- Loads that have been issued, with what they will answer. -/
abbrev Issued := List (Nat × Outcome ClassSchema)

/-- The first step of a reader of a class: to find an answer, or a load to wait for. -/
def startReader (name className : String) : Nat → CacheGroup × Issued →
    Reader × (CacheGroup × Issued)
  | 0, (g, issued) =>
    let (outcome, source) := g.source.load className
    (.alone outcome, ({ g with source }, issued))
  | tries + 1, (g, issued) =>
    let (id, started, cache) := (g.cache name).enter className
    if started then
      let (outcome, source) := g.source.load className
      let g := { g.setCache name cache with source }
      if source.delayMs = 0 then
        let g := g.setCache name ((g.cache name).complete id outcome g.clockMs)
        match (g.cache name).conclude className id g.clockMs with
        | some (.answer outcome, cache) => (.answered outcome, (g.setCache name cache, issued))
        | _ => (.answered outcome, (g, issued))
      else (.waiting className id, (g, issued ++ [(id, outcome)]))
    else
      match cache.conclude className id g.clockMs with
      | none => (.waiting className id, (g, issued))
      | some (.answer outcome, cache) => (.answered outcome, (g.setCache name cache, issued))
      | some (.expired, cache) => startReader name className tries (g.setCache name cache, issued)

/-- The first step of a reader of a cache that is turned off. -/
def startUncached (className : String) (state : CacheGroup × Issued) :
    Reader × (CacheGroup × Issued) :=
  let (outcome, source) := state.1.source.load className
  let g := { state.1 with source }
  (if source.delayMs = 0 then .answered outcome else .alone outcome, (g, state.2))

/-- The first steps of readers, in order. -/
def startReaders (name : String) (state : CacheGroup × Issued) :
    List String → List Reader × (CacheGroup × Issued)
  | [] => ([], state)
  | c :: rest =>
    let (r, state) := if (state.1.cache name).ttlMs = 0 then startUncached c state
      else startReader name c 2 state
    let (rs, state) := startReaders name state rest
    (r :: rs, state)

/-- The last steps of readers, in order, once the loads are over. -/
def finishReaders (name : String) (issued : Issued) (g : CacheGroup) :
    List Reader → List (Outcome ClassSchema) × CacheGroup
  | [] => ([], g)
  | r :: rest =>
    let (outcome, g) := match r with
      | .answered outcome => (outcome, g)
      | .alone outcome => (outcome, g)
      | .waiting className id =>
        match (g.cache name).conclude className id g.clockMs with
        | some (.answer outcome, cache) => (outcome, g.setCache name cache)
        | _ => ((issued.lookup id).getD (.error (.classNotFound className)), g)
    let (outcomes, g) := finishReaders name issued g rest
    (outcome :: outcomes, g)

/-- Whether a reader has to wait. -/
def Reader.waits : Reader → Bool
  | .answered _ => false
  | _ => true

/-- Ends loads. -/
def completeAll (name : String) (issued : Issued) (g : CacheGroup) : CacheGroup :=
  issued.foldl (fun g l => g.setCache name ((g.cache name).complete l.1 l.2 g.clockMs)) g

/-- Runs readers of some classes that start at the same time. -/
def readAll (g : CacheGroup) (name : String) (classNames : List String) :
    List (Outcome ClassSchema) × CacheGroup :=
  let (readers, g, issued) := startReaders name (g, []) classNames
  let g := if readers.any Reader.waits then
      completeAll name issued (g.wait g.source.delayMs)
    else g
  finishReaders name issued g readers

end CacheGroup

end ObjectEngine
