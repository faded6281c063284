import ObjectEngine.Stored.Value
import ObjectEngine.Include

/-!
# Resolving includes

Include paths are followed level by level. At each level the relation links of its edges are
looked up first; then every object that the level refers to is fetched once, with one fetch per
class and batch of ids, before the next level starts. In the end the objects are put in place
of the references to them, from the deepest level up, so that an object is complete before it
is copied. A reference to an object that does not exist becomes `null`, and a relation field
the array of its objects that exist.

`Includes.resolve` works with any `Fetcher` in any monad with failures;
`FixedSource.fetcher` answers from given lists and notes what it was asked.
-/

namespace ObjectEngine

/-- Where included objects come from. -/
structure Fetcher (m : Type → Type) where
  /-- The objects of a class with some ids; those that do not exist are left out. -/
  objects : (className : String) → (ids : List String) → m (List Document)
  /-- The related ids of each owner of a relation field. -/
  links : (className field : String) → (ownerIds : List String) → m (Members (List String))

namespace Includes

/-- What was reached along one path: the objects by pointer key, and the references that the
relation fields of its owners stand for, by the pointer key of the owner. -/
structure Reached where
  objects : Members Document := []
  links : Members (List Pointer) := []
  deriving Inhabited

/-- What was reached, by path. -/
abbrev Pool := Members Reached

/-- The references of one edge. -/
structure EdgeTargets where
  edge : IncludeEdge
  targets : List Pointer
  links : Members (List Pointer)
  deriving Inhabited

/-- The pointer key of a document. -/
def keyOf (d : Document) : String := Stored.pointerKey (Document.pointer d)

/-- The order of references: by class, then by id. -/
def pointerLt (a b : Pointer) : Bool :=
  a.className < b.className || (a.className = b.className && a.objectId < b.objectId)

/-- Adds a reference to an increasing list, unless it is there. -/
def insertTarget (p : Pointer) : List Pointer → List Pointer
  | [] => [p]
  | q :: rest =>
    if pointerLt p q then p :: q :: rest
    else if p = q then q :: rest
    else q :: insertTarget p rest

/-- The references that a value holds: itself, or the items of an array. -/
def pointersOf : Value → List Pointer
  | .pointer p => [p]
  | .array items => items.filterMap fun item => match item with
    | .pointer p => some p
    | _ => none
  | _ => []

/-- The documents from which an edge starts. -/
def parents (results : List Document) (pool : Pool) (edge : IncludeEdge) : List Document :=
  match edge.parent with
  | none => results
  | some path => ((pool.lookup path).map fun r => Members.values r.objects).getD []

/-- The owners of relation fields that an edge starts from, by their class and the class the
field relates to. -/
def relationOwners (key : String) (docs : List Document) : List (Pointer × List String) :=
  let owners := docs.filterMap fun d => match d.fields.lookup key with
    | some (.relation target) => some ((⟨d.className, target⟩ : Pointer), d.objectId)
    | _ => none
  let groups := owners.foldl (fun acc o => insertTarget o.1 acc) []
  groups.map fun g => (g, (owners.filter fun o => o.1 = g).map Prod.snd)

section

variable {m : Type → Type} [Monad m]

/-- The references of an edge; the links of relation fields are fetched. -/
def edgeTargets (fetcher : Fetcher m) (edge : IncludeEdge) (docs : List Document) :
    m EdgeTargets := do
  let direct := docs.flatMap fun d => match d.fields.lookup edge.key with
    | some v => pointersOf v
    | none => []
  let start : EdgeTargets :=
    { edge, targets := direct.foldl (fun acc p => insertTarget p acc) [], links := [] }
  (relationOwners edge.key docs).foldlM (fun out (group, ownerIds) => do
    let byOwner ← fetcher.links group.className edge.key ownerIds
    return byOwner.foldl (fun out (ownerId, related) =>
      let pointers := related.map fun id => (⟨group.objectId, id⟩ : Pointer)
      { out with
        targets := pointers.foldl (fun acc p => insertTarget p acc) out.targets
        links := Members.insert (Stored.pointerKey ⟨group.className, ownerId⟩) pointers out.links })
      out) start

/-- A list in pieces of at most `size` items. -/
def chunks {α : Type} (size : Nat) : Nat → List α → List (List α)
  | 0, _ => []
  | _ + 1, [] => []
  | fuel + 1, xs => xs.take size :: chunks size fuel (xs.drop size)

/-- The fetches of a level: its references by class, in batches of ids. -/
def batches (size : Nat) (targets : List Pointer) : List (String × List String) :=
  let classes := NameSet.ofList (targets.map Pointer.className)
  classes.flatMap fun c =>
    let ids := (targets.filter fun p => p.className = c).map Pointer.objectId
    (chunks size ids.length ids).map fun batch => (c, batch)

/-- Follows the edges of one level. -/
def resolveLevel (fetcher : Fetcher m) (size : Nat) (results : List Document) (pool : Pool)
    (level : List IncludeEdge) : m Pool := do
  let perEdge ← level.mapM fun edge => edgeTargets fetcher edge (parents results pool edge)
  let targets :=
    perEdge.foldl (fun acc e => e.targets.foldl (fun acc p => insertTarget p acc) acc) []
  let fetched ← (batches size targets).mapM fun (c, ids) => fetcher.objects c ids
  let objects : Members Document :=
    fetched.flatten.foldl (fun acc d => Members.insert (keyOf d) d acc) []
  let reached (e : EdgeTargets) : Members Document :=
    e.targets.foldl (fun acc p =>
      match objects.lookup (Stored.pointerKey p) with
      | some d => Members.insert (Stored.pointerKey p) d acc
      | none => acc) []
  return perEdge.foldl (fun pool e =>
    Members.insert e.edge.path { objects := reached e, links := e.links } pool) pool

/-- Follows the levels one after another. -/
def resolveLevels (fetcher : Fetcher m) (size : Nat) (results : List Document) :
    Pool → List (List IncludeEdge) → m Pool
  | pool, [] => pure pool
  | pool, level :: rest => do
    resolveLevels fetcher size results (← resolveLevel fetcher size results pool level) rest

end

/-! ### Putting objects in place -/

/-- The object a reference stands for, or `null`. -/
def expand (objects : Members Document) (p : Pointer) : Value :=
  match objects.lookup (Stored.pointerKey p) with
  | some d => .included d
  | none => .null

/-- A value with the objects in place of its references. -/
def splice (objects : Members Document) (links : Option (List Pointer)) : Value → Value
  | .pointer p => expand objects p
  | .array items => .array (items.map fun item => match item with
    | .pointer p => expand objects p
    | item => item)
  | .relation _ =>
    .array ((links.getD []).filterMap fun p =>
      (objects.lookup (Stored.pointerKey p)).map .included)
  | v => v

/-- A document with the objects of one edge in place. -/
def spliceDocument (reached : Reached) (key : String) (d : Document) : Document :=
  let links := reached.links.lookup (keyOf d)
  { d with fields := Members.adjust key (splice reached.objects links) d.fields }

/-- The results and what was reached, with the objects of one edge in place. -/
def spliceEdge (state : List Document × Pool) (edge : IncludeEdge) : List Document × Pool :=
  let reached := (state.2.lookup edge.path).getD {}
  match edge.parent with
  | none => (state.1.map (spliceDocument reached edge.key), state.2)
  | some path =>
    (state.1, Members.adjust path (fun r =>
      { r with objects := Members.mapValues (spliceDocument reached edge.key) r.objects }) state.2)

/-- Expands include paths over results. Batches hold at least one id. -/
def resolve {m : Type → Type} [Monad m] [MonadExceptOf EngineError m] (fetcher : Fetcher m)
    (batchSize : Nat) (results : List Document) (paths : List String) : m (List Document) := do
  match IncludeTree.ofPaths paths with
  | .error e => throw e
  | .ok tree =>
    if tree.isEmpty || results.isEmpty then return results
    let pool ← resolveLevels fetcher (max batchSize 1) results [] tree.levels
    return (tree.levels.reverse.flatten.foldl spliceEdge (results, pool)).1

end Includes

/-! ### Fetching from lists -/

/-- A request to a fetcher. -/
inductive FetchRequest
  | objects (className : String) (ids : List String)
  | links (className field : String) (ownerIds : List String)
  deriving DecidableEq, Inhabited

/-- Objects and relation links to fetch from, with the class and the field whose fetches
fail. -/
structure FixedSource where
  objects : List Document
  /-- Class, field and id of an owner, with the related ids. -/
  links : List ((String × String × String) × List String)
  failingClass : Option String := none
  failingField : Option String := none
  deriving Inhabited

namespace FixedSource

/-- Work that notes the requests made, the latest first. -/
abbrev Noting (α : Type) := ExceptT EngineError (StateM (List FetchRequest)) α

/-- The failure of a fetch. -/
def unreachable : EngineError := .store 6 "host unreachable"

/-- Fetches from the lists. -/
def fetcher (source : FixedSource) :
    Fetcher (ExceptT EngineError (StateM (List FetchRequest))) where
  objects className ids := do
    modify (FetchRequest.objects className ids :: ·)
    if source.failingClass = some className then throw unreachable
    return source.objects.filter fun d => d.className = className && ids.contains d.objectId
  links className field ownerIds := do
    modify (FetchRequest.links className field ownerIds :: ·)
    if source.failingField = some field then throw unreachable
    return Members.ofList (source.links.filterMap fun ((c, f, owner), related) =>
      if c = className && f = field && ownerIds.contains owner then some (owner, related) else none)

end FixedSource

end ObjectEngine
