import ObjectEngine.Engine.Includes
import ObjectEngine.Members.Lemmas

/-!
# Resolving with fixed answers

When the answers of a fetcher depend on the request alone, resolving is a function of them, and so
are the requests that are made and their order. `Includes.Runs` says this of a piece of work,
whatever state the fetcher keeps; `Includes.runs_resolveLevels` says it of all levels, with the
pool of each level (`Includes.levelPool`) and its requests (`Includes.LevelRequests`).
-/

namespace ObjectEngine

/-- **Answers that depend on the request alone.** -/
structure FixedAnswers where
  objects : (className : String) → (ids : List String) → List Document
  links : (className field : String) → (ownerIds : List String) → Members (List String)

/-- **A fetcher with fixed answers**, which may keep a state of its own: it takes note of each
request. -/
structure Fetcher.Gives {σ : Type} (fetcher : Fetcher (ExceptT EngineError (StateM σ)))
    (answers : FixedAnswers) (note : σ → FetchRequest → σ) : Prop where
  objects : ∀ className ids s, (fetcher.objects className ids).run.run s =
    (.ok (answers.objects className ids), note s (.objects className ids))
  links : ∀ className field ownerIds s, (fetcher.links className field ownerIds).run.run s =
    (.ok (answers.links className field ownerIds), note s (.links className field ownerIds))

namespace Fetcher

variable {σ : Type} {fetcher : Fetcher (ExceptT EngineError (StateM σ))} {answers : FixedAnswers}

/-- **A fetcher whose answers depend on the request alone**, whatever its state. -/
structure Fixed (fetcher : Fetcher (ExceptT EngineError (StateM σ))) (answers : FixedAnswers) :
    Prop where
  objects : ∀ className ids s,
    ((fetcher.objects className ids).run.run s).1 = .ok (answers.objects className ids)
  links : ∀ className field ownerIds s,
    ((fetcher.links className field ownerIds).run.run s).1 =
      .ok (answers.links className field ownerIds)

/-- The state in which a request leaves a fetcher. -/
def after (fetcher : Fetcher (ExceptT EngineError (StateM σ))) (s : σ) : FetchRequest → σ
  | .objects className ids => ((fetcher.objects className ids).run.run s).2
  | .links className field ownerIds => ((fetcher.links className field ownerIds).run.run s).2

/-- Such a fetcher takes note of a request by its state. -/
theorem Fixed.gives (h : fetcher.Fixed answers) : fetcher.Gives answers fetcher.after where
  objects className ids s := Prod.ext (h.objects className ids s) rfl
  links className field ownerIds s := Prod.ext (h.links className field ownerIds s) rfl

end Fetcher

namespace Includes

/-! ### Work with one result -/

section Runs

variable {σ : Type} {α β : Type} {note : σ → FetchRequest → σ}

/-- **Work with one result**, whatever the state, that makes these requests in this order. -/
def Runs (note : σ → FetchRequest → σ) (work : ExceptT EngineError (StateM σ) α) (a : α)
    (requests : List FetchRequest) : Prop :=
  ∀ s, work.run.run s = (.ok a, requests.foldl note s)

namespace Runs

theorem pure (a : α) : Runs note (Pure.pure a) a [] := fun _ => rfl

theorem bind {work : ExceptT EngineError (StateM σ) α} {f : α → ExceptT EngineError (StateM σ) β}
    {a : α} {b : β} {requests requests' : List FetchRequest} (h : Runs note work a requests)
    (hf : Runs note (f a) b requests') : Runs note (work >>= f) b (requests ++ requests') := by
  intro s
  rw [ExceptT.run_bind, StateT.run_bind, h s, List.foldl_append]
  exact hf (requests.foldl note s)

/-- A fold whose steps have one result each. -/
theorem foldlM {f : β → α → ExceptT EngineError (StateM σ) β} {g : β → α → β}
    {requests : α → List FetchRequest} (h : ∀ b a, Runs note (f b a) (g b a) (requests a))
    (xs : List α) (b : β) : Runs note (xs.foldlM f b) (xs.foldl g b) (xs.flatMap requests) := by
  induction xs generalizing b with
  | nil => exact .pure b
  | cons a rest ih =>
    rw [List.foldlM_cons, List.flatMap_cons]
    exact (h b a).bind (ih (g b a))

/-- One result for each item. -/
theorem mapM {f : α → ExceptT EngineError (StateM σ) β} {g : α → β}
    {requests : α → List FetchRequest} (h : ∀ a, Runs note (f a) (g a) (requests a))
    (xs : List α) : Runs note (xs.mapM f) (xs.map g) (xs.flatMap requests) := by
  induction xs with
  | nil => exact .pure []
  | cons a rest ih =>
    rw [List.mapM_cons, List.map_cons, List.flatMap_cons]
    refine (h a).bind ?_
    rw [← List.append_nil (rest.flatMap requests)]
    exact ih.bind (.pure _)

end Runs

end Runs

/-! ### Edges -/

/-- The references that the fields of some documents hold, relations apart. -/
def directReferences (key : String) (docs : List Document) : List Pointer :=
  docs.flatMap fun d => match d.fields.lookup key with
    | some v => pointersOf v
    | none => []

/-- The links answered for the owners of one class whose field relates to one class, by the key of
the owner. -/
def groupEntries (answers : FixedAnswers) (key : String) (group : Pointer × List String) :
    List (String × List Pointer) :=
  (answers.links group.1.className key group.2).map fun m =>
    (Stored.pointerKey ⟨group.1.className, m.1⟩, m.2.map fun id => ⟨group.1.objectId, id⟩)

/-- The links answered for the relation fields of some documents. -/
def linkEntries (answers : FixedAnswers) (key : String) (docs : List Document) :
    List (String × List Pointer) :=
  (relationOwners key docs).flatMap (groupEntries answers key)

/-- References in order, each once. -/
def targetSet (ps : List Pointer) : List Pointer := ps.foldl (fun acc p => insertTarget p acc) []

/-- **The references of an edge**, with fixed answers. -/
def targetsOf (answers : FixedAnswers) (edge : IncludeEdge) (docs : List Document) : EdgeTargets :=
  { edge
    targets := targetSet
      (directReferences edge.key docs ++ (linkEntries answers edge.key docs).flatMap Prod.snd)
    links := Members.ofList (linkEntries answers edge.key docs) }

/-- The links that are asked for along an edge. -/
def linkRequests (key : String) (docs : List Document) : List FetchRequest :=
  (relationOwners key docs).map fun group => .links group.1.className key group.2

/-- The references of an edge with the links of one more owner. -/
def addEntry (out : EdgeTargets) (entry : String × List Pointer) : EdgeTargets :=
  { out with
    targets := entry.2.foldl (fun acc p => insertTarget p acc) out.targets
    links := Members.insert entry.1 entry.2 out.links }

theorem foldl_addEntry (entries : List (String × List Pointer)) (out : EdgeTargets) :
    entries.foldl addEntry out =
      { out with
        targets := (entries.flatMap Prod.snd).foldl (fun acc p => insertTarget p acc) out.targets
        links := Members.insertAll out.links entries } := by
  induction entries generalizing out with
  | nil => rfl
  | cons entry rest ih =>
    rw [List.foldl_cons, ih, List.flatMap_cons, List.foldl_append]
    rfl

/-- **The references of an edge** are put together owner by owner. -/
theorem targetsOf_eq (answers : FixedAnswers) (edge : IncludeEdge) (docs : List Document) :
    targetsOf answers edge docs =
      (relationOwners edge.key docs).foldl
        (fun out group => (groupEntries answers edge.key group).foldl addEntry out)
        { edge, targets := targetSet (directReferences edge.key docs), links := [] } := by
  rw [← List.foldl_flatMap, foldl_addEntry, targetsOf, targetSet, List.foldl_append]
  rfl

/-! ### Levels -/

/-- **What is asked for at one depth**: the links of the relation fields, then the objects. -/
structure LevelRequests where
  links : List FetchRequest
  objects : List (String × List String)

/-- The requests of a level in their order. -/
def LevelRequests.all (level : LevelRequests) : List FetchRequest :=
  level.links ++ level.objects.map fun batch => .objects batch.1 batch.2

/-- The references of all edges of a level, each once. -/
def levelTargets (answers : FixedAnswers) (results : List Document) (pool : Pool)
    (level : List IncludeEdge) : List Pointer :=
  targetSet (level.flatMap fun edge => (targetsOf answers edge (parents results pool edge)).targets)

/-- The requests of a level. -/
def levelRequests (answers : FixedAnswers) (size : Nat) (results : List Document) (pool : Pool)
    (level : List IncludeEdge) : LevelRequests where
  links := level.flatMap fun edge => linkRequests edge.key (parents results pool edge)
  objects := batches size (levelTargets answers results pool level)

/-- The objects of a level, by key. -/
def levelObjects (answers : FixedAnswers) (size : Nat) (targets : List Pointer) :
    Members Document :=
  Members.ofList (((batches size targets).flatMap fun batch => answers.objects batch.1 batch.2).map
    fun d => (keyOf d, d))

/-- What is reached along one edge of a level. -/
def reachedAlong (objects : Members Document) (e : EdgeTargets) : Reached where
  objects := Members.ofList (e.targets.filterMap fun p =>
    (objects.lookup (Stored.pointerKey p)).map fun d => (Stored.pointerKey p, d))
  links := e.links

/-- **The pool after a level**, with fixed answers. -/
def levelPool (answers : FixedAnswers) (size : Nat) (results : List Document) (pool : Pool)
    (level : List IncludeEdge) : Pool :=
  let objects := levelObjects answers size (levelTargets answers results pool level)
  Members.insertAll pool (level.map fun edge =>
    (edge.path, reachedAlong objects (targetsOf answers edge (parents results pool edge))))

/-- What is reached along an edge is collected reference by reference. -/
theorem reachedAlong_eq (objects : Members Document) (e : EdgeTargets) :
    reachedAlong objects e =
      { objects := e.targets.foldl (fun acc p =>
          match objects.lookup (Stored.pointerKey p) with
          | some d => Members.insert (Stored.pointerKey p) d acc
          | none => acc) []
        links := e.links } := by
  rw [reachedAlong, Members.ofList, Members.insertAll, List.foldl_filterMap]
  refine congrArg (fun f => Reached.mk (List.foldl f [] e.targets) e.links)
    (funext fun acc => funext fun p => ?_)
  cases objects.lookup (Stored.pointerKey p) <;> rfl

section Gives

variable {σ : Type} {note : σ → FetchRequest → σ} {answers : FixedAnswers}
  {fetcher : Fetcher (ExceptT EngineError (StateM σ))} (h : fetcher.Gives answers note)

include h

theorem runs_links (className field : String) (ownerIds : List String) :
    Runs note (fetcher.links className field ownerIds) (answers.links className field ownerIds)
      [.links className field ownerIds] :=
  h.links className field ownerIds

theorem runs_objects (className : String) (ids : List String) :
    Runs note (fetcher.objects className ids) (answers.objects className ids)
      [.objects className ids] :=
  h.objects className ids

theorem runs_edgeTargets (edge : IncludeEdge) (docs : List Document) :
    Runs note (edgeTargets fetcher edge docs) (targetsOf answers edge docs)
      (linkRequests edge.key docs) := by
  rw [targetsOf_eq, linkRequests, List.map_eq_flatMap]
  refine Runs.foldlM (fun out group => ?_) _ _
  rw [groupEntries, List.foldl_map]
  exact Runs.bind (runs_links h _ _ _) (Runs.pure _)

/-- **A level** asks for its links, then for its objects, and reaches what is answered. -/
theorem runs_resolveLevel (size : Nat) (results : List Document) (pool : Pool)
    (level : List IncludeEdge) :
    Runs note (resolveLevel fetcher size results pool level)
      (levelPool answers size results pool level)
      (levelRequests answers size results pool level).all := by
  have htargets : (level.map fun edge => targetsOf answers edge (parents results pool edge)).foldl
      (fun acc e => e.targets.foldl (fun acc p => insertTarget p acc) acc) [] =
      levelTargets answers results pool level := by
    rw [levelTargets, targetSet, List.foldl_flatMap, List.foldl_map]
  have hobjects : ((batches size (levelTargets answers results pool level)).map fun batch =>
      answers.objects batch.1 batch.2).flatten.foldl (fun acc d => Members.insert (keyOf d) d acc)
      [] = levelObjects answers size (levelTargets answers results pool level) := by
    rw [levelObjects, Members.ofList, Members.insertAll, List.foldl_map, List.flatMap]
  refine Runs.bind (Runs.mapM (fun edge => runs_edgeTargets h edge _) level) ?_
  rw [htargets, List.map_eq_flatMap (l := (levelRequests answers size results pool level).objects),
    ← List.append_nil (List.flatMap _ _)]
  have hfetch (batch : String × List String) := runs_objects h batch.1 batch.2
  refine Runs.bind (Runs.mapM hfetch _) ?_
  rw [hobjects, levelPool, Members.insertAll]
  simp only [List.foldl_map, reachedAlong_eq]
  exact Runs.pure _

end Gives

/-! ### All levels -/

/-- The pool after some levels, with fixed answers. -/
def levelsPool (answers : FixedAnswers) (size : Nat) (results : List Document) (pool : Pool)
    (levels : List (List IncludeEdge)) : Pool :=
  levels.foldl (levelPool answers size results) pool

/-- The requests of some levels, each with the pool that the levels before it leave. -/
def levelsRequests (answers : FixedAnswers) (size : Nat) (results : List Document) :
    Pool → List (List IncludeEdge) → List LevelRequests
  | _, [] => []
  | pool, level :: rest =>
    levelRequests answers size results pool level ::
      levelsRequests answers size results (levelPool answers size results pool level) rest

/-- **Levels follow one another**: all requests of one come before those of the next. -/
theorem runs_resolveLevels {σ : Type} {note : σ → FetchRequest → σ} {answers : FixedAnswers}
    {fetcher : Fetcher (ExceptT EngineError (StateM σ))} (h : fetcher.Gives answers note)
    (size : Nat) (results : List Document) (pool : Pool) (levels : List (List IncludeEdge)) :
    Runs note (resolveLevels fetcher size results pool levels)
      (levelsPool answers size results pool levels)
      ((levelsRequests answers size results pool levels).flatMap LevelRequests.all) := by
  induction levels generalizing pool with
  | nil => exact .pure pool
  | cons level rest ih =>
    rw [resolveLevels, levelsRequests, List.flatMap_cons]
    exact (runs_resolveLevel h size results pool level).bind (ih _)

end Includes

end ObjectEngine
