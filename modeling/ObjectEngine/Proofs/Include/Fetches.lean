import ObjectEngine.Proofs.Include.Answers
import ObjectEngine.Proofs.Include.Resolve

/-!
# What resolving fetches

What happens between resolving and a fetcher, event by event: `Fetcher.recorded` keeps a log of it.
A request may be under way while others are (`Includes.Together`): of the requests of one level, the
links are under way together, and after them the objects. `Includes.Scheduled` has all the logs that
this allows; one request after another is the simplest of them (`Includes.scheduled_exchanges`). In
each of them a level is answered before the next one starts (`Includes.Scheduled.inOrder`).

At each depth resolving asks for the objects of exactly the references there are, each once, in as
few batches of the given size as that takes for each class: `Includes.FetchesDepth` says so of one
level, `Includes.fetchesDepth_levelRequests` proves it where the frontier is populated, and
`Includes.fetches_resolve` says it of a whole run and its log.
-/

namespace ObjectEngine

section

/-- **What happens to a request.** -/
inductive FetchEvent
  | asked (request : FetchRequest)
  | answered (request : FetchRequest)
  deriving DecidableEq

namespace Fetcher

variable {σ : Type} {α : Type}

/-- A fetch that is recorded; one that fails is never answered. -/
def recording (request : FetchRequest) (work : ExceptT EngineError (StateM σ) α) :
    ExceptT EngineError (StateM (σ × List FetchEvent)) α := ExceptT.mk fun (s, log) =>
  match work.run.run s with
  | (.ok a, s') => (.ok a, s', log ++ [.asked request, .answered request])
  | (.error e, s') => (.error e, s', log ++ [.asked request])

/-- **A fetcher with a log.** -/
def recorded (fetcher : Fetcher (ExceptT EngineError (StateM σ))) :
    Fetcher (ExceptT EngineError (StateM (σ × List FetchEvent))) where
  objects className ids :=
    recording (.objects className ids) (fetcher.objects className ids)
  links className field ownerIds :=
    recording (.links className field ownerIds) (fetcher.links className field ownerIds)

end Fetcher

namespace Includes

/-- Requests that are asked and answered one after another. -/
def exchanges (requests : List FetchRequest) : List FetchEvent :=
  requests.flatMap fun r => [.asked r, .answered r]

theorem exchanges_append (requests more : List FetchRequest) :
    exchanges (requests ++ more) = exchanges requests ++ exchanges more :=
  List.flatMap_append

theorem mem_exchanges {requests : List FetchRequest} {r : FetchRequest} :
    FetchEvent.asked r ∈ exchanges requests ↔ r ∈ requests := by
  simp [exchanges]

section Recorded

variable {σ : Type} {fetcher : Fetcher (ExceptT EngineError (StateM σ))} {answers : FixedAnswers}

/-- **Fixed answers are recorded** request by request. -/
theorem gives_recorded (h : fetcher.Fixed answers) :
    fetcher.recorded.Gives answers fun s r => (fetcher.after s.1 r, s.2 ++ exchanges [r]) where
  objects className ids s := by
    change Fetcher.recording _ _ s = _
    rw [Fetcher.recording, ExceptT.mk]
    have hok := h.gives.objects className ids s.1
    simp only [hok]
    rfl
  links className field ownerIds s := by
    change Fetcher.recording _ _ s = _
    rw [Fetcher.recording, ExceptT.mk]
    have hok := h.gives.links className field ownerIds s.1
    simp only [hok]
    rfl

/-- The log of some requests. -/
theorem foldl_recorded (requests : List FetchRequest) (s : σ) (log : List FetchEvent) :
    requests.foldl (fun (s : σ × List FetchEvent) r => (fetcher.after s.1 r, s.2 ++ exchanges [r]))
        (s, log) =
      (requests.foldl fetcher.after s, log ++ exchanges requests) := by
  induction requests generalizing s log with
  | nil => rw [List.foldl_nil, List.foldl_nil, exchanges, List.flatMap_nil, List.append_nil]
  | cons r rest ih =>
    rw [List.foldl_cons, ih, List.append_assoc, ← exchanges_append, List.singleton_append,
      List.foldl_cons]

end Recorded

/-! ### Requests under way together -/

/-- **Requests under way together**: each is asked, and answered some time later. -/
inductive Together : List FetchRequest → List FetchEvent → Prop
  | nil : Together [] []
  | cons {r : FetchRequest} {rest : List FetchRequest} {before between after : List FetchEvent}
    (h : Together rest (before ++ (between ++ after))) :
    Together (r :: rest) (before ++ .asked r :: (between ++ .answered r :: after))

theorem together_exchanges (requests : List FetchRequest) :
    Together requests (exchanges requests) := by
  induction requests with
  | nil => exact .nil
  | cons r rest ih =>
    have hcons : Together (r :: rest) ([] ++ .asked r :: ([] ++ .answered r :: exchanges rest)) :=
      .cons ih
    exact hcons

/-- Each of the requests is asked once and answered once. -/
theorem Together.perm {requests : List FetchRequest} {log : List FetchEvent}
    (h : Together requests log) : log.Perm (exchanges requests) := by
  induction h with
  | nil => exact .nil
  | @cons r rest before between after _ ih =>
    have hasked : (before ++ .asked r :: (between ++ .answered r :: after)).Perm
        (.asked r :: (before ++ (between ++ .answered r :: after))) := List.perm_middle
    have hanswered : (before ++ (between ++ .answered r :: after)).Perm
        (.answered r :: (before ++ (between ++ after))) :=
      (List.perm_middle.append_left before).trans List.perm_middle
    exact hasked.trans ((hanswered.trans (ih.cons _)).cons _)

/-- **Levels one after another**: the links of a level are asked for together, and once they are
answered its objects together; once those are answered the next level starts. -/
inductive Scheduled : List LevelRequests → List FetchEvent → Prop
  | nil : Scheduled [] []
  | cons {level : LevelRequests} {rest : List LevelRequests} {links objects log : List FetchEvent}
    (hlinks : Together level.links links)
    (hobjects : Together (level.objects.map fun batch => .objects batch.1 batch.2) objects)
    (h : Scheduled rest log) : Scheduled (level :: rest) (links ++ objects ++ log)

/-- One request after another is a way to go through levels. -/
theorem scheduled_exchanges (levels : List LevelRequests) :
    Scheduled levels (exchanges (levels.flatMap LevelRequests.all)) := by
  induction levels with
  | nil => exact .nil
  | cons level rest ih =>
    rw [List.flatMap_cons, exchanges_append, LevelRequests.all, exchanges_append]
    exact .cons (together_exchanges _) (together_exchanges _) ih

/-- **A level is answered before the next one starts**: the log is cut, after any number of levels,
into what happened to their requests and what happened to the others. -/
def InOrder (levels : List LevelRequests) (log : List FetchEvent) : Prop :=
  ∀ n, ∃ before after, log = before ++ after ∧
    before.Perm (exchanges ((levels.take n).flatMap LevelRequests.all)) ∧
    after.Perm (exchanges ((levels.drop n).flatMap LevelRequests.all))

theorem Scheduled.perm {levels : List LevelRequests} {log : List FetchEvent}
    (h : Scheduled levels log) : log.Perm (exchanges (levels.flatMap LevelRequests.all)) := by
  induction h with
  | nil => exact .nil
  | cons hlinks hobjects _ ih =>
    rw [List.flatMap_cons, exchanges_append, LevelRequests.all, exchanges_append]
    exact (hlinks.perm.append hobjects.perm).append ih

theorem Scheduled.inOrder {levels : List LevelRequests} {log : List FetchEvent}
    (h : Scheduled levels log) : InOrder levels log := by
  induction h with
  | nil => exact fun n => ⟨[], [], rfl, by rw [List.take_nil]; exact .nil,
      by rw [List.drop_nil]; exact .nil⟩
  | @cons level rest links objects log hlinks hobjects hrest ih =>
    intro n
    cases n with
    | zero => exact ⟨[], _, rfl, .nil, (Scheduled.cons hlinks hobjects hrest).perm⟩
    | succ n =>
      obtain ⟨before, after, rfl, hbefore, hafter⟩ := ih n
      refine ⟨links ++ objects ++ before, after, (List.append_assoc ..).symm, ?_, hafter⟩
      rw [List.take_succ_cons, List.flatMap_cons, exchanges_append, LevelRequests.all,
        exchanges_append]
      exact (hlinks.perm.append hobjects.perm).append hbefore

end Includes

end

namespace Includes

open IncludeTree ObjectGraph

/-- The references whose objects a level asks for, with repetitions. -/
def LevelRequests.requested (level : LevelRequests) : List Pointer :=
  level.objects.flatMap batchPointers

/-- **What is fetched at one depth**, with batches of `size` ids. -/
structure FetchesDepth (g : ObjectGraph) (results : List Document) (tree : IncludeTree)
    (size n : Nat) (level : LevelRequests) : Prop where
  /-- Each batch has some ids, but not too many. -/
  bounded : ∀ batch ∈ level.objects, 1 ≤ batch.2.length ∧ batch.2.length ≤ size
  /-- No reference is in two requests, or twice in one. -/
  once : level.requested.Nodup
  /-- The references are those that the fields at this depth hold. -/
  exact : ∀ p, p ∈ level.requested ↔ g.Referenced results tree n p
  /-- There are no more requests than the references of each class need. -/
  count : level.objects.length = ∑ c ∈ level.requested.toFinset.image Pointer.className,
    (level.requested.toFinset.filter fun p => p.className = c).card ⌈/⌉ size
  /-- Links are asked for owners whose relation fields are at this depth. -/
  owners : ∀ r ∈ level.links, ∃ className key ownerIds, r = .links className key ownerIds ∧
    ownerIds ≠ [] ∧ ∀ id ∈ ownerIds, ∃ t d child target, g.Parent results tree n t d ∧
      (key, child) ∈ t.children ∧ Document.pointer d = ⟨className, id⟩ ∧
      d.fields.lookup key = some (.relation target)

variable {g : ObjectGraph} {answers : FixedAnswers} {size : Nat} {results : List Document}
  {tree : IncludeTree} {pool : Pool} {n : Nat} {frontier : List (Option String × IncludeTree)}

/-- **A level fetches what is referred to at its depth.** -/
theorem fetchesDepth_levelRequests (hg : g.AnsweredBy answers) (hsize : 1 ≤ size)
    (h : Populated g results tree n frontier pool) :
    FetchesDepth g results tree size n
      (levelRequests answers size results pool (edgesOf frontier)) := by
  have hnodup : (levelTargets answers results pool (edgesOf frontier)).Nodup := nodup_targetSet _
  have hrequested (p : Pointer) :
      p ∈ (levelRequests answers size results pool (edgesOf frontier)).requested ↔
        p ∈ levelTargets answers results pool (edgesOf frontier) := mem_flatMap_batches hsize _
  refine ⟨fun batch hbatch => length_of_mem_batches hsize hbatch,
    nodup_flatMap_batches hsize hnodup, fun p => (hrequested p).trans (h.mem_levelTargets hg),
    ?_, fun r hr => ?_⟩
  · have hset : (levelRequests answers size results pool (edgesOf frontier)).requested.toFinset =
        (levelTargets answers results pool (edgesOf frontier)).toFinset := by
      ext p
      rw [List.mem_toFinset, List.mem_toFinset, hrequested]
    rw [hset]
    exact length_batches hsize hnodup
  · obtain ⟨edge, hedge, hr⟩ := List.mem_flatMap.1 hr
    obtain ⟨group, hgroup, rfl⟩ := List.mem_map.1 hr
    obtain ⟨node, hnode, m, hm, rfl⟩ := mem_edgesOf.1 hedge
    refine ⟨_, _, _, rfl, ne_nil_of_mem_relationOwners hgroup, fun id hid => ?_⟩
    obtain ⟨d, hd, hpointer, hlookup⟩ := of_mem_relationOwners hgroup hid
    rw [parents_eq] at hd
    exact ⟨node.2, d, m.2, group.1.objectId, h.sound node hnode d hd, hm, hpointer, hlookup⟩

/-- **Every level of a run** fetches what is referred to at its depth. -/
theorem fetchesDepth_levelsRequests (hg : g.AnsweredBy answers) (hsize : 1 ≤ size)
    (hplain : g.Plain results tree) (hapart : Apart n frontier)
    (h : Populated g results tree n frontier pool) (depth : Nat) {k : Nat} {level : LevelRequests}
    (hlevel : (levelsRequests answers size results pool (levelsFrom depth frontier))[k]? =
      some level) : FetchesDepth g results tree size (n + k) level := by
  induction depth generalizing n frontier pool k with
  | zero => exact absurd hlevel (by simp [levelsFrom, levelsRequests])
  | succ depth ih =>
    rw [levelsFrom, levelsRequests] at hlevel
    cases k with
    | zero =>
      obtain rfl := Option.some.inj hlevel
      exact fetchesDepth_levelRequests hg hsize h
    | succ k =>
      rw [List.getElem?_cons_succ] at hlevel
      have hnext := ih hapart.next (h.next hg hsize hplain hapart) hlevel
      rwa [show n + (k + 1) = n + 1 + k by omega]

/-- Where no document has fields at this depth, nothing is fetched. -/
theorem FetchesDepth.all_eq_nil {level : LevelRequests}
    (h : FetchesDepth g results tree size n level) (hnone : ∀ t d, ¬g.Parent results tree n t d) :
    level.all = [] := by
  have hobjects : level.objects = [] := by
    refine List.eq_nil_iff_forall_not_mem.2 fun batch hbatch => ?_
    obtain ⟨id, hid⟩ := List.exists_mem_of_length_pos (h.bounded batch hbatch).1
    have hp : ⟨batch.1, id⟩ ∈ level.requested :=
      List.mem_flatMap.2 ⟨batch, hbatch, mem_batchPointers.2 ⟨rfl, hid⟩⟩
    obtain ⟨t, d, -, -, hparent, -⟩ := (h.exact _).1 hp
    exact hnone t d hparent
  have hlinks : level.links = [] := by
    refine List.eq_nil_iff_forall_not_mem.2 fun r hr => ?_
    obtain ⟨className, key, ownerIds, -, hne, howners⟩ := h.owners r hr
    obtain ⟨id, hid⟩ := List.exists_mem_of_ne_nil ownerIds hne
    obtain ⟨t, d, -, -, hparent, -⟩ := howners id hid
    exact hnone t d hparent
  rw [LevelRequests.all, hobjects, hlinks]
  rfl

theorem not_parent_nil {t : IncludeTree} {d : Document} : ¬g.Parent [] tree n t d := by
  intro h
  induction h with
  | root h => exact absurd h List.not_mem_nil
  | step _ _ _ _ ih => exact ih

theorem length_levelsRequests (pool : Pool) (levels : List (List IncludeEdge)) :
    (levelsRequests answers size results pool levels).length = levels.length := by
  induction levels generalizing pool with
  | nil => rfl
  | cons level rest ih => rw [levelsRequests, List.length_cons, ih, List.length_cons]

theorem length_levelsFrom (depth : Nat) (frontier : List (Option String × IncludeTree)) :
    (levelsFrom depth frontier).length = depth := by
  induction depth generalizing frontier with
  | zero => rfl
  | succ depth ih => rw [levelsFrom, List.length_cons, ih]

/-- Without paths or results no level has requests. -/
theorem flatMap_all_eq_nil {levels : List LevelRequests}
    (hlevels : ∀ n level, levels[n]? = some level → FetchesDepth g results tree size n level)
    (hlength : levels.length = tree.depth) (hnone : (tree.isEmpty || results.isEmpty) = true) :
    levels.flatMap LevelRequests.all = [] := by
  rcases (Bool.or_eq_true _ _).mp hnone with hempty | hempty
  · obtain ⟨children⟩ := tree
    obtain rfl : children = [] := List.isEmpty_iff.1 hempty
    rw [List.eq_nil_of_length_eq_zero hlength, List.flatMap_nil]
  · obtain rfl := List.isEmpty_iff.1 hempty
    refine List.flatMap_eq_nil_iff.2 fun level hlevel => ?_
    obtain ⟨k, hk⟩ := List.getElem?_of_mem hlevel
    exact (hlevels k level hk).all_eq_nil fun _ _ => not_parent_nil

/-- **Fetches are without repetitions and bounded.** A run goes through the levels of the tree; at
each depth it asks for the objects that are referred to there, each once and in the fewest batches;
and in whatever order the requests of a level are answered, none of the next level is made
before. -/
theorem fetches_resolve {σ : Type} {fetcher : Fetcher (ExceptT EngineError (StateM σ))}
    (hfixed : fetcher.Fixed answers) (hg : g.AnsweredBy answers) {paths : List String}
    (hpaths : ofPaths paths = .ok tree) (hplain : g.Plain results tree) (hsize : 1 ≤ size)
    (s : σ) :
    ∃ docs s' levels, (resolve fetcher.recorded size results paths).run.run (s, []) =
        (.ok docs, s', exchanges (levels.flatMap LevelRequests.all)) ∧
      levels.length = tree.depth ∧
      (∀ n level, levels[n]? = some level → FetchesDepth g results tree size n level) ∧
      Scheduled levels (exchanges (levels.flatMap LevelRequests.all)) ∧
      ∀ log, Scheduled levels log → InOrder levels log := by
  obtain ⟨levels, hlevels⟩ : ∃ levels,
    levels = levelsRequests answers (max size 1) results [] tree.levels := ⟨_, rfl⟩
  have hlength : levels.length = tree.depth := by
    rw [hlevels, length_levelsRequests, IncludeTree.levels, length_levelsFrom]
  have hfetches : ∀ n level, levels[n]? = some level →
      FetchesDepth g results tree size n level := by
    intro n level hlevel
    rw [hlevels, Nat.max_eq_left hsize] at hlevel
    have hdepth := fetchesDepth_levelsRequests hg hsize hplain (apart_root (.of_ofPaths hpaths))
      populated_root tree.depth hlevel
    rwa [Nat.zero_add] at hdepth
  have hrun : ∃ docs, Runs (fun s r => (fetcher.after s.1 r, s.2 ++ exchanges [r]))
      (resolve fetcher.recorded size results paths) docs (levels.flatMap LevelRequests.all) := by
    cases hwork : tree.isEmpty || results.isEmpty with
    | true =>
      -- resolving stops at once, and the levels are empty ones
      rw [flatMap_all_eq_nil hfetches hlength hwork]
      exact ⟨results, runs_resolve_of_isEmpty hpaths hwork⟩
    | false =>
      rw [hlevels]
      exact ⟨_, runs_resolve (gives_recorded hfixed) hpaths hwork⟩
  obtain ⟨docs, hdocs⟩ := hrun
  refine ⟨docs, (levels.flatMap LevelRequests.all).foldl fetcher.after s, levels, ?_, hlength,
    hfetches, scheduled_exchanges levels, fun log hlog => hlog.inOrder⟩
  rw [hdocs, foldl_recorded, List.nil_append]

/-- A post that occurs twice, in batches of two. -/
theorem fetches_resolve_blog : ∃ docs s' levels,
    (resolve blog.fetcher.recorded 2 [blogPost, blogPost] ["authors.best.tags", "tags"]).run.run
        ([], []) = (.ok docs, s', exchanges (levels.flatMap LevelRequests.all)) ∧
      levels.length = blogTree.depth ∧
      (∀ n level, levels[n]? = some level → FetchesDepth (blog.graph wellFormed_blog)
        [blogPost, blogPost] blogTree 2 n level) ∧
      Scheduled levels (exchanges (levels.flatMap LevelRequests.all)) ∧
      ∀ log, Scheduled levels log → InOrder levels log :=
  fetches_resolve (FixedSource.fixed_fetcher wellFormed_blog)
    (FixedSource.answeredBy_graph wellFormed_blog) ofPaths_blogTree (plain_blog blogTree)
    (by decide) []

/-- Two objects of different classes with one pointer key, each with a reference of its own. -/
def sameKey : FixedSource where
  objects :=
    [⟨"A", "B$c", none, none, [("g", .pointer ⟨"X", "1"⟩)]⟩,
      ⟨"A$B", "c", none, none, [("g", .pointer ⟨"X", "2"⟩)]⟩,
      ⟨"X", "1", none, none, []⟩, ⟨"X", "2", none, none, []⟩]
  links := []

theorem wellFormed_sameKey : sameKey.WellFormed where
  failingClass := rfl
  failingField := rfl
  nodup := by decide
  sorted := by decide

/-- A document that refers to both of them. -/
def sameKeyResult : Document :=
  ⟨"R", "1", none, none, [("f", .array [.pointer ⟨"A", "B$c"⟩, .pointer ⟨"A$B", "c"⟩])]⟩

/-- The tree of the path `f.g`. -/
def sameKeyTree : IncludeTree := .node [("f", .node [("g", .node [])])]

theorem ofPaths_sameKeyTree : ofPaths ["f.g"] = .ok sameKeyTree := rfl

/-- The object of `A` refers to the first object of `X`. -/
theorem referenced_sameKey : (sameKey.graph wellFormed_sameKey).Referenced [sameKeyResult]
    sameKeyTree 1 ⟨"X", "1"⟩ := by
  have hreference : ⟨"A", "B$c"⟩ ∈
      (sameKey.graph wellFormed_sameKey).references sameKeyResult "f" := List.mem_cons_self
  exact ⟨_, _, "g", _, .step (.root List.mem_cons_self) List.mem_cons_self hreference rfl,
    List.mem_cons_self, List.mem_cons_self⟩

/-- The run asks for the second one only. -/
theorem log_sameKey : ((resolve sameKey.fetcher.recorded 2 [sameKeyResult] ["f.g"]).run.run
    ([], [])).2.2 =
      exchanges [.objects "A" ["B$c"], .objects "A$B" ["c"], .objects "X" ["2"]] := by
  decide +kernel

/-- **Classes with a dollar sign share pointer keys.** Of the objects `B$c` of `A` and `c` of `A$B`
one is lost, and what it refers to is never fetched. -/
theorem not_fetches_resolve_sameKey :
    ¬∀ (σ : Type) (fetcher : Fetcher (ExceptT EngineError (StateM σ))) (answers : FixedAnswers)
      (g : ObjectGraph), fetcher.Fixed answers → g.AnsweredBy answers →
      ∀ (paths : List String) (tree : IncludeTree), ofPaths paths = .ok tree →
      ∀ (results : List Document) (size : Nat), 1 ≤ size → ∀ s : σ,
      ∃ docs s' levels, (resolve fetcher.recorded size results paths).run.run (s, []) =
          (.ok docs, s', exchanges (levels.flatMap LevelRequests.all)) ∧
        levels.length = tree.depth ∧
        (∀ n level, levels[n]? = some level → FetchesDepth g results tree size n level) ∧
        Scheduled levels (exchanges (levels.flatMap LevelRequests.all)) ∧
        ∀ log, Scheduled levels log → InOrder levels log := by
  intro h
  obtain ⟨docs, s', levels, hrun, hlength, hfetches, -⟩ := h _ _ _ _
    (FixedSource.fixed_fetcher wellFormed_sameKey) (FixedSource.answeredBy_graph wellFormed_sameKey)
    ["f.g"] sameKeyTree ofPaths_sameKeyTree [sameKeyResult] 2 (by decide) []
  have hlevel : 1 < levels.length := by
    rw [hlength]
    decide
  have hp := ((hfetches 1 _ (List.getElem?_eq_getElem hlevel)).exact _).2 referenced_sameKey
  obtain ⟨batch, hbatch, hp⟩ := List.mem_flatMap.1 hp
  obtain ⟨hclass, hid⟩ := mem_batchPointers.1 hp
  have hrequest : FetchRequest.objects batch.1 batch.2 ∈ levels.flatMap LevelRequests.all :=
    List.mem_flatMap.2 ⟨_, List.getElem_mem hlevel,
      List.mem_append_right _ (List.mem_map_of_mem hbatch)⟩
  have hlog : exchanges (levels.flatMap LevelRequests.all) = _ :=
    (congrArg (fun out => out.2.2) hrun).symm.trans log_sameKey
  have hasked := mem_exchanges.2 hrequest
  rw [hlog, mem_exchanges, hclass] at hasked
  have hids : batch.2 = ["2"] := by simpa using hasked
  rw [hids] at hid
  exact absurd hid (by decide)

end Includes

end ObjectEngine
