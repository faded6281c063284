import ObjectEngine.Proofs.Include.Levels
import ObjectEngine.Proofs.Include.Splicing

/-!
# Resolving is expanding

`Includes.resolve` fetches level by level, holds each object once for a path, and puts objects in
place at the end. `Includes.resolve_eq_expand` says that its results are those of the plain
recursion `ObjectGraph.expand`, whatever the batches are: for results that share objects, repeat
one another and lie on circles of references.

A `FixedSource` of which no fetch fails answers as a graph: its objects, of which no two may have
one class and id, and its links (`FixedSource.fixed_fetcher`, `FixedSource.answeredBy_graph`). That
no class that is involved has a dollar sign can be read off the documents there are
(`ObjectGraph.plain_of_documents`).
-/

namespace ObjectEngine

section

/-! ### Classes -/

/-- The classes that a value refers to. -/
def Value.classes : Value → List String
  | .relation target => [target]
  | v => (Includes.pointersOf v).map Pointer.className

namespace ObjectGraph

variable {g : ObjectGraph}

/-- What a field refers to is of a class that its value refers to. -/
theorem className_mem_classes {d : Document} {key : String} {p : Pointer}
    (h : p ∈ g.references d key) : ∃ m ∈ d.fields, p.className ∈ m.2.classes := by
  rw [references] at h
  cases hv : d.fields.lookup key with
  | none => rw [hv] at h; exact absurd h List.not_mem_nil
  | some v =>
    refine ⟨(key, v), Members.mem_of_lookup hv, ?_⟩
    rw [hv] at h
    cases v with
    | relation target =>
      obtain ⟨id, -, rfl⟩ := List.mem_map.1 h
      exact List.mem_singleton_self _
    | _ => exact List.mem_map_of_mem h

/-- **Plain documents**: no class of theirs or that they refer to has a dollar sign. -/
theorem plain_of_documents {results docs : List Document} {tree : IncludeTree}
    (hresults : ∀ d ∈ results, d ∈ docs) (hobjects : ∀ p d, g.object? p = some d → d ∈ docs)
    (hclasses : ∀ d ∈ docs, '$' ∉ d.className.toList)
    (hfields : ∀ d ∈ docs, ∀ m ∈ d.fields, ∀ c ∈ m.2.classes, '$' ∉ c.toList) :
    g.Plain results tree where
  roots d hd := hclasses d (hresults d hd)
  referenced n p hp := by
    obtain ⟨t, d, key, child, hparent, -, hp⟩ := hp
    have hd : d ∈ docs := by
      cases hparent with
      | root hd => exact hresults d hd
      | step _ _ _ he => exact hobjects _ d he
    obtain ⟨m, hm, hclass⟩ := className_mem_classes hp
    exact hfields d hd m hm _ hclass

end ObjectGraph

/-! ### Sources -/

namespace FixedSource

/-- **A source that answers**: no fetch fails, and its objects are different ones. -/
structure WellFormed (source : FixedSource) : Prop where
  failingClass : source.failingClass = none
  failingField : source.failingField = none
  nodup : (source.objects.map Document.pointer).Nodup
  sorted : ∀ d ∈ source.objects, Members.Sorted d.fields

variable {source : FixedSource}

/-- The graph of a source; the links of an owner are those given last. -/
def graph (source : FixedSource) (h : source.WellFormed) : ObjectGraph where
  object? p := source.objects.find? fun d => Document.pointer d = p
  links className field ownerId :=
    (source.links.reverse.lookup (className, field, ownerId)).getD []
  pointer_eq hp := of_decide_eq_true (List.find?_some hp :)
  sorted hp := h.sorted _ (List.mem_of_find?_eq_some hp)

/-- The links given for owners of a field. -/
def linksOf (source : FixedSource) (className field : String) (ownerIds : List String) :
    List (String × List String) :=
  source.links.filterMap fun ((c, f, owner), related) =>
    if c = className && f = field && ownerIds.contains owner then some (owner, related) else none

/-- The answers of a source. -/
def answers (source : FixedSource) : FixedAnswers where
  objects className ids :=
    source.objects.filter fun d => d.className = className && ids.contains d.objectId
  links className field ownerIds := Members.ofList (source.linksOf className field ownerIds)

theorem fixed_fetcher (h : source.WellFormed) : source.fetcher.Fixed source.answers where
  objects className ids s := by
    simp only [fetcher, h.failingClass]
    rfl
  links className field ownerIds s := by
    simp only [fetcher, h.failingField]
    rfl

/-- **An object of the graph** is one of the list. -/
theorem object?_graph (h : source.WellFormed) {p : Pointer} {d : Document} :
    (source.graph h).object? p = some d ↔ d ∈ source.objects ∧ Document.pointer d = p := by
  refine ⟨fun hp => ⟨List.mem_of_find?_eq_some hp, (source.graph h).pointer_eq hp⟩, ?_⟩
  rintro ⟨hd, rfl⟩
  cases hfind : (source.graph h).object? (Document.pointer d) with
  | none => exact absurd (List.find?_eq_none.1 hfind d hd) (by simp)
  | some e =>
    have hpointer := (source.graph h).pointer_eq hfind
    rw [List.inj_on_of_nodup_map h.nodup (List.mem_of_find?_eq_some hfind) hd hpointer]

/-- The links of an owner that is asked for. -/
theorem lookup_linksOf (className field : String) (ownerIds : List String) (ownerId : String) :
    (Members.ofList (source.linksOf className field ownerIds)).lookup ownerId =
      if ownerId ∈ ownerIds then source.links.reverse.lookup (className, field, ownerId)
      else none := by
  rw [Members.lookup_ofList, linksOf, ← List.filterMap_reverse]
  induction source.links.reverse with
  | nil => simp
  | cons link rest ih =>
    obtain ⟨⟨c, f, owner⟩, related⟩ := link
    rw [List.filterMap_cons, List.lookup_cons]
    by_cases hlink : (className, field, ownerId) = (c, f, owner)
    · obtain ⟨rfl, rfl, rfl⟩ := hlink
      by_cases howner : ownerId ∈ ownerIds
      · simp [howner]
      · simpa [howner] using ih
    · rw [beq_eq_false_iff_ne.2 hlink]
      dsimp only
      split
      · exact ih
      · rename_i entry hentry
        split at hentry
        · rename_i hasked
          obtain rfl := Option.some.inj hentry
          have hne : ownerId ≠ owner := by
            rintro rfl
            simp only [Bool.and_eq_true, decide_eq_true_eq] at hasked
            exact hlink (by rw [hasked.1.1, hasked.1.2])
          rw [Members.lookup_cons, if_neg hne, ih]
        · exact absurd hentry (by simp)

/-- **A source answers as its graph.** -/
theorem answeredBy_graph (h : source.WellFormed) :
    (source.graph h).AnsweredBy source.answers where
  objects := by
    intro className ids d
    simp only [answers, List.mem_filter, object?_graph, Bool.and_eq_true, decide_eq_true_eq,
      List.contains_iff_mem]
    constructor
    · rintro ⟨hd, rfl, hid⟩
      exact ⟨d.objectId, hid, hd, rfl⟩
    · rintro ⟨id, hid, hd, hpointer⟩
      obtain ⟨rfl, rfl⟩ := Pointer.mk.inj hpointer
      exact ⟨hd, rfl, hid⟩
  links := by
    intro className field ownerIds m hm
    have hlookup := (Members.sorted_ofList _).lookup_of_mem (show (m.1, m.2) ∈ _ from hm)
    rw [lookup_linksOf] at hlookup
    split at hlookup
    · rename_i howner
      refine ⟨howner, ?_⟩
      change m.2 = (source.links.reverse.lookup (className, field, m.1)).getD []
      rw [hlookup, Option.getD_some]
    · exact absurd hlookup (by simp)
  linked := by
    intro className field ownerIds ownerId howner hne
    cases hlookup : source.links.reverse.lookup (className, field, ownerId) with
    | none =>
      refine absurd ?_ hne
      change (source.links.reverse.lookup (className, field, ownerId)).getD [] = []
      rw [hlookup, Option.getD_none]
    | some related =>
      refine ⟨(ownerId, related), Members.mem_of_lookup ?_, rfl⟩
      refine (lookup_linksOf className field ownerIds ownerId).trans ?_
      rw [if_pos howner, hlookup]

end FixedSource

end

namespace Includes

open IncludeTree ObjectGraph

section Runs

variable {σ : Type} {note : σ → FetchRequest → σ} {answers : FixedAnswers}
  {fetcher : Fetcher (ExceptT EngineError (StateM σ))} {size : Nat} {results : List Document}
  {paths : List String} {tree : IncludeTree}

/-- **Resolving** reaches the levels of the tree, then puts the objects in place. -/
theorem runs_resolve (h : fetcher.Gives answers note) (hpaths : ofPaths paths = .ok tree)
    (hwork : (tree.isEmpty || results.isEmpty) = false) :
    Runs note (resolve fetcher size results paths)
      (tree.levels.reverse.flatten.foldl spliceEdge
        (results, levelsPool answers (max size 1) results [] tree.levels)).1
      ((levelsRequests answers (max size 1) results [] tree.levels).flatMap LevelRequests.all) := by
  rw [resolve, hpaths]
  simp only [hwork, Bool.false_eq_true, if_false]
  rw [← List.append_nil (List.flatMap _ _)]
  exact (runs_resolveLevels h _ _ _ _).bind (.pure _)

/-- Without paths or results there is nothing to do. -/
theorem runs_resolve_of_isEmpty (hpaths : ofPaths paths = .ok tree)
    (hnone : (tree.isEmpty || results.isEmpty) = true) :
    Runs note (resolve fetcher size results paths) results [] := by
  rw [resolve, hpaths]
  simp only [hnone, if_true]
  exact .pure results

end Runs

/-- **Resolving is recursive expansion** along the tree of the paths. The answers are fixed and
those of a graph, no class that is involved has a dollar sign, and results of one class and id do
not hold relations to different classes in a field at the top of the tree. -/
theorem resolve_eq_expand {σ : Type} {fetcher : Fetcher (ExceptT EngineError (StateM σ))}
    {answers : FixedAnswers} {g : ObjectGraph} (hfixed : fetcher.Fixed answers)
    (hg : g.AnsweredBy answers) {paths : List String} {tree : IncludeTree}
    (hpaths : ofPaths paths = .ok tree) {results : List Document}
    (hsorted : ∀ d ∈ results, Members.Sorted d.fields) (hplain : g.Plain results tree)
    (hcoherent : ∀ m ∈ tree.children, Coherent m.1 results) (batchSize : Nat) (s : σ) :
    ((resolve fetcher batchSize results paths).run.run s).1 =
      .ok (results.map (g.expand tree)) := by
  cases hwork : tree.isEmpty || results.isEmpty with
  | true =>
    have hruns : Runs fetcher.after (resolve fetcher batchSize results paths) results [] :=
      runs_resolve_of_isEmpty hpaths hwork
    rw [hruns s]
    refine congrArg Except.ok ?_
    rcases (Bool.or_eq_true _ _).mp hwork with hempty | hempty
    · rw [expand_of_isEmpty g hempty, List.map_id]
    · rw [List.isEmpty_iff.1 hempty, List.map_nil]
  | false =>
    rw [runs_resolve hfixed.gives hpaths hwork s]
    have hapart : Apart 0 [(none, tree)] := apart_root (.of_ofPaths hpaths)
    have hpopulated : Populated g results tree 0 [(none, tree)] [] := populated_root
    have hfollowed := followed_levelsPool hg (Nat.le_max_right batchSize 1) hplain hsorted hcoherent
      hapart hpopulated tree.depth
    have hpool : Members.Sorted
        (levelsPool answers (max batchSize 1) results [] tree.levels) := sorted_levelsPool .nil _
    have hdepth : ∀ node ∈ [((none : Option String), tree)], node.2.depth ≤ tree.depth :=
      fun node hnode => List.mem_singleton.1 hnode ▸ Nat.le_refl _
    have hexpanded : Expanded g 0 [(none, tree)]
        (results, levelsPool answers (max batchSize 1) results [] tree.levels) _ :=
      expanded_levelsFrom hapart hdepth hpool hfollowed
    exact congrArg Except.ok (hexpanded.nodes _ (List.mem_singleton_self _))

/-- A post of two authors, of whom one is missing, and its tags. -/
def blogPost : Document :=
  ⟨"Post", "p", none, none,
    [("authors", .array [.pointer ⟨"Author", "a"⟩, .string "et al.", .pointer ⟨"Author", "b"⟩]),
      ("tags", .relation "Tag")]⟩

/-- An author, whose best post is that one, and a tag; the other tag of the post is missing. -/
def blog : FixedSource where
  objects :=
    [⟨"Author", "a", none, none, [("best", .pointer ⟨"Post", "p"⟩)]⟩, blogPost,
      ⟨"Tag", "t", none, none, []⟩]
  links := [(("Post", "tags", "p"), ["u", "t"])]

theorem wellFormed_blog : blog.WellFormed where
  failingClass := rfl
  failingField := rfl
  nodup := by decide
  sorted := by decide

/-- The tree of paths that come back to the post. -/
def blogTree : IncludeTree :=
  .node [("authors", .node [("best", .node [("tags", .node [])])]), ("tags", .node [])]

theorem ofPaths_blogTree : ofPaths ["authors.best.tags", "tags"] = .ok blogTree := rfl

theorem plain_blog (tree : IncludeTree) :
    (blog.graph wellFormed_blog).Plain [blogPost, blogPost] tree := by
  have hresults : ∀ d ∈ [blogPost, blogPost], d ∈ blog.objects := by simp [blog]
  exact plain_of_documents hresults
    (fun _ _ hp => ((FixedSource.object?_graph wellFormed_blog).1 hp).1) (by decide) (by decide)

/-- A result that occurs twice. -/
theorem resolve_eq_expand_blog :
    ((resolve blog.fetcher 1 [blogPost, blogPost] ["authors.best.tags", "tags"]).run.run []).1 =
      .ok ([blogPost, blogPost].map fun d => { d with fields :=
        [("authors", .array [.included ⟨"Author", "a", none, none, [("best", .included { d with
            fields := [("authors", .array [.pointer ⟨"Author", "a"⟩, .string "et al.",
                .pointer ⟨"Author", "b"⟩]),
              ("tags", .array [.included ⟨"Tag", "t", none, none, []⟩])] })]⟩,
          .string "et al.", .null]),
          ("tags", .array [.included ⟨"Tag", "t", none, none, []⟩])] }) := by
  have hsorted : ∀ d ∈ [blogPost, blogPost], Members.Sorted d.fields := by decide
  have hcoherent (key : String) : Coherent key [blogPost, blogPost] := by
    intro d hd e he _ target target' h h'
    obtain rfl : d = blogPost := by simpa using hd
    obtain rfl : e = blogPost := by simpa using he
    exact Value.relation.inj (Option.some.inj (h.symm.trans h'))
  exact resolve_eq_expand (FixedSource.fixed_fetcher wellFormed_blog)
    (FixedSource.answeredBy_graph wellFormed_blog) ofPaths_blogTree hsorted
    (plain_blog blogTree) (fun m _ => hcoherent m.1) 1 []

/-- Two classes with an object of the same id, and an owner of links to it. -/
def twoClasses : FixedSource where
  objects := [⟨"T1", "x", none, none, []⟩, ⟨"T2", "x", none, none, []⟩]
  links := [(("A", "f", "1"), ["x"])]

theorem wellFormed_twoClasses : twoClasses.WellFormed where
  failingClass := rfl
  failingField := rfl
  nodup := by decide
  sorted := by decide

/-- **The links of an owner are held once for a field.** Of two results of one class and id whose
relations are to different classes, the first gets the objects of the second. -/
theorem not_resolve_eq_expand_twoClasses :
    ¬∀ (σ : Type) (fetcher : Fetcher (ExceptT EngineError (StateM σ))) (answers : FixedAnswers)
      (g : ObjectGraph), fetcher.Fixed answers → g.AnsweredBy answers →
      ∀ (paths : List String) (tree : IncludeTree), ofPaths paths = .ok tree →
      ∀ results : List Document, (∀ d ∈ results, Members.Sorted d.fields) → g.Plain results tree →
      ∀ (batchSize : Nat) (s : σ), ((resolve fetcher batchSize results paths).run.run s).1 =
        .ok (results.map (g.expand tree)) := by
  intro h
  have hplain : (twoClasses.graph wellFormed_twoClasses).Plain
      [⟨"A", "1", none, none, [("f", .relation "T1")]⟩,
        ⟨"A", "1", none, none, [("f", .relation "T2")]⟩] (.node [("f", .node [])]) :=
    plain_of_documents (fun d hd => List.mem_append_left twoClasses.objects hd)
      (fun _ _ hp => List.mem_append_right _
        ((FixedSource.object?_graph wellFormed_twoClasses).1 hp).1) (by decide) (by decide)
  have hresolve := h _ _ _ _ (FixedSource.fixed_fetcher wellFormed_twoClasses)
    (FixedSource.answeredBy_graph wellFormed_twoClasses) ["f"] _ rfl _ (by decide) hplain 1 []
  have hdocs : [⟨"A", "1", none, none, [("f", .array [.included ⟨"T2", "x", none, none, []⟩])]⟩,
      ⟨"A", "1", none, none, [("f", .array [.included ⟨"T2", "x", none, none, []⟩])]⟩] =
    [⟨"A", "1", none, none, [("f", .array [.included ⟨"T1", "x", none, none, []⟩])]⟩,
      (⟨"A", "1", none, none, [("f", .array [.included ⟨"T2", "x", none, none, []⟩])]⟩ :
        Document)] := Except.ok.inj hresolve
  simp at hdocs

end Includes

end ObjectEngine
