import Mathlib.Data.List.Nodup
import ObjectEngine.Include
import ObjectEngine.Members.Lemmas
import ObjectEngine.Proofs.Outcome
import ObjectEngine.Proofs.Text.Reading

/-!
# Paths of an include tree

No two edges of a tree of include paths have one path (`IncludeTree.Apart.nodup_childNodes`): the
segments have no full stop, so a path tells its depth (`IncludeTree.pathDepth`) and its last
segment.
-/

namespace ObjectEngine

namespace IncludeTree

/-- **A tree of segments**: in each node they are in order, and none has a full stop. -/
inductive Proper : IncludeTree → Prop
  | node {children : List (String × IncludeTree)} (sorted : Members.Sorted children)
      (keys : ∀ m ∈ children, '.' ∉ m.1.toList) (subtrees : ∀ m ∈ children, Proper m.2) :
      Proper (.node children)

namespace Proper

variable {tree : IncludeTree}

theorem sorted (h : tree.Proper) : Members.Sorted tree.children := by
  cases h with
  | node hs _ _ => exact hs

theorem keys (h : tree.Proper) : ∀ m ∈ tree.children, '.' ∉ m.1.toList := by
  cases h with
  | node _ hkeys _ => exact hkeys

theorem subtrees (h : tree.Proper) : ∀ m ∈ tree.children, m.2.Proper := by
  cases h with
  | node _ _ hsubtrees => exact hsubtrees

theorem empty : IncludeTree.empty.Proper :=
  .node List.Pairwise.nil (fun _ h => absurd h List.not_mem_nil)
    fun _ h => absurd h List.not_mem_nil

theorem insert {segments : List String} (hs : ∀ s ∈ segments, '.' ∉ s.toList)
    (h : tree.Proper) : (IncludeTree.insert segments tree).Proper := by
  induction segments generalizing tree with
  | nil => exact h
  | cons s rest ih =>
    obtain ⟨hfirst, hrest⟩ := List.forall_mem_cons.1 hs
    have hchild : ((tree.children.lookup s).getD IncludeTree.empty).Proper := by
      cases hlookup : tree.children.lookup s with
      | none => exact empty
      | some child => exact h.subtrees _ (Members.mem_of_lookup hlookup)
    refine .node (Members.sorted_insert h.sorted _ _) (fun m hm => ?_) fun m hm => ?_
    · rcases Members.mem_insert hm with rfl | hm
      · exact hfirst
      · exact h.keys m hm
    · rcases Members.mem_insert hm with rfl | hm
      · exact ih hrest hchild
      · exact h.subtrees m hm

/-- **The tree of a list of paths** is one of segments. -/
theorem of_ofPaths {paths : List String} (h : ofPaths paths = .ok tree) : tree.Proper := by
  refine Outcome.foldlM_induction h empty fun tree htree path _ tree' htree' => ?_
  dsimp only at htree'
  split at htree'
  · exact absurd htree' (by simp)
  · obtain rfl := Except.ok.inj htree'
    exact htree.insert fun s hs => Text.not_mem_of_mem_split hs

end Proper

/-! ### Depths -/

theorem depth_le_depthOf {children : List (String × IncludeTree)} {m : String × IncludeTree}
    (h : m ∈ children) : 1 + m.2.depth ≤ depthOf children := by
  induction children with
  | nil => exact absurd h List.not_mem_nil
  | cons first rest ih =>
    rw [depthOf]
    rcases List.mem_cons.1 h with rfl | h
    · exact Nat.le_max_left _ _
    · exact Nat.le_trans (ih h) (Nat.le_max_right _ _)

/-- A subtree has fewer levels. -/
theorem depth_lt {tree : IncludeTree} {m : String × IncludeTree} (h : m ∈ tree.children) :
    m.2.depth < tree.depth := by
  obtain ⟨children⟩ := tree
  have hle : 1 + m.2.depth ≤ depthOf children := depth_le_depthOf h
  rw [depth]
  omega

/-- The number of segments of a path. -/
def pathDepth : Option String → Nat
  | none => 0
  | some path => path.toList.count '.' + 1

theorem toList_edgePath (path key : String) :
    (edgePath (some path) key).toList = path.toList ++ '.' :: key.toList := by
  change (path ++ "." ++ key).toList = _
  simp [String.toList_append]

theorem pathDepth_edgePath {key : String} (hkey : '.' ∉ key.toList) (parent : Option String) :
    pathDepth (some (edgePath parent key)) = pathDepth parent + 1 := by
  cases parent with
  | none =>
    change key.toList.count '.' + 1 = 0 + 1
    rw [List.count_eq_zero_of_not_mem hkey]
  | some path =>
    rw [pathDepth, toList_edgePath, List.count_append, List.count_cons_self,
      List.count_eq_zero_of_not_mem hkey, pathDepth]

/-- **Edges of one depth** have different paths, if they have different parents or keys. -/
theorem edgePath_inj {parent parent' : Option String} {key key' : String}
    (hdepth : pathDepth parent = pathDepth parent') (hkey : '.' ∉ key.toList)
    (hkey' : '.' ∉ key'.toList) (h : edgePath parent key = edgePath parent' key') :
    parent = parent' ∧ key = key' := by
  cases parent with
  | none =>
    cases parent' with
    | none => exact ⟨rfl, h⟩
    | some path => exact absurd hdepth (by simp [pathDepth])
  | some path =>
    cases parent' with
    | none => exact absurd hdepth (by simp [pathDepth])
    | some path' =>
      have hchars := congrArg String.toList h
      rw [toList_edgePath, toList_edgePath] at hchars
      obtain ⟨hpath, hlast⟩ := Text.append_last_inj hchars hkey hkey'
      exact ⟨congrArg some (String.toList_inj.1 hpath), String.toList_inj.1 hlast⟩

/-! ### Frontiers -/

/-- The nodes below a frontier. -/
def childNodes (frontier : List (Option String × IncludeTree)) :
    List (Option String × IncludeTree) :=
  frontier.flatMap fun node => node.2.children.map fun m => (some (edgePath node.1 m.1), m.2)

theorem mem_childNodes {frontier : List (Option String × IncludeTree)}
    {node : Option String × IncludeTree} :
    node ∈ childNodes frontier ↔ ∃ parent ∈ frontier, ∃ m ∈ parent.2.children,
      node = (some (edgePath parent.1 m.1), m.2) := by
  simp only [childNodes, List.mem_flatMap, List.mem_map, eq_comm]

theorem mem_edgesOf {frontier : List (Option String × IncludeTree)} {e : IncludeEdge} :
    e ∈ edgesOf frontier ↔ ∃ node ∈ frontier, ∃ m ∈ node.2.children,
      e = ⟨edgePath node.1 m.1, node.1, m.1, !m.2.isEmpty⟩ := by
  simp only [edgesOf, List.mem_flatMap, List.mem_map, eq_comm]

/-- The next frontier has the nodes below with edges of their own. -/
theorem nextFrontier_eq (frontier : List (Option String × IncludeTree)) :
    nextFrontier frontier = (childNodes frontier).filter fun node => !node.2.isEmpty := by
  simp only [nextFrontier, childNodes, List.filter_flatMap]
  refine congrArg (fun f => List.flatMap f frontier) (funext fun node => ?_)
  induction node.2.children with
  | nil => rfl
  | cons m rest ih =>
    rw [List.filterMap_cons, List.map_cons, List.filter_cons, ih]
    cases m.2.isEmpty <;> simp

theorem mem_nextFrontier {frontier : List (Option String × IncludeTree)}
    {node : Option String × IncludeTree} :
    node ∈ nextFrontier frontier ↔ node ∈ childNodes frontier ∧ node.2.isEmpty = false := by
  rw [nextFrontier_eq, List.mem_filter, Bool.not_eq_true']

/-- The paths of the edges are those of the nodes below. -/
theorem path_edgesOf (frontier : List (Option String × IncludeTree)) :
    (edgesOf frontier).map (fun e => some e.path) = (childNodes frontier).map Prod.fst := by
  simp only [edgesOf, childNodes, List.map_flatMap, List.map_map, Function.comp_def]

/-- **A frontier**: proper subtrees at different paths of one depth. -/
structure Apart (n : Nat) (frontier : List (Option String × IncludeTree)) : Prop where
  proper : ∀ node ∈ frontier, node.2.Proper
  depth : ∀ node ∈ frontier, pathDepth node.1 = n
  nodup : (frontier.map Prod.fst).Nodup

theorem apart_root {tree : IncludeTree} (h : tree.Proper) : Apart 0 [(none, tree)] where
  proper _ hnode := List.mem_singleton.1 hnode ▸ h
  depth _ hnode := List.mem_singleton.1 hnode ▸ rfl
  nodup := List.nodup_singleton _

namespace Apart

variable {n : Nat} {frontier : List (Option String × IncludeTree)}

theorem tail {node : Option String × IncludeTree} (h : Apart n (node :: frontier)) :
    Apart n frontier where
  proper _ hnode := h.proper _ (List.mem_cons_of_mem _ hnode)
  depth _ hnode := h.depth _ (List.mem_cons_of_mem _ hnode)
  nodup := (List.nodup_cons.1 h.nodup).2

/-- **No two nodes below a frontier** have one path. -/
theorem nodup_childNodes (h : Apart n frontier) : ((childNodes frontier).map Prod.fst).Nodup := by
  simp only [childNodes, List.map_flatMap, List.map_map, Function.comp_def]
  -- below one node the keys differ, and below two nodes the paths up to them
  refine List.nodup_flatMap.2 ⟨fun node hnode => ?_, ?_⟩
  · have hproper := h.proper node hnode
    refine List.Nodup.map_on (fun m hm m' hm' heq => ?_) hproper.sorted.nodup
    obtain ⟨-, hkey⟩ := edgePath_inj rfl (hproper.keys m hm) (hproper.keys m' hm')
      (Option.some.inj heq)
    exact hproper.sorted.eq_of_key hm hm' hkey
  · refine List.Pairwise.imp_of_mem ?_ (List.pairwise_map.1 h.nodup)
    intro node node' hnode hnode' hne
    refine List.disjoint_left.2 fun path hpath hpath' => ?_
    obtain ⟨m, hm, rfl⟩ := List.mem_map.1 hpath
    obtain ⟨m', hm', heq⟩ := List.mem_map.1 hpath'
    have hdepth := (h.depth node' hnode').trans (h.depth node hnode).symm
    exact hne (edgePath_inj hdepth ((h.proper node' hnode').keys m' hm')
      ((h.proper node hnode).keys m hm) (Option.some.inj heq)).1.symm

/-- The edges of a frontier have different paths. -/
theorem nodup_edgesOf (h : Apart n frontier) : ((edgesOf frontier).map (·.path)).Nodup := by
  refine List.Nodup.of_map some ?_
  rw [List.map_map]
  exact path_edgesOf frontier ▸ h.nodup_childNodes

/-- **The next frontier** is one level deeper. -/
theorem next (h : Apart n frontier) : Apart (n + 1) (nextFrontier frontier) where
  proper node hnode := by
    obtain ⟨hnode, -⟩ := mem_nextFrontier.1 hnode
    obtain ⟨parent, hparent, m, hm, rfl⟩ := mem_childNodes.1 hnode
    exact (h.proper parent hparent).subtrees m hm
  depth node hnode := by
    obtain ⟨hnode, -⟩ := mem_nextFrontier.1 hnode
    obtain ⟨parent, hparent, m, hm, rfl⟩ := mem_childNodes.1 hnode
    rw [pathDepth_edgePath ((h.proper parent hparent).keys m hm), h.depth parent hparent]
  nodup := by
    rw [nextFrontier_eq]
    exact h.nodup_childNodes.sublist (List.filter_sublist.map Prod.fst)

/-- The edges of a frontier are one level below it. -/
theorem depth_edge (h : Apart n frontier) {e : IncludeEdge} (he : e ∈ edgesOf frontier) :
    pathDepth e.parent = n ∧ pathDepth (some e.path) = n + 1 := by
  obtain ⟨node, hnode, m, hm, rfl⟩ := mem_edgesOf.1 he
  have hdepth := pathDepth_edgePath ((h.proper node hnode).keys m hm) node.1
  exact ⟨h.depth node hnode, hdepth.trans (by rw [h.depth node hnode])⟩

end Apart

end IncludeTree

end ObjectEngine
