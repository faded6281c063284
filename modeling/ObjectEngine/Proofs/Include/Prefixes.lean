import Mathlib.Data.List.Lex
import ObjectEngine.Proofs.Include.Paths

/-!
# An include tree is the prefix closure of its paths

A segment list is a path of a tree (`IncludeTree.HasPath`) if it leads from the root along edges.
Inserting a path adds its initial parts and no other (`IncludeTree.hasPath_insert`), and a tree
of segments in order is what its paths are (`IncludeTree.Proper.ext`). Hence the tree of a list
of paths depends on their initial parts only, and each of its levels lists those of one length in
lexicographic order (`IncludeTree.levels_ofPaths`).

The loop over frontiers extends paths at their ends, while the tree is read from the root; the
paths of one length are therefore listed by what stands below those one shorter
(`IncludeTree.pathsOf`).
-/

namespace ObjectEngine

namespace IncludeTree

variable {tree : IncludeTree} {paths : List String}

/-! ### Paths from the root -/

/-- **A path of a tree**: its segments lead from the root along edges. -/
def HasPath : List String → IncludeTree → Prop
  | [], _ => True
  | s :: rest, t => ∃ child, t.children.lookup s = some child ∧ HasPath rest child

/-- What stands below a path; nothing below a path that the tree has not. -/
def subtreeAt : List String → IncludeTree → IncludeTree
  | [], t => t
  | s :: rest, t => subtreeAt rest ((t.children.lookup s).getD empty)

@[simp] theorem hasPath_nil : HasPath [] tree := trivial

theorem hasPath_cons {s : String} {rest : List String} :
    HasPath (s :: rest) tree ↔ ∃ child, tree.children.lookup s = some child ∧
      HasPath rest child := Iff.rfl

theorem hasPath_empty {s : List String} : HasPath s empty ↔ s = [] := by
  cases s with
  | nil => simp
  | cons key rest => simp [hasPath_cons, empty, children]

@[simp] theorem subtreeAt_empty (s : List String) : subtreeAt s empty = empty := by
  induction s with
  | nil => rfl
  | cons key rest ih => exact ih

/-- A path goes on by what stands below it. -/
theorem hasPath_concat {s : List String} {key : String} :
    HasPath (s ++ [key]) tree ↔ ∃ child, (subtreeAt s tree).children.lookup key = some child := by
  induction s generalizing tree with
  | nil => simp [hasPath_cons, subtreeAt]
  | cons first rest ih =>
    rw [List.cons_append, hasPath_cons, subtreeAt]
    cases tree.children.lookup first with
    | none =>
      rw [Option.getD_none, subtreeAt_empty]
      simp [empty, children]
    | some child => simpa using ih

theorem subtreeAt_concat {s : List String} {key : String} :
    subtreeAt (s ++ [key]) tree = ((subtreeAt s tree).children.lookup key).getD empty := by
  induction s generalizing tree with
  | nil => rfl
  | cons first rest ih => exact ih

theorem HasPath.of_append {s rest : List String} (h : HasPath (s ++ rest) tree) :
    HasPath s tree := by
  induction s generalizing tree with
  | nil => exact hasPath_nil
  | cons key s ih =>
    obtain ⟨child, hchild, h⟩ := hasPath_cons.1 h
    exact hasPath_cons.2 ⟨child, hchild, ih h⟩

/-- A tree of segments has one below each path. -/
theorem Proper.subtreeAt (h : tree.Proper) (s : List String) :
    (IncludeTree.subtreeAt s tree).Proper := by
  induction s generalizing tree with
  | nil => exact h
  | cons key rest ih =>
    refine ih ?_
    cases hlookup : tree.children.lookup key with
    | none => exact Proper.empty
    | some child => exact h.subtrees _ (Members.mem_of_lookup hlookup)

/-- **Trees of segments** with the same paths are equal. -/
theorem Proper.ext {tree' : IncludeTree} (h : tree.Proper) (h' : tree'.Proper)
    (hpaths : ∀ s, HasPath s tree ↔ HasPath s tree') : tree = tree' := by
  induction h generalizing tree' with
  | @node members sorted _ _ ih =>
    obtain ⟨members'⟩ := tree'
    refine congrArg IncludeTree.node (sorted.ext h'.sorted fun key => ?_)
    have hkey := hpaths [key]
    simp only [hasPath_cons, hasPath_nil, and_true, children] at hkey
    cases hlookup : members.lookup key with
    | none =>
      cases hlookup' : members'.lookup key with
      | none => rfl
      | some child' => simp [hlookup, hlookup'] at hkey
    | some child =>
      obtain ⟨child', hlookup'⟩ := hkey.1 ⟨child, hlookup⟩
      have hchild := Members.mem_of_lookup hlookup
      have hchild' := h'.subtrees _ (Members.mem_of_lookup hlookup')
      have hrest := fun s => hpaths (key :: s)
      simp only [hasPath_cons, children, hlookup, hlookup', Option.some.injEq,
        exists_eq_left'] at hrest
      rw [hlookup']
      exact congrArg some (ih _ hchild hchild' hrest)

/-! ### Paths of a list -/

/-- **Inserting a path** adds its initial parts and no other. -/
theorem hasPath_insert {s segments : List String} :
    HasPath s (insert segments tree) ↔ HasPath s tree ∨ s <+: segments := by
  induction segments generalizing s tree with
  | nil =>
    refine ⟨Or.inl, fun h => h.elim id ?_⟩
    intro h
    exact List.prefix_nil.1 h ▸ hasPath_nil
  | cons first rest ih =>
    cases s with
    | nil => simp
    | cons key s =>
      rw [insert, hasPath_cons, hasPath_cons, children, Members.lookup_insert,
        List.cons_prefix_cons]
      by_cases hkey : key = first
      · subst hkey
        simp only [if_pos, Option.some.injEq, exists_eq_left', ih, true_and]
        cases tree.children.lookup key with
        | none =>
          rw [Option.getD_none, hasPath_empty]
          refine ⟨fun h => .inr (h.elim (fun h => h ▸ List.nil_prefix) id), fun h => .inr ?_⟩
          exact h.resolve_left fun ⟨_, hnone, _⟩ => absurd hnone (by simp)
        | some child => simp
      · simp [hkey]

/-- A path is refused if it has an empty segment; the others go in one after another. -/
theorem ofPaths_eq_ok : ofPaths paths = .ok tree ↔
    (∀ p ∈ paths, "" ∉ Text.split '.' p) ∧
      paths.foldl (fun t p => insert (Text.split '.' p) t) empty = tree := by
  have hany (p : String) :
      (Text.split '.' p).any String.isEmpty = true ↔ "" ∈ Text.split '.' p := by
    simp [List.any_eq_true, String.isEmpty_iff]
  simp only [ofPaths, hany]
  generalize empty = start
  induction paths generalizing start with
  | nil => simp [pure, Except.pure]
  | cons p rest ih =>
    rw [List.foldlM_cons, Outcome.bind_eq_ok, List.forall_mem_cons, List.foldl_cons]
    simp only [Outcome.refuse_eq_ok, Except.ok.injEq]
    constructor
    · rintro ⟨_, ⟨hp, rfl⟩, hrest⟩
      obtain ⟨hsegments, hfold⟩ := (ih _).1 hrest
      exact ⟨⟨hp, hsegments⟩, hfold⟩
    · rintro ⟨⟨hp, hsegments⟩, hfold⟩
      exact ⟨_, ⟨hp, rfl⟩, (ih _).2 ⟨hsegments, hfold⟩⟩

/-- **The paths of the tree of a list** are the initial parts of the listed ones. -/
theorem hasPath_ofPaths (h : ofPaths paths = .ok tree) {s : List String} :
    HasPath s tree ↔ s = [] ∨ ∃ p ∈ paths, s <+: Text.split '.' p := by
  obtain ⟨-, rfl⟩ := ofPaths_eq_ok.1 h
  clear h
  rw [← hasPath_empty]
  generalize empty = start
  induction paths generalizing start with
  | nil => simp
  | cons p rest ih =>
    rw [List.foldl_cons, ih, hasPath_insert, or_assoc]
    simp only [List.mem_cons, exists_eq_or_imp]

/-! ### The paths of one length -/

/-- The paths of `n` segments, in order. -/
def pathsOf (tree : IncludeTree) : Nat → List (List String)
  | 0 => [[]]
  | n + 1 => (pathsOf tree n).flatMap fun s => (subtreeAt s tree).children.map fun m => s ++ [m.1]

theorem mem_pathsOf (h : tree.Proper) {n : Nat} {s : List String} :
    s ∈ tree.pathsOf n ↔ s.length = n ∧ HasPath s tree := by
  induction n generalizing s with
  | zero =>
    rw [pathsOf, List.mem_singleton, List.length_eq_zero_iff]
    exact ⟨fun hs => ⟨hs, hs ▸ hasPath_nil⟩, fun hs => hs.1⟩
  | succ n ih =>
    simp only [pathsOf, List.mem_flatMap, List.mem_map]
    constructor
    · rintro ⟨s, hs, m, hm, rfl⟩
      have hlookup := (h.subtreeAt s).sorted.lookup_of_mem hm
      exact ⟨by simp [(ih.1 hs).1], hasPath_concat.2 ⟨_, hlookup⟩⟩
    · rintro ⟨hlength, hpath⟩
      obtain rfl | ⟨s, key, rfl⟩ := List.eq_nil_or_concat s
      · exact absurd hlength (by simp)
      rw [List.concat_eq_append] at hlength hpath ⊢
      obtain ⟨child, hchild⟩ := hasPath_concat.1 hpath
      have hs : s ∈ tree.pathsOf n := ih.2 ⟨by simpa using hlength, hpath.of_append⟩
      exact ⟨s, hs, _, Members.mem_of_lookup hchild, rfl⟩

/-- A list before another of its length stays before it with one more at their ends. -/
theorem concat_lt {s t : List String} (hlength : s.length = t.length) (h : s < t) (k l : String) :
    s ++ [k] < t ++ [l] := by
  induction s generalizing t with
  | nil =>
    obtain rfl := List.eq_nil_of_length_eq_zero hlength.symm
    exact absurd h (List.lt_irrefl [])
  | cons a s ih =>
    cases t with
    | nil => exact absurd hlength (by simp)
    | cons b t =>
      rcases List.cons_lt_cons_iff.1 h with hab | ⟨rfl, hst⟩
      · exact List.cons_lt_cons_iff.2 (.inl hab)
      · exact List.cons_lt_cons_iff.2 (.inr ⟨rfl, ih (by simpa using hlength) hst⟩)

/-- **The paths of one length** are listed in lexicographic order. -/
theorem increasing_pathsOf (h : tree.Proper) (n : Nat) : (tree.pathsOf n).Pairwise (· < ·) := by
  induction n with
  | zero => exact List.pairwise_singleton _ _
  | succ n ih =>
    refine List.pairwise_flatMap.2 ⟨fun s _ => ?_, ?_⟩
    · refine List.pairwise_map.2 ((h.subtreeAt s).sorted.imp fun hlt => ?_)
      exact List.append_left_lt (List.cons_lt_cons_iff.2 (.inl hlt))
    · refine ih.imp_of_mem fun hs ht hlt => ?_
      simp only [List.mem_map]
      rintro _ ⟨m, -, rfl⟩ _ ⟨m', -, rfl⟩
      have hlength := ((mem_pathsOf h).1 hs).1.trans ((mem_pathsOf h).1 ht).1.symm
      exact concat_lt hlength hlt _ _

/-! ### Levels -/

/-- A path is no longer than the tree is deep. -/
theorem HasPath.length_le {s : List String} (h : HasPath s tree) : s.length ≤ tree.depth := by
  induction s generalizing tree with
  | nil => exact Nat.zero_le _
  | cons key rest ih =>
    obtain ⟨child, hchild, hrest⟩ := hasPath_cons.1 h
    exact Nat.lt_of_le_of_lt (ih hrest) (depth_lt (Members.mem_of_lookup hchild))

theorem exists_depthOf_eq {children : List (String × IncludeTree)} (h : children ≠ []) :
    ∃ m ∈ children, depthOf children = 1 + m.2.depth := by
  induction children with
  | nil => exact absurd rfl h
  | cons first rest ih =>
    by_cases hrest : rest = []
    · subst hrest
      exact ⟨first, List.mem_cons_self, Nat.max_zero _⟩
    · obtain ⟨m, hm, hdepth⟩ := ih hrest
      rw [depthOf]
      rcases Nat.le_total (depthOf rest) (1 + first.2.depth) with hle | hle
      · exact ⟨first, List.mem_cons_self, Nat.max_eq_left hle⟩
      · exact ⟨m, List.mem_cons_of_mem _ hm, (Nat.max_eq_right hle).trans hdepth⟩

/-- Some path is as long as the tree is deep. -/
theorem Proper.exists_hasPath (h : tree.Proper) : ∃ s, s.length = tree.depth ∧ HasPath s tree := by
  induction h with
  | @node children sorted _ _ ih =>
    by_cases hchildren : children = []
    · subst hchildren
      exact ⟨[], rfl, hasPath_nil⟩
    · obtain ⟨m, hm, hdepth⟩ := exists_depthOf_eq hchildren
      obtain ⟨s, hlength, hs⟩ := ih m hm
      refine ⟨m.1 :: s, ?_, m.2, sorted.lookup_of_mem hm, hs⟩
      rw [List.length_cons, hlength, depth, hdepth, Nat.add_comm]

/-- The levels with edges are those up to the depth. -/
theorem pathsOf_ne_nil_iff (h : tree.Proper) (n : Nat) : tree.pathsOf n ≠ [] ↔ n ≤ tree.depth := by
  constructor
  · intro hne
    obtain ⟨s, hs⟩ := List.exists_mem_of_ne_nil _ hne
    obtain ⟨rfl, hpath⟩ := (mem_pathsOf h).1 hs
    exact hpath.length_le
  · intro hle
    obtain ⟨s, hlength, hs⟩ := h.exists_hasPath
    have htake : HasPath (s.take n) tree := by
      rw [← List.take_append_drop n s] at hs
      exact hs.of_append
    have hmem := (mem_pathsOf h).2 ⟨List.length_take_of_le (hlength ▸ hle), htake⟩
    exact List.ne_nil_of_mem hmem

/-- The path of the node below a segment list. -/
def joined : List String → Option String
  | [] => none
  | s => some (".".intercalate s)

/-- The edge that a segment list leads to. -/
def edgeOf (s : List String) (hasChildren : Bool) : IncludeEdge where
  path := ".".intercalate s
  parent := joined s.dropLast
  key := s.getLastD ""
  hasChildren := hasChildren

/-- The edge of a path. -/
def edgeAt (tree : IncludeTree) (s : List String) : IncludeEdge :=
  edgeOf s !(subtreeAt s tree).isEmpty

/-- The node below a path. -/
def nodeAt (tree : IncludeTree) (s : List String) : Option String × IncludeTree :=
  (joined s, subtreeAt s tree)

theorem edgePath_joined (s : List String) (key : String) :
    edgePath (joined s) key = ".".intercalate (s ++ [key]) := by
  cases s with
  | nil => rfl
  | cons first rest =>
    rw [String.intercalate_append_of_ne_nil (List.cons_ne_nil _ _) (List.cons_ne_nil _ _),
      String.intercalate_singleton]
    rfl

theorem joined_concat (s : List String) (key : String) :
    joined (s ++ [key]) = some (".".intercalate (s ++ [key])) := by
  cases s <;> rfl

/-- The nodes below those of one length are those of the next. -/
theorem childNodes_nodeAt (h : tree.Proper) (n : Nat) :
    childNodes ((tree.pathsOf n).map tree.nodeAt) = (tree.pathsOf (n + 1)).map tree.nodeAt := by
  rw [childNodes, pathsOf, List.flatMap_map, List.map_flatMap]
  refine congrArg (fun f => List.flatMap f _) (funext fun s => ?_)
  rw [List.map_map]
  refine List.map_congr_left fun m hm => ?_
  have hlookup := (h.subtreeAt s).sorted.lookup_of_mem hm
  dsimp only [Function.comp_apply, nodeAt]
  rw [edgePath_joined, joined_concat, subtreeAt_concat, hlookup, Option.getD_some]

/-- The edges of those nodes are those of the paths one longer. -/
theorem edgesOf_nodeAt (h : tree.Proper) (n : Nat) :
    edgesOf ((tree.pathsOf n).map tree.nodeAt) = (tree.pathsOf (n + 1)).map tree.edgeAt := by
  rw [edgesOf, pathsOf, List.flatMap_map, List.map_flatMap]
  refine congrArg (fun f => List.flatMap f _) (funext fun s => ?_)
  rw [List.map_map]
  refine List.map_congr_left fun m hm => ?_
  have hlookup := (h.subtreeAt s).sorted.lookup_of_mem hm
  dsimp only [Function.comp_apply, nodeAt, edgeAt, edgeOf]
  rw [edgePath_joined, subtreeAt_concat, hlookup, Option.getD_some, List.dropLast_concat,
    List.getLastD_concat]

/-- Nodes without edges of their own add nothing to a frontier. -/
theorem flatMap_filter_nonempty {β : Type} (f : Option String × IncludeTree → List β)
    (hf : ∀ node, node.2.isEmpty = true → f node = [])
    (frontier : List (Option String × IncludeTree)) :
    (frontier.filter fun node => !node.2.isEmpty).flatMap f = frontier.flatMap f := by
  induction frontier with
  | nil => rfl
  | cons node rest ih =>
    cases hempty : node.2.isEmpty with
    | true => rw [List.filter_cons_of_neg (by simp [hempty]), List.flatMap_cons, hf node hempty, ih,
        List.nil_append]
    | false => rw [List.filter_cons_of_pos (by simp [hempty]), List.flatMap_cons, List.flatMap_cons,
        ih]

theorem levelsFrom_filter (depth : Nat) (frontier : List (Option String × IncludeTree)) :
    levelsFrom depth (frontier.filter fun node => !node.2.isEmpty) = levelsFrom depth frontier := by
  have hnone (node : Option String × IncludeTree) (h : node.2.isEmpty = true) :
      node.2.children = [] := List.isEmpty_iff.1 h
  cases depth with
  | zero => rfl
  | succ depth =>
    rw [levelsFrom, levelsFrom, nextFrontier_eq, nextFrontier_eq, edgesOf, edgesOf, childNodes,
      childNodes, flatMap_filter_nonempty _ fun node h => by simp [hnone node h],
      flatMap_filter_nonempty _ fun node h => by simp [hnone node h]]

/-- **The loop over frontiers** lists the edges of the paths one length after another. -/
theorem levelsFrom_nodeAt (h : tree.Proper) (depth n : Nat) :
    levelsFrom depth ((tree.pathsOf n).map tree.nodeAt) =
      (List.range depth).map fun k => (tree.pathsOf (n + 1 + k)).map tree.edgeAt := by
  induction depth generalizing n with
  | zero => rfl
  | succ depth ih =>
    rw [levelsFrom, edgesOf_nodeAt h, nextFrontier_eq, levelsFrom_filter, childNodes_nodeAt h, ih,
      List.range_succ_eq_map, List.map_cons, List.map_map]
    refine congrArg (_ :: ·) (List.map_congr_left fun k _ => ?_)
    rw [Function.comp_apply, show n + 1 + 1 + k = n + 1 + (k + 1) by omega]

theorem levels_eq (h : tree.Proper) : tree.levels =
    (List.range tree.depth).map fun k => (tree.pathsOf (k + 1)).map tree.edgeAt := by
  rw [levels, show [(none, tree)] = (tree.pathsOf 0).map tree.nodeAt from rfl, levelsFrom_nodeAt h]
  refine List.map_congr_left fun k _ => ?_
  rw [Nat.zero_add, Nat.add_comm]

/-! ### Trees of listed paths -/

/-- **The initial parts** of `n` segments of listed paths, each once, in lexicographic order. -/
structure Prefixes (paths : List String) (n : Nat) (parts : List (List String)) : Prop where
  increasing : parts.Pairwise (· < ·)
  mem_iff : ∀ s, s ∈ parts ↔ s.length = n ∧ ∃ p ∈ paths, s <+: Text.split '.' p

/-- A listed path goes on after `s`. -/
def Extended (paths : List String) (s : List String) : Prop :=
  ∃ p ∈ paths, s <+: Text.split '.' p ∧ s ≠ Text.split '.' p

instance (paths : List String) (s : List String) : Decidable (Extended paths s) :=
  inferInstanceAs (Decidable (∃ p ∈ paths, s <+: Text.split '.' p ∧ s ≠ Text.split '.' p))

theorem prefixes_pathsOf (h : ofPaths paths = .ok tree) (n : Nat) :
    Prefixes paths (n + 1) (tree.pathsOf (n + 1)) where
  increasing := increasing_pathsOf (Proper.of_ofPaths h) _
  mem_iff s := by
    rw [mem_pathsOf (Proper.of_ofPaths h), hasPath_ofPaths h]
    refine and_congr_right fun hlength => or_iff_right ?_
    rintro rfl
    exact absurd hlength (by simp)

/-- **Edges lead on** from where a listed path goes on. -/
theorem isEmpty_subtreeAt (h : ofPaths paths = .ok tree) (s : List String) :
    (!(subtreeAt s tree).isEmpty) = decide (Extended paths s) := by
  have hproper := (Proper.of_ofPaths h).subtreeAt s
  rw [Bool.eq_iff_iff, decide_eq_true_iff, Bool.not_eq_true', isEmpty]
  constructor
  · intro hne
    obtain ⟨m, hm⟩ := List.exists_mem_of_ne_nil _ (List.isEmpty_eq_false_iff.1 hne)
    have hpath := hasPath_concat.2 ⟨_, hproper.sorted.lookup_of_mem hm⟩
    obtain hnil | ⟨p, hp, rest, hrest⟩ := (hasPath_ofPaths h).1 hpath
    · exact absurd hnil (by simp)
    · refine ⟨p, hp, ⟨m.1 :: rest, by simpa using hrest⟩, fun heq => ?_⟩
      exact absurd (congrArg List.length (hrest.trans heq.symm)) (by simp)
  · rintro ⟨p, hp, ⟨rest, hrest⟩, hne⟩
    cases rest with
    | nil => exact absurd ((List.append_nil s).symm.trans hrest) hne
    | cons key rest =>
      have hpath : HasPath (s ++ [key]) tree :=
        (hasPath_ofPaths h).2 (.inr ⟨p, hp, rest, by simpa using hrest⟩)
      obtain ⟨child, hchild⟩ := hasPath_concat.1 hpath
      exact List.isEmpty_eq_false_iff.2 (List.ne_nil_of_mem (Members.mem_of_lookup hchild))

/-- The edges of a level, by their initial parts. -/
theorem getD_levels (h : ofPaths paths = .ok tree) (k : Nat) : tree.levels.getD k [] =
    (tree.pathsOf (k + 1)).map fun s => edgeOf s (decide (Extended paths s)) := by
  have hproper := Proper.of_ofPaths h
  have hedges : (tree.pathsOf (k + 1)).map tree.edgeAt =
      (tree.pathsOf (k + 1)).map fun s => edgeOf s (decide (Extended paths s)) :=
    List.map_congr_left fun s _ => by rw [edgeAt, isEmpty_subtreeAt h]
  rw [← hedges, levels_eq hproper, List.getD_eq_getElem?_getD, List.getElem?_map]
  by_cases hk : k < tree.depth
  · rw [List.getElem?_range hk]
    rfl
  · -- beyond the last level there is no path
    have hnil : tree.pathsOf (k + 1) = [] :=
      not_ne_iff.1 fun hne => hk ((pathsOf_ne_nil_iff hproper _).1 hne)
    rw [List.getElem?_eq_none (by simpa using hk), hnil]
    rfl

/-- **The initial parts of the paths** make the tree. -/
theorem ofPaths_eq_of_prefixes {more : List String} (h : ofPaths paths = .ok tree)
    (hsub : ∀ p ∈ paths, ∃ q ∈ more, Text.split '.' p <+: Text.split '.' q)
    (hsup : ∀ q ∈ more, ∃ p ∈ paths, Text.split '.' q <+: Text.split '.' p) :
    ofPaths more = .ok tree := by
  obtain ⟨hsegments, -⟩ := ofPaths_eq_ok.1 h
  have hmore : ∀ q ∈ more, "" ∉ Text.split '.' q := by
    intro q hq hempty
    obtain ⟨p, hp, hinitial⟩ := hsup q hq
    exact hsegments p hp (hinitial.subset hempty)
  have hok := ofPaths_eq_ok.2 ⟨hmore, rfl⟩
  rw [hok]
  refine congrArg Except.ok ((Proper.of_ofPaths hok).ext (Proper.of_ofPaths h) fun s => ?_)
  rw [hasPath_ofPaths hok, hasPath_ofPaths h]
  refine or_congr_right ⟨?_, ?_⟩
  · rintro ⟨q, hq, hs⟩
    obtain ⟨p, hp, hinitial⟩ := hsup q hq
    exact ⟨p, hp, hs.trans hinitial⟩
  · rintro ⟨p, hp, hs⟩
    obtain ⟨q, hq, hinitial⟩ := hsub p hp
    exact ⟨q, hq, hs.trans hinitial⟩

/-- A list of paths is refused if one of them has an empty segment. -/
theorem ofPaths_eq_error_iff :
    (∃ e, ofPaths paths = .error e) ↔ ∃ p ∈ paths, "" ∈ Text.split '.' p := by
  constructor
  · rintro ⟨e, he⟩
    refine Decidable.byContradiction fun hnone => ?_
    have hok := ofPaths_eq_ok.2 ⟨fun p hp hempty => hnone ⟨p, hp, hempty⟩, rfl⟩
    rw [he] at hok
    exact absurd hok (by simp)
  · rintro ⟨p, hp, hempty⟩
    cases hof : ofPaths paths with
    | error e => exact ⟨e, rfl⟩
    | ok tree => exact absurd hempty ((ofPaths_eq_ok.1 hof).1 p hp)

/-- **An include tree is the prefix closure of its paths.** A list of paths is refused if and only
if one of them has an empty segment. Otherwise there are as many levels as the tree is deep, and
the level after `k` others lists the initial parts of `k + 1` segments, each once and in
lexicographic order: an edge has the joined part as its path, its last segment as its key, the
joined part one shorter as its parent, and edges below it if some path goes on. Lists of paths
with the same initial parts make the same tree. -/
theorem levels_ofPaths (paths : List String) :
    ((∃ e, ofPaths paths = .error e) ↔ ∃ p ∈ paths, "" ∈ Text.split '.' p) ∧
      ∀ tree, ofPaths paths = .ok tree →
        tree.levels.length = tree.depth ∧
        (∀ k, ∃ parts, Prefixes paths (k + 1) parts ∧ (parts ≠ [] ↔ k < tree.depth) ∧
          tree.levels.getD k [] = parts.map fun s => edgeOf s (decide (Extended paths s))) ∧
        ∀ more : List String,
          (∀ p ∈ paths, ∃ q ∈ more, Text.split '.' p <+: Text.split '.' q) →
          (∀ q ∈ more, ∃ p ∈ paths, Text.split '.' q <+: Text.split '.' p) →
          ofPaths more = .ok tree := by
  refine ⟨ofPaths_eq_error_iff, fun tree h => ⟨?_, fun k => ?_, fun more hsub hsup => ?_⟩⟩
  · rw [levels_eq (Proper.of_ofPaths h), List.length_map, List.length_range]
  · exact ⟨_, prefixes_pathsOf h k, pathsOf_ne_nil_iff (Proper.of_ofPaths h) _, getD_levels h k⟩
  · exact ofPaths_eq_of_prefixes h hsub hsup

/-- Three paths, of which two share a segment, and the same with a repeated path and a part. -/
theorem levels_ofPaths_shared : ∃ tree, ofPaths ["b.d.e", "a", "b.c"] = .ok tree ∧
    tree.levels.length = tree.depth ∧
    (∃ parts, Prefixes ["b.d.e", "a", "b.c"] 2 parts ∧ (parts ≠ [] ↔ 1 < tree.depth) ∧
      tree.levels.getD 1 [] =
        parts.map fun s => edgeOf s (decide (Extended ["b.d.e", "a", "b.c"] s))) ∧
    tree.levels.getD 1 [] =
      [⟨"b.c", some "b", "c", false⟩, ⟨"b.d", some "b", "d", true⟩] ∧
    ofPaths ["a", "b.c", "b.d", "b.d.e", "a"] = .ok tree := by
  obtain ⟨tree, h⟩ : ∃ tree, ofPaths ["b.d.e", "a", "b.c"] = .ok tree := ⟨_, rfl⟩
  obtain ⟨hlength, hlevels, hmore⟩ := (levels_ofPaths ["b.d.e", "a", "b.c"]).2 tree h
  refine ⟨tree, h, hlength, hlevels 1, ?_, hmore _ (by decide) (by decide)⟩
  obtain rfl := Except.ok.inj h
  rfl

end IncludeTree

end ObjectEngine
