import ObjectEngine.Proofs.Include.Levels

/-!
# Putting objects in place

Splicing goes through the levels from the deepest one up, edge by edge. An edge changes the
documents at one place only (`Includes.spliceEdge_eq`), the edges of a node together expand its
documents (`Includes.foldl_edgesAt`), and the nodes of a frontier do not touch one another's
(`Includes.foldl_edgesOf`). Hence, when a level starts, the objects that it copies are expanded
already: `Includes.expanded_levelsFrom` says of all levels below a frontier that they make of the
documents at its nodes what `ObjectGraph.expand` makes of them.
-/

namespace ObjectEngine

namespace Includes

open IncludeTree ObjectGraph

variable {g : ObjectGraph}

/-! ### One place -/

/-- Changes the objects that were reached. -/
def Reached.mapObjects (f : Document → Document) (r : Reached) : Reached :=
  { r with objects := Members.mapValues f r.objects }

/-- **Changes the documents at one place**: the results, or what was reached along a path. -/
def onDocs (f : Document → Document) (parent : Option String) (state : List Document × Pool) :
    List Document × Pool :=
  match parent with
  | none => (state.1.map f, state.2)
  | some path => (state.1, Members.adjust path (Reached.mapObjects f) state.2)

/-- An edge changes the documents it starts from. -/
theorem spliceEdge_eq (state : List Document × Pool) (edge : IncludeEdge) :
    spliceEdge state edge =
      onDocs (spliceDocument (reachedAt state.2 edge.path) edge.key) edge.parent state := by
  rw [spliceEdge]
  cases edge.parent <;> rfl

variable {f h : Document → Document} {parent : Option String} {state : List Document × Pool}

theorem onDocs_onDocs (f h : Document → Document) (parent : Option String)
    (state : List Document × Pool) :
    onDocs f parent (onDocs h parent state) = onDocs (f ∘ h) parent state := by
  cases parent with
  | none => exact congrArg (fun docs => (docs, state.2)) (List.map_map ..)
  | some path =>
    suffices Members.adjust path (Reached.mapObjects f)
        (Members.adjust path (Reached.mapObjects h) state.2) =
          Members.adjust path (Reached.mapObjects (f ∘ h)) state.2 from
      congrArg (fun pool => (state.1, pool)) this
    rw [Members.adjust, Members.adjust, List.map_map, Members.adjust]
    refine List.map_congr_left fun m _ => ?_
    by_cases hm : m.1 = path
    · simp [hm, Reached.mapObjects, Members.mapValues]
    · simp [hm]

theorem reachedAt_onDocs (f : Document → Document) (path : String)
    (state : List Document × Pool) :
    reachedAt (onDocs f (some path) state).2 path = (reachedAt state.2 path).mapObjects f := by
  rw [reachedAt, onDocs, Members.lookup_adjust, if_pos rfl, reachedAt]
  cases state.2.lookup path <;> rfl

theorem reachedAt_onDocs_of_ne {path : String} (hne : parent ≠ some path) :
    reachedAt (onDocs f parent state).2 path = reachedAt state.2 path := by
  cases parent with
  | none => rfl
  | some path' =>
    have hpath : path ≠ path' := fun he => hne (congrArg some he.symm)
    rw [reachedAt, onDocs, Members.lookup_adjust, if_neg hpath, reachedAt]

theorem sorted_onDocs (hs : Members.Sorted state.2) :
    Members.Sorted (onDocs f parent state).2 := by
  cases parent with
  | none => exact hs
  | some path => exact Members.sorted_adjust hs _ _

/-- Changes that agree on the documents at a place change it in the same way. -/
theorem onDocs_congr (hs : Members.Sorted state.2)
    (hagree : ∀ d ∈ docsAt state.1 state.2 parent, f d = h d) :
    onDocs f parent state = onDocs h parent state := by
  cases parent with
  | none => exact congrArg (fun docs => (docs, state.2)) (List.map_congr_left hagree)
  | some path =>
    refine congrArg (fun pool => (state.1, pool)) (List.map_congr_left fun m hm => ?_)
    by_cases hpath : m.1 = path
    · have hreached : reachedAt state.2 path = m.2 := by
        rw [reachedAt, hs.lookup_of_mem (show (path, m.2) ∈ _ from hpath ▸ hm), Option.getD_some]
      have hobjects : Members.mapValues f m.2.objects = Members.mapValues h m.2.objects := by
        refine List.map_congr_left fun o ho => Prod.ext rfl (hagree o.2 ?_)
        rw [docsAt, hreached]
        exact List.mem_map_of_mem ho
      simp [hpath, Reached.mapObjects, hobjects]
    · simp [hpath]

theorem mapObjects_id (r : Reached) : r.mapObjects id = r := by
  rw [Reached.mapObjects, Members.mapValues]
  exact congrArg (fun objects => Reached.mk objects r.links) (List.map_id' _)

theorem onDocs_id (parent : Option String) (state : List Document × Pool) :
    onDocs id parent state = state := by
  cases parent with
  | none => exact congrArg (fun docs => (docs, state.2)) (List.map_id _)
  | some path =>
    refine congrArg (fun pool => (state.1, pool)) ?_
    rw [Members.adjust]
    simp only [mapObjects_id, ite_self, List.map_id']

/-! ### One document -/

theorem splice_eq (objects : Members Document) (links : Option (List Pointer)) (v : Value) :
    splice objects links v =
      placed (fun p => objects.lookup (Stored.pointerKey p)) (fun _ => links.getD []) v := by
  cases v <;> rfl

/-- What is put in place depends on what a value refers to. -/
theorem placed_congr {object? object?' : Pointer → Option Document}
    {related related' : String → List Pointer} {v : Value}
    (hobjects : ∀ p ∈ pointersOf v, object? p = object?' p)
    (hrelated : ∀ target, v = .relation target → related target = related' target ∧
      ∀ p ∈ related' target, object? p = object?' p) :
    placed object? related v = placed object?' related' v := by
  cases v with
  | pointer p => exact congrArg standIn (hobjects p (List.mem_singleton_self p))
  | array items =>
    refine congrArg Value.array (List.map_congr_left fun item hitem => ?_)
    cases item with
    | pointer p => exact congrArg standIn (hobjects p (List.mem_filterMap.2 ⟨_, hitem, rfl⟩))
    | _ => rfl
  | relation target =>
    obtain ⟨hlinks, hobjects⟩ := hrelated target rfl
    refine congrArg Value.array ?_
    rw [hlinks]
    exact List.filterMap_congr fun p hp => by rw [hobjects p hp]
  | _ => rfl

/-- **One more field** of a document gets its objects in place. -/
theorem spliceDocument_follow {reached : Reached} {key : String} {way : Document → Document}
    {d : Document} (hd : Followed g (fun p => (g.object? p).map way) reached key d)
    {ways : List (String × (Document → Document))}
    (hways : ways.lookup key = none) :
    spliceDocument reached key (g.follow ways d) = g.follow (ways ++ [(key, way)]) d := by
  have hvalue {v : Value} (hv : d.fields.lookup key = some v) :
      splice reached.objects (reached.links.lookup (keyOf d)) v =
        placed (fun p => (g.object? p).map way) (g.related d key) v := by
    rw [splice_eq]
    refine placed_congr (fun p hp => ?_) ?_
    · refine hd.objects p ?_
      rw [references, hv]
      cases v with
      | relation => exact absurd hp List.not_mem_nil
      | _ => exact hp
    · rintro target rfl
      refine ⟨hd.links target hv, fun p hp => hd.objects p ?_⟩
      rw [references, hv]
      exact hp
  suffices (g.follow ways d).fields.map (fun m => if m.1 = key then
      (m.1, splice reached.objects (reached.links.lookup (keyOf d)) m.2) else m) =
        (g.follow (ways ++ [(key, way)]) d).fields from
    congrArg (fun fields => ({ d with fields } : Document)) this
  rw [follow, follow, List.map_map]
  refine List.map_congr_left fun m hm => ?_
  by_cases hkey : m.1 = key
  · subst hkey
    simp [List.lookup_append, hways, hvalue (hd.sorted.lookup_of_mem hm)]
  · have hother : (ways ++ [(key, way)]).lookup m.1 = ways.lookup m.1 := by
      rw [List.lookup_append, Members.lookup_cons, if_neg hkey, List.lookup_nil, Option.or_none]
    simp [hkey, hother]

/-! ### One node -/

theorem expand_eq (g : ObjectGraph) (t : IncludeTree) :
    g.expand t = g.follow (g.expandAll t.children) := by
  cases t
  rfl

/-- The edges that leave one node. -/
def edgesAt (parent : Option String) (children : List (String × IncludeTree)) :
    List IncludeEdge :=
  children.map fun m => ⟨edgePath parent m.1, parent, m.1, !m.2.isEmpty⟩

/-- **The edges of one node** put the objects of its fields in place, one after another. -/
theorem foldl_edgesAt {children : List (String × IncludeTree)}
    (hchildren : Members.Sorted children) (hs : Members.Sorted state.2)
    (hpath : ∀ m ∈ children, parent ≠ some (edgePath parent m.1))
    (hfollowed : ∀ m ∈ children, ∀ d ∈ docsAt state.1 state.2 parent,
      Followed g (fun p => (g.object? p).map (g.expand m.2))
        (reachedAt state.2 (edgePath parent m.1)) m.1 d) :
    (edgesAt parent children).foldl spliceEdge state =
      onDocs (g.follow (g.expandAll children)) parent state := by
  -- generalized to the ways of the fields that are followed already
  suffices ∀ ways : List (String × (Document → Document)),
      (∀ m ∈ children, ways.lookup m.1 = none) →
      (edgesAt parent children).foldl spliceEdge (onDocs (g.follow ways) parent state) =
        onDocs (g.follow (ways ++ g.expandAll children)) parent state by
    have hstart := this [] fun _ _ => rfl
    rwa [show g.follow [] = id from funext (follow_nil g), onDocs_id] at hstart
  induction children with
  | nil =>
    intro ways _
    rw [expandAll, List.append_nil]
    rfl
  | cons m rest ih =>
    intro ways hways
    obtain ⟨hfirst, hrest⟩ := List.pairwise_cons.1 hchildren
    have hstep : spliceEdge (onDocs (g.follow ways) parent state)
        ⟨edgePath parent m.1, parent, m.1, !m.2.isEmpty⟩ =
          onDocs (g.follow (ways ++ [(m.1, g.expand m.2)])) parent state := by
      rw [spliceEdge_eq, reachedAt_onDocs_of_ne (hpath m List.mem_cons_self), onDocs_onDocs]
      exact onDocs_congr hs fun d hd => spliceDocument_follow
        (hfollowed m List.mem_cons_self d hd) (hways m List.mem_cons_self)
    rw [edgesAt, List.map_cons, List.foldl_cons, hstep, ← edgesAt, expandAll,
      List.append_cons ways _ (g.expandAll rest)]
    refine ih hrest (fun m hm => hpath m (List.mem_cons_of_mem _ hm))
      (fun m hm => hfollowed m (List.mem_cons_of_mem _ hm)) _ fun m' hm' => ?_
    rw [List.lookup_append, hways m' (List.mem_cons_of_mem _ hm'), Option.none_or,
      Members.lookup_cons, if_neg fun he => String.lt_irrefl _ (he ▸ hfirst m' hm')]
    rfl

/-! ### One level -/

/-- Two states with the same documents at a place. -/
def Same (parent : Option String) (state state' : List Document × Pool) : Prop :=
  match parent with
  | none => state.1 = state'.1
  | some path => reachedAt state.2 path = reachedAt state'.2 path

namespace Same

variable {state' state'' : List Document × Pool}

theorem refl (parent : Option String) (state : List Document × Pool) :
    Same parent state state := by
  cases parent <;> rfl

theorem trans (h : Same parent state state') (h' : Same parent state' state'') :
    Same parent state state'' := by
  cases parent with
  | none => exact Eq.trans (h : state.1 = state'.1) h'
  | some path =>
    exact Eq.trans (h : reachedAt state.2 path = reachedAt state'.2 path) h'

theorem docsAt (h : Same parent state state') :
    Includes.docsAt state.1 state.2 parent = Includes.docsAt state'.1 state'.2 parent := by
  cases parent with
  | none => exact h
  | some path => exact congrArg (fun r => Members.values r.objects) h

/-- Other places stay the same. -/
theorem of_ne {parent' : Option String} (hne : parent ≠ parent') :
    Same parent' (onDocs f parent state) state := by
  cases parent' with
  | none =>
    cases parent with
    | none => exact absurd rfl hne
    | some path => exact (rfl : state.1 = state.1)
  | some path => exact reachedAt_onDocs_of_ne hne

theorem onDocs (h : Same parent state state') :
    Same parent (onDocs f parent state) (Includes.onDocs f parent state') := by
  cases parent with
  | none => exact congrArg (List.map f) (h : state.1 = state'.1)
  | some path =>
    refine (reachedAt_onDocs f path state).trans (Eq.trans ?_ (reachedAt_onDocs f path state').symm)
    exact congrArg (Reached.mapObjects f) h

end Same

/-- The documents at the nodes of a frontier, expanded along their subtrees. -/
def expandNodes (g : ObjectGraph) (frontier : List (Option String × IncludeTree))
    (state : List Document × Pool) : List Document × Pool :=
  frontier.foldl (fun state node => onDocs (g.expand node.2) node.1 state) state

variable {n : Nat} {frontier : List (Option String × IncludeTree)}

theorem sorted_expandNodes (hs : Members.Sorted state.2) :
    Members.Sorted (expandNodes g frontier state).2 :=
  List.foldlRecOn (motive := fun state : List Document × Pool => Members.Sorted state.2)
    frontier _ hs fun _ hs _ _ => sorted_onDocs hs

/-- Places that are no nodes of the frontier stay the same. -/
theorem same_expandNodes_of_ne (h : ∀ node ∈ frontier, node.1 ≠ parent) :
    Same parent (expandNodes g frontier state) state := by
  induction frontier generalizing state with
  | nil => exact .refl parent state
  | cons node rest ih =>
    obtain ⟨hfirst, hrest⟩ := List.forall_mem_cons.1 h
    exact (ih hrest).trans (.of_ne hfirst)

/-- **Each node** is expanded on its own. -/
theorem same_expandNodes (hnodup : (frontier.map Prod.fst).Nodup)
    {node : Option String × IncludeTree} (hnode : node ∈ frontier) :
    Same node.1 (expandNodes g frontier state) (onDocs (g.expand node.2) node.1 state) := by
  induction frontier generalizing state with
  | nil => exact absurd hnode List.not_mem_nil
  | cons first rest ih =>
    obtain ⟨hfirst, hrest⟩ := List.nodup_cons.1 hnodup
    rcases List.mem_cons.1 hnode with rfl | hnode
    · have hother : ∀ other ∈ rest, other.1 ≠ node.1 :=
        fun other hother heq => hfirst (heq ▸ List.mem_map_of_mem hother)
      exact same_expandNodes_of_ne hother
    · have hne : first.1 ≠ node.1 := fun heq => hfirst (heq ▸ List.mem_map_of_mem hnode)
      exact (ih hrest hnode).trans (.onDocs (.of_ne hne))

/-- **The edges of a frontier** expand the documents at its nodes, if the objects of the level
below are expanded. -/
theorem foldl_edgesOf (hapart : Apart n frontier) (hs : Members.Sorted state.2)
    (hfollowed : ∀ node ∈ frontier, ∀ m ∈ node.2.children, ∀ d ∈ docsAt state.1 state.2 node.1,
      Followed g (fun p => (g.object? p).map (g.expand m.2))
        (reachedAt state.2 (edgePath node.1 m.1)) m.1 d) :
    (edgesOf frontier).foldl spliceEdge state = expandNodes g frontier state := by
  induction frontier generalizing state with
  | nil => rfl
  | cons node rest ih =>
    have hproper := hapart.proper node List.mem_cons_self
    have hdepth := hapart.depth node List.mem_cons_self
    have hbelow {node' : Option String × IncludeTree} (hnode' : node' ∈ node :: rest)
        {m : String × IncludeTree} (hm : m ∈ node'.2.children) :
        node.1 ≠ some (edgePath node'.1 m.1) := by
      intro heq
      have hpath := pathDepth_edgePath ((hapart.proper node' hnode').keys m hm) node'.1
      rw [← heq, hdepth, hapart.depth node' hnode'] at hpath
      omega
    have hnode : (edgesAt node.1 node.2.children).foldl spliceEdge state =
        onDocs (g.expand node.2) node.1 state := by
      rw [foldl_edgesAt hproper.sorted hs (fun m hm => hbelow List.mem_cons_self hm)
        (hfollowed node List.mem_cons_self), expand_eq]
    have hdocs {node' : Option String × IncludeTree} (hnode' : node' ∈ rest) :
        docsAt (onDocs (g.expand node.2) node.1 state).1
          (onDocs (g.expand node.2) node.1 state).2 node'.1 = docsAt state.1 state.2 node'.1 := by
      refine (Same.of_ne fun heq => ?_).docsAt
      exact (List.nodup_cons.1 hapart.nodup).1 (heq ▸ List.mem_map_of_mem hnode')
    change (edgesAt node.1 node.2.children ++ edgesOf rest).foldl spliceEdge state = _
    rw [List.foldl_append, hnode, expandNodes, List.foldl_cons, ← expandNodes]
    refine ih hapart.tail (sorted_onDocs hs) fun node' hnode' m hm => ?_
    have hmem := List.mem_cons_of_mem node hnode'
    rw [hdocs hnode', reachedAt_onDocs_of_ne (hbelow hmem hm)]
    exact hfollowed node' hmem m hm

/-! ### All levels -/

/-- **What the levels below a frontier make of a state**: the documents at its nodes are expanded,
and those at other places so deep or higher are as they were. -/
structure Expanded (g : ObjectGraph) (n : Nat) (frontier : List (Option String × IncludeTree))
    (state state' : List Document × Pool) : Prop where
  pool : Members.Sorted state'.2
  nodes : ∀ node ∈ frontier, Same node.1 state' (onDocs (g.expand node.2) node.1 state)
  others : ∀ parent, pathDepth parent ≤ n → (∀ node ∈ frontier, node.1 ≠ parent) →
    Same parent state' state

/-- A document is followed to expanded objects, once those are expanded. -/
theorem Followed.expanded {reached : Reached} {key : String} {d : Document}
    (h : Followed g g.object? reached key d) (way : Document → Document) :
    Followed g (fun p => (g.object? p).map way) (reached.mapObjects way) key d where
  sorted := h.sorted
  objects p hp := by rw [Reached.mapObjects, Members.lookup_mapValues, h.objects p hp]
  links := h.links

/-- With the levels below done, the objects along an edge are expanded. -/
theorem Expanded.reachedAt_edge (hapart : Apart n frontier) {state' : List Document × Pool}
    (h : Expanded g (n + 1) (nextFrontier frontier) state state')
    {node : Option String × IncludeTree} (hnode : node ∈ frontier) {m : String × IncludeTree}
    (hm : m ∈ node.2.children) :
    reachedAt state'.2 (edgePath node.1 m.1) =
      (reachedAt state.2 (edgePath node.1 m.1)).mapObjects (g.expand m.2) := by
  have hchild : (some (edgePath node.1 m.1), m.2) ∈ childNodes frontier :=
    mem_childNodes.2 ⟨node, hnode, m, hm, rfl⟩
  -- a node without edges of its own is not in the next frontier, and nothing is to be done there
  cases hempty : m.2.isEmpty with
  | false =>
    have hsame := h.nodes _ (mem_nextFrontier.2 ⟨hchild, hempty⟩)
    exact Eq.trans hsame (reachedAt_onDocs ..)
  | true =>
    have hsame : Same (some (edgePath node.1 m.1)) state' state := by
      refine h.others _ ?_ fun other hother heq => ?_
      · exact Nat.le_of_eq (hapart.depth_edge (mem_edgesOf.2 ⟨node, hnode, m, hm, rfl⟩)).2
      · obtain ⟨hother, hother'⟩ := mem_nextFrontier.1 hother
        obtain rfl := List.inj_on_of_nodup_map hapart.nodup_childNodes hother hchild heq
        exact absurd (hempty.symm.trans hother') (by simp)
    rw [expand_of_isEmpty g hempty, mapObjects_id]
    exact hsame

/-- **From the deepest level up**, everything is expanded. -/
theorem expanded_levelsFrom (hapart : Apart n frontier) {depth : Nat}
    (hdepth : ∀ node ∈ frontier, node.2.depth ≤ depth) (hs : Members.Sorted state.2)
    (hfollowed : ∀ edge ∈ (levelsFrom depth frontier).flatten,
      ∀ d ∈ docsAt state.1 state.2 edge.parent,
        Followed g g.object? (reachedAt state.2 edge.path) edge.key d) :
    Expanded g n frontier state
      ((levelsFrom depth frontier).reverse.flatten.foldl spliceEdge state) := by
  induction depth generalizing n frontier with
  | zero =>
    refine ⟨hs, fun node hnode => ?_, fun parent _ _ => .refl parent state⟩
    have hempty : node.2.isEmpty = true := by
      by_contra hchildren
      obtain ⟨m, hm⟩ := List.exists_mem_of_ne_nil node.2.children fun hnil =>
        hchildren (List.isEmpty_iff.2 hnil)
      have hlt := depth_lt hm
      have hle := hdepth node hnode
      omega
    rw [expand_of_isEmpty g hempty, onDocs_id]
    exact .refl node.1 state
  | succ depth ih =>
    have hnext : ∀ node ∈ nextFrontier frontier, node.2.depth ≤ depth := by
      intro node hnode
      obtain ⟨hnode, -⟩ := mem_nextFrontier.1 hnode
      obtain ⟨parent, hparent, m, hm, rfl⟩ := mem_childNodes.1 hnode
      have hlt := depth_lt hm
      have hle := hdepth parent hparent
      exact (by omega : m.2.depth ≤ depth)
    rw [levelsFrom, List.flatten_cons] at hfollowed
    have hbelow := ih hapart.next hnext
      fun edge hedge => hfollowed edge (List.mem_append_right _ hedge)
    rw [levelsFrom, List.reverse_cons, List.flatten_append, List.foldl_append,
      List.flatten_singleton]
    generalize (levelsFrom depth (nextFrontier frontier)).reverse.flatten.foldl spliceEdge state =
      below at hbelow ⊢
    -- the levels below are done, and touch no place of this depth or higher
    have hplaces {parent : Option String} (hparent : pathDepth parent ≤ n) :
        Same parent below state := by
      refine hbelow.others parent (by omega) fun node hnode heq => ?_
      have hnode := hapart.next.depth node hnode
      rw [heq] at hnode
      omega
    have hat {node : Option String × IncludeTree} (hnode : node ∈ frontier) :
        Same node.1 below state :=
      hplaces (Nat.le_of_eq (hapart.depth node hnode))
    have hlevel : (edgesOf frontier).foldl spliceEdge below = expandNodes g frontier below := by
      refine foldl_edgesOf hapart hbelow.pool fun node hnode m hm d hd => ?_
      rw [(hat hnode).docsAt] at hd
      rw [hbelow.reachedAt_edge hapart hnode hm]
      have hedge := mem_edgesOf.2 ⟨node, hnode, m, hm, rfl⟩
      exact (hfollowed _ (List.mem_append_left _ hedge) d hd).expanded _
    rw [hlevel]
    refine ⟨sorted_expandNodes hbelow.pool, fun node hnode => ?_, fun parent hparent hne => ?_⟩
    · exact (same_expandNodes hapart.nodup hnode).trans (hat hnode).onDocs
    · exact (same_expandNodes_of_ne hne).trans (hplaces hparent)

end Includes

end ObjectEngine
