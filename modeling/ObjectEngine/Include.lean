import ObjectEngine.Error
import ObjectEngine.Text.Split

/-!
# Include trees

Include paths that start with the same segments share them: the paths form a tree, and each
of its edges, a distinct initial part of a path, is followed once. `IncludeTree.levels`
lists the edges by depth.
-/

namespace ObjectEngine

/-- A tree of path segments. -/
inductive IncludeTree
  | node (children : List (String × IncludeTree))
  deriving Inhabited

/-- An edge of the tree: the segment `key` followed from the objects found at `parent`, or
from the results themselves. -/
structure IncludeEdge where
  /-- All segments up to this edge, joined by full stops. -/
  path : String
  parent : Option String
  key : String
  hasChildren : Bool
  deriving DecidableEq, Inhabited

namespace IncludeTree

/-- The tree without paths. -/
def empty : IncludeTree := .node []

/-- The subtrees by segment. -/
def children : IncludeTree → List (String × IncludeTree)
  | .node children => children

/-- The tree with one more path. -/
def insert : List String → IncludeTree → IncludeTree
  | [], t => t
  | s :: rest, t =>
    let child := (t.children.lookup s).getD empty
    .node (Members.insert s (insert rest child) t.children)

/-- The tree of a list of dotted paths; a path with an empty segment is refused. -/
def ofPaths (paths : List String) : Outcome IncludeTree :=
  paths.foldlM (fun tree path =>
    let segments := Text.split '.' path
    if segments.any String.isEmpty then
      .error (.invalidQuery s!"invalid include path '{path}'")
    else .ok (insert segments tree)) empty

/-- Whether the tree has no edges. -/
def isEmpty (tree : IncludeTree) : Bool := tree.children.isEmpty

mutual

/-- The number of levels of edges. -/
def depth : IncludeTree → Nat
  | .node children => depthOf children

/-- The number of levels below a list of subtrees, with theirs. -/
def depthOf : List (String × IncludeTree) → Nat
  | [] => 0
  | (_, child) :: rest => max (1 + child.depth) (depthOf rest)

end

/-- The path of an edge below `parent`. -/
def edgePath (parent : Option String) (key : String) : String :=
  match parent with
  | some p => s!"{p}.{key}"
  | none => key

/-- The edges that leave the nodes of a frontier. -/
def edgesOf (frontier : List (Option String × IncludeTree)) : List IncludeEdge :=
  frontier.flatMap fun (parent, tree) => tree.children.map fun (key, child) =>
    { path := edgePath parent key, parent, key, hasChildren := !child.isEmpty }

/-- The nodes below a frontier that have edges of their own. -/
def nextFrontier (frontier : List (Option String × IncludeTree)) :
    List (Option String × IncludeTree) :=
  frontier.flatMap fun (parent, tree) => tree.children.filterMap fun (key, child) =>
    if child.isEmpty then none else some (some (edgePath parent key), child)

/-- The edges by depth, from a frontier down at most `depth` levels. -/
def levelsFrom : Nat → List (Option String × IncludeTree) → List (List IncludeEdge)
  | 0, _ => []
  | depth + 1, frontier => edgesOf frontier :: levelsFrom depth (nextFrontier frontier)

/-- The edges by depth: a level holds the edges below those of the level before it. -/
def levels (tree : IncludeTree) : List (List IncludeEdge) :=
  levelsFrom tree.depth [(none, tree)]

end IncludeTree

end ObjectEngine
