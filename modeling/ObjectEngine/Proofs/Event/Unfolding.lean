import Mathlib.Data.List.Basic
import ObjectEngine.Event
import ObjectEngine.Members.Lemmas

/-!
# What an unfolded payload shows at each position

A position is a path of keys and indexes (`JsonStep`), and leads through a graph as it leads
through JSON (`EventGraph.at?`, `Json.at?`). Unfolding keeps the nodes it is in as a state, which
it must leave as it found it (`EventGraph.run_unfold`); so what it writes for a value depends on the
ancestors of the value alone, and not on what was unfolded before
(`EventGraph.rendered`). Along a path each step then adds one level and one ancestor, and
`EventGraph.toJson_shows` tells what stands where: the mark for what is too deep, the mark for an
object within itself, and otherwise the value in full, at each place it is shared by.
-/

namespace ObjectEngine

/-- One step down in a value: to a member of an object or to an item of an array. -/
inductive JsonStep
  | member (key : String)
  | item (index : Nat)
  deriving DecidableEq

namespace Json

/-- The value one step down. -/
def step? : JsonStep → Json → Option Json
  | .member key, .obj members => members.lookup key
  | .item index, .arr items => items[index]?
  | _, _ => none

/-- The value at a position. -/
def at? : List JsonStep → Json → Option Json
  | [], j => some j
  | s :: rest, j => (j.step? s).bind (at? rest)

end Json

namespace EventGraph

variable {g : EventGraph} {levels : Nat} {ancestors : List Nat} {v : EventValue}
  {path : List JsonStep} {j : Json}

/-! ### Positions -/

/-- The value one step down. -/
def step? (g : EventGraph) : JsonStep → EventValue → Option EventValue
  | .member key, .node position => (g.members position).lookup key
  | .item index, .array items => items[index]?
  | _, _ => none

/-- The value at a position. -/
def at? (g : EventGraph) : List JsonStep → EventValue → Option EventValue
  | [], v => some v
  | s :: rest, v => (g.step? s v).bind (g.at? rest)

/-- **An object within itself**: the object at a position also stands on the way to it. -/
def Recurs (g : EventGraph) (v : EventValue) (path : List JsonStep) : Prop :=
  ∃ position, g.at? path v = some (.node position) ∧
    ∃ k < path.length, g.at? (path.take k) v = some (.node position)

/-- **A value in full**: a scalar itself, an array with as many items, an object with the same
keys. -/
inductive Full (g : EventGraph) : EventValue → Json → Prop
  | null : Full g .null .null
  | bool (b : Bool) : Full g (.bool b) (.bool b)
  | int (n : Int) : Full g (.int n) (.int n)
  | finite {x : Double} : x.isFinite = true → Full g (.float x) (.float x)
  | infinite {x : Double} : x.isFinite = false → Full g (.float x) .null
  | string (s : String) : Full g (.string s) (.str s)
  | array {items : List EventValue} {js : List Json} :
    js.length = items.length → Full g (.array items) (.arr js)
  | node {position : Nat} {members : Members Json} :
    Members.keys members = Members.keys (g.members position) →
      Full g (.node position) (.obj members)

/-! ### The state of unfolding -/

/-- What a value is unfolded to below some nodes. -/
def rendered (g : EventGraph) : Nat → List Nat → EventValue → Json
  | 0, _, _ => truncatedMark
  | levels + 1, ancestors, v =>
    match v with
    | .null => .null
    | .bool b => .bool b
    | .int n => .int n
    | .float x => .ofDouble x
    | .string s => .str s
    | .array items => .arr (items.map (rendered g levels ancestors))
    | .node position =>
      if position ∈ ancestors then circularMark
      else .obj (Members.mapValues (rendered g levels (position :: ancestors)) (g.members position))

/-- Work with a state, one part after another. -/
theorem run_bind {σ α β : Type} (x : StateM σ α) (f : α → StateM σ β) (s : σ) :
    (x >>= f).run s = (f (x.run s).1).run (x.run s).2 := rfl

/-- Work on the elements of a list, each of which leaves the state as it is. -/
theorem run_mapM {σ α β : Type} {f : α → StateM σ β} {h : α → β} {s : σ}
    (hf : ∀ a, (f a).run s = (h a, s)) (xs : List α) : (xs.mapM f).run s = (xs.map h, s) := by
  induction xs with
  | nil => rfl
  | cons a rest ih =>
    rw [List.mapM_cons, run_bind, hf, run_bind, ih]
    rfl

/-- **Unfolding leaves the state as it found it**, so what it writes depends on the nodes above
the value alone. -/
theorem run_unfold (g : EventGraph) (levels : Nat) (ancestors : List Nat) (v : EventValue) :
    (g.unfold levels v).run ancestors = (g.rendered levels ancestors v, ancestors) := by
  induction levels generalizing ancestors v with
  | zero => rfl
  | succ levels ih =>
    cases v with
    | array items =>
      rw [unfold, run_bind, run_mapM (ih ancestors)]
      rfl
    | node position =>
      rw [unfold, rendered, run_bind]
      change (if ancestors.contains position then _ else _ :
        StateM (List Nat) Json).run ancestors = _
      by_cases hin : position ∈ ancestors
      · rw [if_pos (List.contains_iff_mem.2 hin), if_pos hin]
        rfl
      · have hmember (m : String × EventValue) :
            (do return (m.1, ← g.unfold levels m.2) : StateM (List Nat) (String × Json)).run
                (position :: ancestors) =
              ((m.1, g.rendered levels (position :: ancestors) m.2), position :: ancestors) := by
          rw [run_bind, ih]
          rfl
        rw [if_neg (by simpa using hin), if_neg hin, run_bind]
        change (((g.members position).mapM fun m => do return (m.1, ← g.unfold levels m.2)) >>= _
          : StateM (List Nat) Json).run (position :: ancestors) = _
        rw [run_bind, run_mapM hmember]
        change (_, (position :: ancestors).erase position) = _
        rw [List.erase_cons_head]
        rfl
    | _ => rfl

/-- What a payload is unfolded to. -/
theorem toJson_eq (g : EventGraph) (v : EventValue) :
    g.toJson v = g.rendered (maxDepth + 1) [] v := by
  rw [toJson, run_unfold]

/-! ### Along a path -/

/-- The nodes above what is one step down from a value. -/
def below (ancestors : List Nat) : EventValue → List Nat
  | .node position => position :: ancestors
  | _ => ancestors

/-- **An object within itself**, or within one of some nodes above. -/
def RecursBelow (g : EventGraph) (ancestors : List Nat) (v : EventValue)
    (path : List JsonStep) : Prop :=
  ∃ position, g.at? path v = some (.node position) ∧
    (position ∈ ancestors ∨ ∃ k < path.length, g.at? (path.take k) v = some (.node position))

theorem recursBelow_nil : g.RecursBelow [] v path ↔ g.Recurs v path := by
  simp [RecursBelow, Recurs]

/-- At the value itself only the nodes above count. -/
theorem recursBelow_here :
    g.RecursBelow ancestors v [] ↔ ∃ position ∈ ancestors, v = .node position := by
  simp [RecursBelow, at?, and_comm]

theorem at?_cons {s : JsonStep} {w : EventValue} (hstep : g.step? s v = some w) :
    g.at? (s :: path) v = g.at? path w := by
  rw [at?, hstep, Option.bind_some]

theorem mem_below {position : Nat} :
    position ∈ below ancestors v ↔ v = .node position ∨ position ∈ ancestors := by
  cases v <;> simp [below, eq_comm]

/-- One step down the value itself is one of the nodes above. -/
theorem recursBelow_cons {s : JsonStep} {w : EventValue} (hstep : g.step? s v = some w) :
    g.RecursBelow ancestors v (s :: path) ↔ g.RecursBelow (below ancestors v) w path := by
  refine exists_congr fun position => and_congr (by rw [at?_cons hstep]) ?_
  rw [mem_below, List.length_cons, Nat.exists_lt_succ_left]
  simp only [List.take_zero, List.take_succ_cons, at?_cons hstep]
  rw [at?, Option.some.injEq, ← or_assoc, or_comm (a := position ∈ ancestors)]

/-- A value that is not cut off is unfolded in full. -/
theorem full_rendered (hopen : ¬g.RecursBelow ancestors v []) :
    g.Full v (g.rendered (levels + 1) ancestors v) := by
  cases v with
  | null => exact .null
  | bool b => exact .bool b
  | int n => exact .int n
  | float x =>
    rw [rendered, Json.ofDouble]
    split
    · rename_i hx
      exact .finite hx
    · rename_i hx
      exact .infinite (Bool.eq_false_iff.2 hx)
  | string s => exact .string s
  | array items => exact .array (List.length_map _)
  | node position =>
    have hin : position ∉ ancestors := fun h => hopen (recursBelow_here.2 ⟨_, h, rfl⟩)
    rw [rendered, if_neg hin]
    exact .node (by simp [Members.keys, Members.mapValues])

/-- A value that is not cut off has one step down what the graph has there. -/
theorem step?_rendered (hopen : ¬g.RecursBelow ancestors v []) (s : JsonStep) :
    (g.rendered (levels + 1) ancestors v).step? s =
      (g.step? s v).map (g.rendered levels (below ancestors v)) := by
  cases v with
  | array items => cases s <;> simp [rendered, Json.step?, step?, below]
  | node position =>
    have hin : position ∉ ancestors := fun h => hopen (recursBelow_here.2 ⟨_, h, rfl⟩)
    cases s with
    | member key => simp [rendered, hin, Json.step?, step?, below, Members.lookup_mapValues]
    | item index => simp [rendered, hin, Json.step?, step?]
  | float x =>
    rw [rendered, Json.ofDouble]
    cases s <;> split <;> rfl
  | _ => cases s <;> rfl

theorem step?_rendered_of_recurs (hclosed : g.RecursBelow ancestors v []) (s : JsonStep) :
    (g.rendered (levels + 1) ancestors v).step? s = none := by
  obtain ⟨position, hin, rfl⟩ := recursBelow_here.1 hclosed
  rw [rendered, if_pos hin]
  cases s <;> rfl

/-- **The positions of what is unfolded** are those of the graph that no mark stands above. -/
theorem isSome_at?_rendered : ((g.rendered levels ancestors v).at? path).isSome ↔
    (g.at? path v).isSome ∧
      ∀ k < path.length, k < levels ∧ ¬g.RecursBelow ancestors v (path.take k) := by
  induction path generalizing levels ancestors v with
  | nil => simp [Json.at?, at?]
  | cons s rest ih =>
    rw [Json.at?, at?, List.length_cons, Nat.forall_lt_succ_left, List.take_zero]
    cases levels with
    | zero => simp [rendered, truncatedMark, Json.step?]
    | succ levels =>
      by_cases hclosed : g.RecursBelow ancestors v []
      · simp [step?_rendered_of_recurs hclosed, hclosed]
      · rw [step?_rendered hclosed]
        cases hstep : g.step? s v with
        | none => simp
        | some w =>
          simp [ih, hclosed, List.take_succ_cons, recursBelow_cons hstep]

/-- **What stands at a position.** -/
theorem shown_rendered (h : (g.rendered levels ancestors v).at? path = some j) :
    ∃ w, g.at? path v = some w ∧
      (levels ≤ path.length ∧ j = truncatedMark ∨
        path.length < levels ∧ g.RecursBelow ancestors v path ∧ j = circularMark ∨
        path.length < levels ∧ ¬g.RecursBelow ancestors v path ∧ g.Full w j) := by
  induction path generalizing levels ancestors v with
  | nil =>
    obtain rfl := Option.some.inj h
    refine ⟨v, rfl, ?_⟩
    cases levels with
    | zero => exact .inl ⟨Nat.le_refl _, rfl⟩
    | succ levels =>
      by_cases hclosed : g.RecursBelow ancestors v []
      · obtain ⟨position, hin, rfl⟩ := recursBelow_here.1 hclosed
        exact .inr (.inl ⟨Nat.succ_pos _, hclosed, if_pos hin⟩)
      · exact .inr (.inr ⟨Nat.succ_pos _, hclosed, full_rendered hclosed⟩)
  | cons s rest ih =>
    rw [Json.at?] at h
    obtain ⟨j', hj', h⟩ := Option.bind_eq_some_iff.1 h
    cases levels with
    | zero => cases s <;> exact absurd hj' (by simp [rendered, truncatedMark, Json.step?])
    | succ levels =>
      by_cases hclosed : g.RecursBelow ancestors v []
      · rw [step?_rendered_of_recurs hclosed] at hj'
        exact absurd hj' (by simp)
      · rw [step?_rendered hclosed] at hj'
        obtain ⟨w, hstep, rfl⟩ := Option.map_eq_some_iff.1 hj'
        simpa [at?_cons hstep, recursBelow_cons hstep] using ih h

/-- **Every position of an unfolded payload** shows the mark for what is too deep if the position
is deeper than 32, else the mark for an object within itself if the object there also stands on
the way, and else the value of the graph in full; and the positions are all those of the graph
above which no mark stands. -/
theorem toJson_shows (g : EventGraph) (v : EventValue) (path : List JsonStep) :
    (∀ j, (g.toJson v).at? path = some j → ∃ w, g.at? path v = some w ∧
      (32 < path.length ∧ j = .str "[Truncated]" ∨
        path.length ≤ 32 ∧ g.Recurs v path ∧ j = .str "[Circular]" ∨
        path.length ≤ 32 ∧ ¬g.Recurs v path ∧ g.Full w j)) ∧
    (((g.toJson v).at? path).isSome ↔ (g.at? path v).isSome ∧
      ∀ k < path.length, k ≤ 32 ∧ ¬g.Recurs v (path.take k)) := by
  rw [toJson_eq]
  simp only [← recursBelow_nil]
  constructor
  · intro j h
    obtain ⟨w, hw, hcases⟩ := shown_rendered h
    refine ⟨w, hw, ?_⟩
    rw [← Nat.lt_succ_iff]
    exact hcases
  · rw [isSome_at?_rendered]
    simp only [← Nat.lt_succ_iff]
    rfl

/-- A node that two members share is unfolded below each, and marked where it is within itself. -/
example : toJson ⟨[[("first", .node 1), ("second", .array [.node 1])], [("parent", .node 0)]]⟩
      (.node 0) =
    .obj [("first", .obj [("parent", circularMark)]),
      ("second", .arr [.obj [("parent", circularMark)]])] := by
  rfl

end EventGraph

end ObjectEngine
