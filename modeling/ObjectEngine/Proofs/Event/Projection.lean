import ObjectEngine.Proofs.Event.Unfolding

/-!
# Projected payloads

A payload is reduced to some dotted paths by two walks that never meet: the path is followed in the
graph, and what it leads to is unfolded on its own. Where the graph is no deeper than what is
unfolded, nothing is cut off (`EventGraph.not_recurs_of_within`), so that what a value is unfolded
to depends neither on its depth nor on the nodes above it (`EventGraph.rendered_congr`). One step
of a path therefore commutes with unfolding (`EventGraph.child?_toJson`), and a projected payload
shows what the same paths lead to in the whole of it (`EventGraph.project_eq_find`).
-/

namespace ObjectEngine

/-! ### Dotted paths in JSON -/

namespace Json

/-- The value one path segment below another: a member of an object or an item of an array. -/
def child? (j : Json) (segment : String) : Option Json :=
  match j with
  | .obj members => members.lookup segment
  | .arr items => (Text.word64? segment.toList).bind fun i => items[i]?
  | _ => none

/-- The value at a dotted path. -/
def find? (j : Json) (path : String) : Option Json :=
  (Text.split '.' path).foldlM child? j

end Json

namespace EventGraph

variable {g : EventGraph} {levels levels' : Nat} {ancestors ancestors' : List Nat}
  {v w : EventValue} {path : List JsonStep}

/-! ### Payloads of bounded depth -/

/-- The members of every node are a map. -/
def Mapped (g : EventGraph) : Prop := ∀ members ∈ g.nodes, members.Sorted

instance (g : EventGraph) : Decidable g.Mapped :=
  inferInstanceAs (Decidable (∀ members ∈ g.nodes, members.Sorted))

theorem Mapped.sorted_members (hg : g.Mapped) (position : Nat) : (g.members position).Sorted := by
  rw [members]
  cases h : g.nodes[position]? with
  | none => exact List.Pairwise.nil
  | some members => exact hg members (List.mem_of_getElem? h)

/-- **A value with all that is nested in it** is less than `levels` deep. -/
def Within (g : EventGraph) (levels : Nat) (v : EventValue) : Prop :=
  ∀ path, (g.at? path v).isSome → path.length < levels

theorem at?_append (path rest : List JsonStep) (v : EventValue) :
    g.at? (path ++ rest) v = (g.at? path v).bind (g.at? rest) := by
  induction path generalizing v with
  | nil => rfl
  | cons s path ih =>
    rw [List.cons_append, at?, at?, Option.bind_assoc]
    exact congrArg _ (funext ih)

theorem not_within_zero : ¬g.Within 0 v := fun h => absurd (h [] rfl) (Nat.not_lt_zero _)

theorem Within.mono (h : g.Within levels v) (hle : levels ≤ levels') : g.Within levels' v :=
  fun path hpath => Nat.lt_of_lt_of_le (h path hpath) hle

/-- What is one step down is one level less deep. -/
theorem Within.step (h : g.Within (levels + 1) v) {s : JsonStep} (hstep : g.step? s v = some w) :
    g.Within levels w := fun path hpath =>
  Nat.lt_of_succ_lt_succ (h (s :: path) (by rwa [at?_cons hstep]))

/-- **What is of bounded depth has no object within itself**: the way around could be gone again
and again. -/
theorem not_recurs_of_within (h : g.Within levels v) : ¬g.Recurs v path := by
  rintro ⟨position, hend, k, hk, hstart⟩
  have hround : g.at? (path.drop k) (.node position) = some (.node position) := by
    rw [← List.take_append_drop k path, at?_append, hstart] at hend
    exact hend
  -- the way to the object and then `n` times around
  have hlong (n : Nat) : ∃ path', n ≤ path'.length ∧ g.at? path' v = some (.node position) := by
    induction n with
    | zero => exact ⟨_, Nat.zero_le _, hstart⟩
    | succ n ih =>
      obtain ⟨path', hn, hpath'⟩ := ih
      refine ⟨path' ++ path.drop k, ?_, by rw [at?_append, hpath']; exact hround⟩
      rw [List.length_append, List.length_drop]
      omega
  obtain ⟨path', hn, hpath'⟩ := hlong levels
  exact absurd (h path' (by rw [hpath']; rfl)) (Nat.not_lt.2 hn)

/-- Whether a value with all that is nested in it is less than `levels` deep. -/
def fits (g : EventGraph) : Nat → EventValue → Bool
  | 0, _ => false
  | levels + 1, v =>
    match v with
    | .array items => items.all (fits g levels)
    | .node position => (g.members position).all fun m => fits g levels m.2
    | _ => true

theorem fits_of_step (h : g.fits (levels + 1) v) {s : JsonStep} (hstep : g.step? s v = some w) :
    g.fits levels w := by
  cases v with
  | array items =>
    cases s with
    | item i => exact List.all_eq_true.1 h w (List.mem_of_getElem? hstep)
    | member key => cases hstep
  | node position =>
    cases s with
    | item i => cases hstep
    | member key => exact List.all_eq_true.1 h _ (Members.mem_of_lookup hstep)
  | _ => cases s <;> cases hstep

theorem within_of_fits (h : g.fits levels v) : g.Within levels v := by
  intro path hpath
  induction path generalizing levels v with
  | nil =>
    cases levels with
    | zero => cases h
    | succ levels => exact Nat.succ_pos _
  | cons s path ih =>
    cases levels with
    | zero => cases h
    | succ levels =>
      obtain ⟨u, hu⟩ := Option.isSome_iff_exists.1 hpath
      obtain ⟨w, hstep, hw⟩ := Option.bind_eq_some_iff.1 hu
      exact Nat.succ_lt_succ (ih (fits_of_step h hstep) (by rw [hw]; rfl))

/-! ### Unfolding from anywhere -/

/-- One step down from what is open, all is open. -/
theorem open_of_step {s : JsonStep} (hopen : ∀ path, ¬g.RecursBelow ancestors v path)
    (hstep : g.step? s v = some w) (path : List JsonStep) :
    ¬g.RecursBelow (below ancestors v) w path :=
  fun h => hopen (s :: path) ((recursBelow_cons hstep).2 h)

/-- **What a value is unfolded to** depends neither on the levels that are left nor on the nodes
above it, as long as nothing is cut off. -/
theorem rendered_congr (hg : g.Mapped) (hdepth : g.Within levels v) (hdepth' : g.Within levels' v)
    (hopen : ∀ path, ¬g.RecursBelow ancestors v path)
    (hopen' : ∀ path, ¬g.RecursBelow ancestors' v path) :
    g.rendered levels ancestors v = g.rendered levels' ancestors' v := by
  induction levels generalizing levels' ancestors ancestors' v with
  | zero => exact absurd hdepth not_within_zero
  | succ levels ih =>
    cases levels' with
    | zero => exact absurd hdepth' not_within_zero
    | succ levels' =>
      have hchild {s : JsonStep} {w : EventValue} (hstep : g.step? s v = some w) :
          g.rendered levels (below ancestors v) w = g.rendered levels' (below ancestors' v) w :=
        ih (hdepth.step hstep) (hdepth'.step hstep) (open_of_step hopen hstep)
          (open_of_step hopen' hstep)
      cases v with
      | array items =>
        refine congrArg Json.arr (List.map_congr_left fun item hitem => ?_)
        obtain ⟨i, hi⟩ := List.getElem?_of_mem hitem
        exact hchild (s := .item i) hi
      | node position =>
        have hin {ancestors : List Nat} (hopen : ∀ path, ¬g.RecursBelow ancestors (.node position)
            path) : position ∉ ancestors := fun h => hopen [] (recursBelow_here.2 ⟨_, h, rfl⟩)
        rw [rendered, rendered, if_neg (hin hopen), if_neg (hin hopen')]
        refine congrArg Json.obj (List.map_congr_left fun m hm => congrArg (m.1, ·) ?_)
        exact hchild (s := .member m.1) ((hg.sorted_members position).lookup_of_mem hm)
      | _ => rfl

/-- Nothing of what is of bounded depth is cut off as an object within itself. -/
theorem not_recursBelow_of_within (h : g.Within levels v) : ¬g.RecursBelow [] v path :=
  fun hrecurs => not_recurs_of_within h (recursBelow_nil.1 hrecurs)

/-- What is one step down from a value is unfolded as it is on its own. -/
theorem rendered_step (hg : g.Mapped) (h : g.Within (maxDepth + 1) v) {s : JsonStep}
    (hstep : g.step? s v = some w) : g.rendered maxDepth (below [] v) w = g.toJson w := by
  have hw : g.Within maxDepth w := h.step hstep
  have hw' : g.Within (maxDepth + 1) w := hw.mono (Nat.le_succ _)
  rw [toJson_eq]
  exact rendered_congr hg hw hw' (open_of_step (fun _ => not_recursBelow_of_within h) hstep)
    fun _ => not_recursBelow_of_within hw'

/-! ### Paths in what is unfolded -/

/-- One segment of a path below a value that is not cut off. -/
theorem child?_rendered (hopen : ¬g.RecursBelow ancestors v []) (segment : String) :
    (g.rendered (levels + 1) ancestors v).child? segment =
      (g.child? v segment).map (g.rendered levels (below ancestors v)) := by
  cases v with
  | array items =>
    simp only [rendered, Json.child?, child?, below, Option.map_bind, List.getElem?_map]
    rfl
  | node position =>
    have hin : position ∉ ancestors := fun h => hopen (recursBelow_here.2 ⟨_, h, rfl⟩)
    simp [rendered, hin, Json.child?, child?, below, Members.lookup_mapValues]
  | float x =>
    rw [rendered, Json.ofDouble]
    split <;> rfl
  | _ => rfl

/-- What is one segment below a value is one step down from it. -/
theorem exists_step_of_child {segment : String} (hchild : g.child? v segment = some w) :
    ∃ s, g.step? s v = some w := by
  cases v with
  | array items =>
    obtain ⟨i, -, hi⟩ := Option.bind_eq_some_iff.1 hchild
    exact ⟨.item i, hi⟩
  | node position => exact ⟨.member segment, hchild⟩
  | _ => cases hchild

/-- **One segment of a path** leads in what is unfolded to what it leads to in the graph,
unfolded. -/
theorem child?_toJson (hg : g.Mapped) (h : g.Within (maxDepth + 1) v) (segment : String) :
    (g.toJson v).child? segment = (g.child? v segment).map g.toJson := by
  rw [toJson_eq, child?_rendered (not_recursBelow_of_within h)]
  refine Option.map_congr fun w hchild => ?_
  obtain ⟨s, hstep⟩ := exists_step_of_child hchild
  exact rendered_step hg h hstep

/-- A path leads in what is unfolded to what it leads to in the graph, unfolded. -/
theorem foldlM_child?_toJson (hg : g.Mapped) (h : g.Within (maxDepth + 1) v)
    (segments : List String) :
    segments.foldlM Json.child? (g.toJson v) = (segments.foldlM g.child? v).map g.toJson := by
  induction segments generalizing v with
  | nil => rfl
  | cons segment segments ih =>
    rw [List.foldlM_cons, List.foldlM_cons, child?_toJson hg h]
    cases hchild : g.child? v segment with
    | none => rfl
    | some w =>
      obtain ⟨s, hstep⟩ := exists_step_of_child hchild
      exact ih ((h.step hstep).mono (Nat.le_succ _))

/-- **A payload reduced to some paths** has for each of them what the path leads to in the whole
payload, unfolded: a payload that is at most 32 deep, so that nothing of it is cut off. Objects
may be shared. -/
theorem project_eq_find (hg : g.Mapped)
    (hdepth : ∀ path, (g.at? path (.node 0)).isSome → path.length ≤ 32) (keys : List String)
    (key : String) : (g.project keys).lookup key =
      if key ∈ keys then some ((g.toJson (.node 0)).find? key) else none := by
  have hwithin : g.Within (maxDepth + 1) (.node 0) := fun path hpath =>
    Nat.lt_succ_of_le (hdepth path hpath)
  have hfind : (g.toJson (.node 0)).find? key = (g.find? key).map g.toJson :=
    foldlM_child?_toJson hg hwithin _
  rw [project, Members.lookup_ofList, ← List.map_reverse, hfind]
  split
  · rename_i hkey
    exact List.lookup_graph _ (List.mem_reverse.2 hkey)
  · rename_i hkey
    refine Members.lookup_eq_none fun m hm heq => hkey ?_
    obtain ⟨k, hk, rfl⟩ := List.mem_map.1 hm
    exact heq ▸ List.mem_reverse.1 hk

/-- A payload with an array whose items share a node. -/
private def sharing : EventGraph :=
  ⟨[[("a", .node 1), ("b", .array [.node 1, .int 7]), ("n", .null)],
    [("v", .array [.bool true])]]⟩

theorem project_eq_find_sharing :
    sharing.Mapped ∧ (∀ path, (sharing.at? path (.node 0)).isSome → path.length ≤ 32) ∧
      (sharing.project ["a.v.0", "b.00.v", "b.1.v", "n.v"]).lookup "b.00.v" =
        some (some (.arr [.bool true])) := by
  have hmapped : sharing.Mapped := by decide
  have hfits : sharing.fits 33 (.node 0) = true := by decide
  have hdepth (path : List JsonStep) (h : (sharing.at? path (.node 0)).isSome) :
      path.length ≤ 32 :=
    Nat.le_of_lt_succ (within_of_fits hfits path h)
  refine ⟨hmapped, hdepth, ?_⟩
  rw [project_eq_find hmapped hdepth]
  rfl

end EventGraph

end ObjectEngine
