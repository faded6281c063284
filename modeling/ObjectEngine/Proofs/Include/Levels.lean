import ObjectEngine.Proofs.Include.Batches
import ObjectEngine.Proofs.Include.Paths
import ObjectEngine.Proofs.Stored.Values

/-!
# What the levels reach

An `ObjectGraph` holds the objects that references stand for, and the links of relation fields.
Along a tree of include paths it expands a document by plain recursion (`ObjectGraph.expand`):
each field that the tree names gets the objects that it refers to in place, expanded along the
subtree of the field. Objects may refer to each other in circles; the tree is finite. Depth by
depth, `ObjectGraph.Parent` says which documents the fields at that depth are read from, and
`ObjectGraph.Referenced` which references they hold.

With the answers of an `ObjectGraph`, the references that an edge collects are those that its field
has in the documents at its start (`Includes.mem_targetsOf`), and the objects and links that it
comes to hold are those of the graph (`Includes.reaches_levelPool`, `Includes.lookup_links`).
Objects and links are held by pointer key, which tells classes apart that have no dollar sign in
their names; the links of an owner are held once for a field, so they are its own only if documents
of one class and id agree on the class that the field relates to (`Includes.Coherent`).

The invariant between two levels is `Includes.Populated`: the documents at the nodes of the
frontier are those that the fields at its depth are read from. A level turns a populated frontier
into a populated next one (`Includes.Populated.next`), and leaves what was reached before. So in the
end every document, at whatever depth, finds what its fields refer to
(`Includes.followed_levelsPool`).
-/

namespace ObjectEngine

/-- **The objects and the relation links** that there are. -/
structure ObjectGraph where
  /-- The object that a reference stands for, if it exists. -/
  object? : Pointer → Option Document
  /-- The related ids of the owner of a relation field, in order. -/
  links : (className field ownerId : String) → List String
  pointer_eq : ∀ {p d}, object? p = some d → Document.pointer d = p
  sorted : ∀ {p d}, object? p = some d → Members.Sorted d.fields

namespace ObjectGraph

/-! ### References -/

/-- What the relation field of a document refers to. -/
def related (g : ObjectGraph) (d : Document) (key target : String) : List Pointer :=
  (g.links d.className key d.objectId).map fun id => ⟨target, id⟩

/-- **What a field of a document refers to**: the reference it holds, those among its items, or
those of the relation. -/
def references (g : ObjectGraph) (d : Document) (key : String) : List Pointer :=
  match d.fields.lookup key with
  | some (.relation target) => g.related d key target
  | some v => Includes.pointersOf v
  | none => []

/-! ### Recursive expansion -/

/-- What stands in place of a reference: the object, or `null` if there is none. -/
def standIn : Option Document → Value
  | some d => .included d
  | none => .null

/-- A value with objects in place of its references. -/
def placed (object? : Pointer → Option Document) (related : String → List Pointer) :
    Value → Value
  | .pointer p => standIn (object? p)
  | .array items => .array (items.map fun item => match item with
    | .pointer p => standIn (object? p)
    | item => item)
  | .relation target => .array ((related target).filterMap fun p => (object? p).map .included)
  | v => v

/-- A document with objects in place in the fields that are followed, each expanded in the way
of its field. -/
def follow (g : ObjectGraph) (ways : List (String × (Document → Document))) (d : Document) :
    Document :=
  { d with fields := d.fields.map fun f => (f.1, match ways.lookup f.1 with
    | some way => placed (fun p => (g.object? p).map way) (g.related d f.1) f.2
    | none => f.2) }

mutual

/-- **A document expanded along a tree** of include paths. -/
def expand (g : ObjectGraph) : IncludeTree → Document → Document
  | .node children => g.follow (expandAll g children)

/-- The ways in which the objects of each field are expanded. -/
def expandAll (g : ObjectGraph) :
    List (String × IncludeTree) → List (String × (Document → Document))
  | [] => []
  | (key, child) :: rest => (key, expand g child) :: expandAll g rest

end

variable {g : ObjectGraph}

/-- Following no field leaves a document as it is. -/
theorem follow_nil (g : ObjectGraph) (d : Document) : g.follow [] d = d := by
  have hfields : d.fields.map (fun f => (f.1, f.2)) = d.fields := List.map_id' d.fields
  exact congrArg (fun fields => ({ d with fields } : Document)) hfields

/-- Along a tree without edges, a document stays as it is. -/
theorem expand_of_isEmpty (g : ObjectGraph) {tree : IncludeTree} (h : tree.isEmpty = true) :
    g.expand tree = id := by
  obtain ⟨children⟩ := tree
  obtain rfl : children = [] := List.isEmpty_iff.1 h
  exact funext (follow_nil g)

/-! ### Depth by depth -/

/-- **The documents that fields are read from**, by depth: the results, and below them the
objects that the fields before refer to. -/
inductive Parent (g : ObjectGraph) (results : List Document) (tree : IncludeTree) :
    Nat → IncludeTree → Document → Prop
  | root {d : Document} (h : d ∈ results) : Parent g results tree 0 tree d
  | step {n : Nat} {t child : IncludeTree} {d e : Document} {key : String} {p : Pointer}
    (h : Parent g results tree n t d) (hchild : (key, child) ∈ t.children)
    (hp : p ∈ g.references d key) (he : g.object? p = some e) :
    Parent g results tree (n + 1) child e

/-- **The references that are followed**, by depth. -/
def Referenced (g : ObjectGraph) (results : List Document) (tree : IncludeTree) (n : Nat)
    (p : Pointer) : Prop :=
  ∃ t d key child, g.Parent results tree n t d ∧ (key, child) ∈ t.children ∧
    p ∈ g.references d key

/-- **No class that is involved** has a dollar sign in its name: neither that of a result nor
that of a reference that is followed. -/
structure Plain (g : ObjectGraph) (results : List Document) (tree : IncludeTree) : Prop where
  roots : ∀ d ∈ results, '$' ∉ d.className.toList
  referenced : ∀ n p, g.Referenced results tree n p → '$' ∉ p.className.toList

/-- Nor is there a dollar sign in the class of a document that fields are read from. -/
theorem Plain.parent {results : List Document} {tree : IncludeTree} (h : g.Plain results tree)
    {n : Nat} {t : IncludeTree} {d : Document} (hd : g.Parent results tree n t d) :
    '$' ∉ d.className.toList := by
  cases hd with
  | root hd => exact h.roots d hd
  | @step n t _ d _ key p hparent hchild hp he =>
    obtain rfl := g.pointer_eq he
    exact h.referenced n _ ⟨t, d, key, _, hparent, hchild, hp⟩

end ObjectGraph

section

/-- **Answers of a graph**: the objects that exist, and the links of each owner; an owner without
links may be left out. -/
structure ObjectGraph.AnsweredBy (g : ObjectGraph) (answers : FixedAnswers) : Prop where
  objects : ∀ {className ids d},
    d ∈ answers.objects className ids ↔ ∃ id ∈ ids, g.object? ⟨className, id⟩ = some d
  links : ∀ {className field ownerIds m}, m ∈ answers.links className field ownerIds →
    m.1 ∈ ownerIds ∧ m.2 = g.links className field m.1
  linked : ∀ {className field ownerIds ownerId}, ownerId ∈ ownerIds →
    g.links className field ownerId ≠ [] →
      ∃ m ∈ answers.links className field ownerIds, m.1 = ownerId

namespace Includes

/-! ### Relation fields -/

variable {g : ObjectGraph} {answers : FixedAnswers} {key : String} {docs : List Document}

/-- **The owners** of relation fields, and their groups. -/
theorem relationOwners_eq (key : String) (docs : List Document) :
    ∃ owners : List (Pointer × String),
      (∀ o, o ∈ owners ↔ ∃ d ∈ docs, Document.pointer d = ⟨o.1.className, o.2⟩ ∧
        d.fields.lookup key = some (.relation o.1.objectId)) ∧
      relationOwners key docs = (targetSet (owners.map Prod.fst)).map fun group =>
        (group, (owners.filter fun o => o.1 = group).map Prod.snd) := by
  refine ⟨_, fun o => ?_, by rw [targetSet, List.foldl_map]; rfl⟩
  rw [List.mem_filterMap]
  constructor
  · rintro ⟨d, hd, howner⟩
    split at howner
    · rename_i target hlookup
      obtain rfl := Option.some.inj howner
      exact ⟨d, hd, rfl, hlookup⟩
    · exact absurd howner (by simp)
  · rintro ⟨d, hd, hpointer, hlookup⟩
    obtain ⟨⟨className, target⟩, id⟩ := o
    obtain ⟨rfl, rfl⟩ := Pointer.mk.inj hpointer
    exact ⟨d, hd, by rw [hlookup]⟩

/-- Owners are asked for by their class and the class that their field relates to. -/
theorem of_mem_relationOwners {group : Pointer × List String} (h : group ∈ relationOwners key docs)
    {id : String} (hid : id ∈ group.2) :
    ∃ d ∈ docs, Document.pointer d = ⟨group.1.className, id⟩ ∧
      d.fields.lookup key = some (.relation group.1.objectId) := by
  obtain ⟨owners, howners, heq⟩ := relationOwners_eq key docs
  rw [heq] at h
  obtain ⟨p, -, rfl⟩ := List.mem_map.1 h
  obtain ⟨o, ho, rfl⟩ := List.mem_map.1 hid
  obtain ⟨howner, hgroup⟩ := List.mem_filter.1 ho
  obtain rfl := of_decide_eq_true hgroup
  exact (howners o).1 howner

/-- No group of owners is empty. -/
theorem ne_nil_of_mem_relationOwners {group : Pointer × List String}
    (h : group ∈ relationOwners key docs) : group.2 ≠ [] := by
  obtain ⟨owners, -, heq⟩ := relationOwners_eq key docs
  rw [heq] at h
  obtain ⟨p, hp, rfl⟩ := List.mem_map.1 h
  obtain ⟨o, ho, hgroup⟩ := List.mem_map.1 (mem_targetSet.1 hp)
  exact List.ne_nil_of_mem (List.mem_map_of_mem (List.mem_filter.2 ⟨ho, decide_eq_true hgroup⟩))

theorem exists_relationOwners {d : Document} (hd : d ∈ docs) {target : String}
    (h : d.fields.lookup key = some (.relation target)) :
    ∃ group ∈ relationOwners key docs, group.1 = ⟨d.className, target⟩ ∧ d.objectId ∈ group.2 := by
  obtain ⟨owners, howners, heq⟩ := relationOwners_eq key docs
  have howner : (⟨d.className, target⟩, d.objectId) ∈ owners := (howners _).2 ⟨d, hd, rfl, h⟩
  rw [heq]
  refine ⟨_, List.mem_map_of_mem (mem_targetSet.2 (List.mem_map_of_mem howner)), rfl, ?_⟩
  exact List.mem_map_of_mem (f := Prod.snd) (List.mem_filter.2 ⟨howner, by simp⟩)

/-- **The links answered** are those of the documents' relations. -/
theorem of_mem_linkEntries (hg : g.AnsweredBy answers) {entry : String × List Pointer}
    (h : entry ∈ linkEntries answers key docs) :
    ∃ d ∈ docs, ∃ target, d.fields.lookup key = some (.relation target) ∧
      entry = (keyOf d, g.related d key target) := by
  obtain ⟨group, hgroup, h⟩ := List.mem_flatMap.1 h
  obtain ⟨m, hm, rfl⟩ := List.mem_map.1 h
  obtain ⟨howner, hlinks⟩ := hg.links hm
  obtain ⟨d, hd, hpointer, hlookup⟩ := of_mem_relationOwners hgroup howner
  refine ⟨d, hd, group.1.objectId, hlookup, ?_⟩
  have hclass : d.className = group.1.className := congrArg Pointer.className hpointer
  have hid : d.objectId = m.1 := congrArg Pointer.objectId hpointer
  rw [keyOf, hpointer, ObjectGraph.related, hclass, hid, hlinks]

theorem mem_linkEntries (hg : g.AnsweredBy answers) {d : Document} (hd : d ∈ docs)
    {target : String} (h : d.fields.lookup key = some (.relation target))
    (hne : g.related d key target ≠ []) :
    (keyOf d, g.related d key target) ∈ linkEntries answers key docs := by
  obtain ⟨group, hgroup, hpointer, howner⟩ := exists_relationOwners hd h
  have hlinks : g.links d.className key d.objectId ≠ [] := fun hnil => hne (by
    rw [ObjectGraph.related, hnil, List.map_nil])
  obtain ⟨m, hm, hid⟩ := hg.linked howner hlinks
  have hclass : group.1.className = d.className := congrArg Pointer.className hpointer
  rw [← hclass] at hm
  refine List.mem_flatMap.2 ⟨group, hgroup, List.mem_map.2 ⟨m, hm, ?_⟩⟩
  rw [(hg.links hm).2, hid, hpointer]
  rfl

/-- **The references of an edge** are those that the field has in the documents. -/
theorem mem_targetsOf (hg : g.AnsweredBy answers) {edge : IncludeEdge} {p : Pointer} :
    p ∈ (targetsOf answers edge docs).targets ↔ ∃ d ∈ docs, p ∈ g.references d edge.key := by
  rw [targetsOf, mem_targetSet, List.mem_append, directReferences, List.mem_flatMap,
    List.mem_flatMap]
  -- a document holds a reference itself, or has it through the links of its relation
  constructor
  · rintro (⟨d, hd, hp⟩ | ⟨entry, hentry, hp⟩)
    · refine ⟨d, hd, ?_⟩
      rw [ObjectGraph.references]
      split at hp
      · rename_i v hv
        rw [hv]
        cases v with
        | relation => exact absurd hp List.not_mem_nil
        | _ => exact hp
      · exact absurd hp List.not_mem_nil
    · obtain ⟨d, hd, target, hlookup, rfl⟩ := of_mem_linkEntries hg hentry
      refine ⟨d, hd, ?_⟩
      rw [ObjectGraph.references, hlookup]
      exact hp
  · rintro ⟨d, hd, hp⟩
    rw [ObjectGraph.references] at hp
    split at hp
    · rename_i target hlookup
      exact .inr ⟨_, mem_linkEntries hg hd hlookup (List.ne_nil_of_mem hp), hp⟩
    · rename_i hlookup
      refine .inl ⟨d, hd, ?_⟩
      rw [hlookup]
      exact hp
    · exact absurd hp List.not_mem_nil

/-- **Documents that agree on their relations**: two of one class and id do not hold relations to
different classes in the field. -/
def Coherent (key : String) (docs : List Document) : Prop :=
  ∀ d ∈ docs, ∀ e ∈ docs, Document.pointer d = Document.pointer e →
    ∀ target target', d.fields.lookup key = some (.relation target) →
      e.fields.lookup key = some (.relation target') → target = target'

/-- The links of a document, among those of others that agree with it. -/
theorem lookup_links (hg : g.AnsweredBy answers) (hplain : ∀ d ∈ docs, '$' ∉ d.className.toList)
    {edge : IncludeEdge} (hcoherent : Coherent edge.key docs) {d : Document} (hd : d ∈ docs)
    {target : String} (h : d.fields.lookup edge.key = some (.relation target)) :
    ((targetsOf answers edge docs).links.lookup (keyOf d)).getD [] =
      g.related d edge.key target := by
  -- links under the key of `d` are those of a document with its class and id, which agrees with it
  have hentry {ps : List Pointer} (hps : (keyOf d, ps) ∈ linkEntries answers edge.key docs) :
      ps = g.related d edge.key target := by
    obtain ⟨e, he, target', hlookup, heq⟩ := of_mem_linkEntries hg hps
    obtain ⟨hkey, rfl⟩ := Prod.mk.inj heq
    have hpointer := Stored.pointerKey_inj (hplain d hd) (hplain e he) hkey
    rw [hcoherent d hd e he hpointer target target' h hlookup]
    have hclass : d.className = e.className := congrArg Pointer.className hpointer
    have hid : d.objectId = e.objectId := congrArg Pointer.objectId hpointer
    rw [ObjectGraph.related, ObjectGraph.related, hclass, hid]
  rw [targetsOf]
  cases hlookup : (Members.ofList (linkEntries answers edge.key docs)).lookup (keyOf d) with
  | some ps =>
    have hmem := Members.mem_insertAll (Members.mem_of_lookup hlookup)
    exact hentry (hmem.resolve_right List.not_mem_nil)
  | none =>
    -- only an owner without links is left out
    by_contra hne
    have hmem := mem_linkEntries hg hd h fun hnil => hne hnil.symm
    rw [Members.lookup_ofList, List.lookup_eq_none_iff] at hlookup
    exact absurd (hlookup _ (List.mem_reverse.2 hmem)) (by simp)

/-! ### Objects -/

/-- The objects of a list of references, by key. -/
theorem lookup_objects {targets : List Pointer} (hplain : ∀ p ∈ targets, '$' ∉ p.className.toList)
    {bindings : List (String × Document)}
    (h : ∀ m, m ∈ bindings ↔ ∃ p ∈ targets, g.object? p = some m.2 ∧ m.1 = Stored.pointerKey p) :
    (∀ p ∈ targets, (Members.ofList bindings).lookup (Stored.pointerKey p) = g.object? p) ∧
      ∀ d, d ∈ Members.values (Members.ofList bindings) ↔ ∃ p ∈ targets, g.object? p = some d := by
  have hobject {p : Pointer} (hp : p ∈ targets) {d : Document}
      (hd : (Stored.pointerKey p, d) ∈ bindings) : g.object? p = some d := by
    obtain ⟨q, hq, hobject, hkey⟩ := (h _).1 hd
    rwa [Stored.pointerKey_inj (hplain p hp) (hplain q hq) hkey]
  have hmem {m : String × Document} : m ∈ Members.ofList bindings ↔ m ∈ bindings := by
    refine Members.mem_ofList_iff fun key d e hd he => ?_
    obtain ⟨p, hp, hobject', hkey⟩ := (h _).1 hd
    obtain rfl : key = Stored.pointerKey p := hkey
    exact Option.some.inj ((hobject hp hd).symm.trans (hobject hp he))
  have hsorted := Members.sorted_ofList bindings
  constructor
  · intro p hp
    refine Option.ext fun d => ⟨fun hlookup => hobject hp (hmem.1 (Members.mem_of_lookup hlookup)),
      fun hd => hsorted.lookup_of_mem (hmem.2 ((h _).2 ⟨p, hp, hd, rfl⟩))⟩
  · intro d
    constructor
    · intro hd
      obtain ⟨m, hm, rfl⟩ := List.mem_map.1 hd
      obtain ⟨p, hp, hobject, -⟩ := (h m).1 (hmem.1 hm)
      exact ⟨p, hp, hobject⟩
    · rintro ⟨p, hp, hobject⟩
      exact List.mem_map_of_mem (f := Prod.snd) (hmem.2 ((h (_, d)).2 ⟨p, hp, hobject, rfl⟩))

/-- **A level fetches** the objects that its references stand for. -/
theorem lookup_levelObjects (hg : g.AnsweredBy answers) {size : Nat} (hsize : 1 ≤ size)
    {targets : List Pointer} (hplain : ∀ p ∈ targets, '$' ∉ p.className.toList) {p : Pointer}
    (hp : p ∈ targets) :
    (levelObjects answers size targets).lookup (Stored.pointerKey p) = g.object? p := by
  refine (lookup_objects hplain fun m => ?_).1 p hp
  rw [List.mem_map]
  constructor
  · rintro ⟨d, hd, rfl⟩
    obtain ⟨batch, hbatch, hd⟩ := List.mem_flatMap.1 hd
    obtain ⟨id, hid, hd⟩ := hg.objects.1 hd
    have hp : ⟨batch.1, id⟩ ∈ (batches size targets).flatMap batchPointers :=
      List.mem_flatMap.2 ⟨batch, hbatch, mem_batchPointers.2 ⟨rfl, hid⟩⟩
    refine ⟨⟨batch.1, id⟩, (mem_flatMap_batches hsize targets).1 hp, hd, ?_⟩
    rw [keyOf, g.pointer_eq hd]
  · rintro ⟨q, hq, hobject, hkey⟩
    obtain ⟨batch, hbatch, hq⟩ := List.mem_flatMap.1 ((mem_flatMap_batches hsize targets).2 hq)
    obtain ⟨hclass, hid⟩ := mem_batchPointers.1 hq
    refine ⟨m.2, List.mem_flatMap.2 ⟨batch, hbatch, hg.objects.2 ⟨q.objectId, hid, ?_⟩⟩, ?_⟩
    · rwa [hclass]
    · exact Prod.ext (by rw [keyOf, g.pointer_eq hobject, hkey]) rfl

/-- **Along an edge** the objects of its references are reached. -/
theorem lookup_reachedAlong {targets : List Pointer} {objects : Members Document}
    (hplain : ∀ p ∈ targets, '$' ∉ p.className.toList)
    (hobjects : ∀ p ∈ targets, objects.lookup (Stored.pointerKey p) = g.object? p)
    {e : EdgeTargets} (he : ∀ p ∈ e.targets, p ∈ targets) :
    (∀ p ∈ e.targets,
      (reachedAlong objects e).objects.lookup (Stored.pointerKey p) = g.object? p) ∧
      ∀ d, d ∈ Members.values (reachedAlong objects e).objects ↔
        ∃ p ∈ e.targets, g.object? p = some d := by
  refine lookup_objects (fun p hp => hplain p (he p hp)) fun m => ?_
  rw [List.mem_filterMap]
  constructor
  · rintro ⟨p, hp, hm⟩
    rw [hobjects p (he p hp)] at hm
    obtain ⟨d, hd, rfl⟩ := Option.map_eq_some_iff.1 hm
    exact ⟨p, hp, hd, rfl⟩
  · rintro ⟨p, hp, hobject, hkey⟩
    refine ⟨p, hp, ?_⟩
    rw [hobjects p (he p hp), hobject, ← hkey]
    rfl

/-! ### The pool -/

/-- What was reached along a path, if anything. -/
def reachedAt (pool : Pool) (path : String) : Reached := (pool.lookup path).getD {}

section Level

variable {size : Nat} {results : List Document} {pool : Pool} {level : List IncludeEdge}

/-- A level leaves what was reached along other paths. -/
theorem lookup_levelPool_of_ne {path : String} (h : ∀ edge ∈ level, edge.path ≠ path) :
    (levelPool answers size results pool level).lookup path = pool.lookup path := by
  rw [levelPool, Members.lookup_insertAll, List.lookup_eq_none_iff.2 fun m hm => ?_,
    Option.none_or]
  obtain ⟨edge, hedge, rfl⟩ := List.mem_map.1 (List.mem_reverse.1 hm)
  simpa using (h edge hedge).symm

theorem reachedAt_levelPool (hnodup : (level.map (·.path)).Nodup) {edge : IncludeEdge}
    (hedge : edge ∈ level) :
    reachedAt (levelPool answers size results pool level) edge.path =
      reachedAlong (levelObjects answers size (levelTargets answers results pool level))
        (targetsOf answers edge (parents results pool edge)) := by
  obtain ⟨objects, hobjects⟩ : ∃ objects, objects =
    levelObjects answers size (levelTargets answers results pool level) := ⟨_, rfl⟩
  have hmem : (edge.path, reachedAlong objects
      (targetsOf answers edge (parents results pool edge))) ∈ level.map fun edge =>
        (edge.path, reachedAlong objects (targetsOf answers edge (parents results pool edge))) :=
    List.mem_map.2 ⟨edge, hedge, rfl⟩
  rw [reachedAt, levelPool, ← hobjects, Members.lookup_insertAll_of_unique hmem, Option.getD_some]
  intro r hr
  obtain ⟨edge', hedge', heq⟩ := List.mem_map.1 hr
  obtain ⟨hpath, rfl⟩ := Prod.mk.inj heq
  rw [List.inj_on_of_nodup_map hnodup hedge' hedge hpath]

theorem mem_levelTargets (hg : g.AnsweredBy answers) {p : Pointer} :
    p ∈ levelTargets answers results pool level ↔
      ∃ edge ∈ level, ∃ d ∈ parents results pool edge, p ∈ g.references d edge.key := by
  rw [levelTargets, mem_targetSet, List.mem_flatMap]
  simp only [mem_targetsOf hg]

/-- **What is known of a document along an edge** that was followed: the objects that its field
refers to, which may have been expanded since, and the links of its relation. -/
structure Followed (g : ObjectGraph) (object? : Pointer → Option Document) (reached : Reached)
    (key : String) (d : Document) : Prop where
  sorted : Members.Sorted d.fields
  objects : ∀ p ∈ g.references d key, reached.objects.lookup (Stored.pointerKey p) = object? p
  links : ∀ target, d.fields.lookup key = some (.relation target) →
    (reached.links.lookup (keyOf d)).getD [] = g.related d key target

/-- **A level** reaches, along each of its edges, the objects that the documents at its start refer
to. -/
theorem reaches_levelPool (hg : g.AnsweredBy answers) (hsize : 1 ≤ size)
    (hnodup : (level.map (·.path)).Nodup)
    (hplain : ∀ p ∈ levelTargets answers results pool level, '$' ∉ p.className.toList)
    {edge : IncludeEdge} (hedge : edge ∈ level) :
    (∀ d ∈ parents results pool edge, ∀ p ∈ g.references d edge.key,
      (reachedAt (levelPool answers size results pool level) edge.path).objects.lookup
        (Stored.pointerKey p) = g.object? p) ∧
      ∀ e, e ∈ Members.values
          (reachedAt (levelPool answers size results pool level) edge.path).objects ↔
        ∃ d ∈ parents results pool edge, ∃ p ∈ g.references d edge.key, g.object? p = some e := by
  rw [reachedAt_levelPool hnodup hedge]
  obtain ⟨hlookup, hvalues⟩ := lookup_reachedAlong hplain
    (fun p hp => lookup_levelObjects hg hsize hplain hp)
    (e := targetsOf answers edge (parents results pool edge)) fun p hp => by
      obtain ⟨d, hd, hp⟩ := (mem_targetsOf hg).1 hp
      exact (mem_levelTargets hg).2 ⟨edge, hedge, d, hd, hp⟩
  refine ⟨fun d hd p hp => hlookup p ((mem_targetsOf hg).2 ⟨d, hd, hp⟩), fun e => ?_⟩
  rw [hvalues]
  constructor
  · rintro ⟨p, hp, he⟩
    obtain ⟨d, hd, hp⟩ := (mem_targetsOf hg).1 hp
    exact ⟨d, hd, p, hp, he⟩
  · rintro ⟨d, hd, p, hp, he⟩
    exact ⟨p, (mem_targetsOf hg).2 ⟨d, hd, hp⟩, he⟩

end Level

end Includes

end

namespace Includes

open IncludeTree ObjectGraph

variable {g : ObjectGraph} {answers : FixedAnswers} {size : Nat} {results : List Document}
  {tree : IncludeTree} {pool : Pool} {n : Nat} {frontier : List (Option String × IncludeTree)}

/-! ### One level -/

/-- The documents at a node: the results, or the objects that were reached along its path. -/
def docsAt (results : List Document) (pool : Pool) : Option String → List Document
  | none => results
  | some path => Members.values (reachedAt pool path).objects

theorem parents_eq (edge : IncludeEdge) :
    parents results pool edge = docsAt results pool edge.parent := by
  rw [parents]
  cases edge.parent with
  | none => rfl
  | some path =>
    simp only [docsAt, reachedAt]
    cases pool.lookup path <;> rfl

/-- **A frontier with its documents**: those at its nodes are the ones that the fields at this depth
are read from. -/
structure Populated (g : ObjectGraph) (results : List Document) (tree : IncludeTree) (n : Nat)
    (frontier : List (Option String × IncludeTree)) (pool : Pool) : Prop where
  sound : ∀ node ∈ frontier, ∀ d ∈ docsAt results pool node.1, g.Parent results tree n node.2 d
  complete : ∀ t d, g.Parent results tree n t d → t.isEmpty = false →
    ∃ node ∈ frontier, node.2 = t ∧ d ∈ docsAt results pool node.1

theorem populated_root : Populated g results tree 0 [(none, tree)] pool where
  sound node hnode d hd := by
    obtain rfl := List.mem_singleton.1 hnode
    exact .root hd
  complete t d hd _ := by
    cases hd with
    | root hd => exact ⟨_, List.mem_singleton_self _, rfl, hd⟩

theorem isEmpty_eq_false {t : IncludeTree} {m : String × IncludeTree} (h : m ∈ t.children) :
    t.isEmpty = false := by
  rw [IncludeTree.isEmpty, List.isEmpty_eq_false_iff]
  exact List.ne_nil_of_mem h

/-- **The references of a level** are those followed at its depth. -/
theorem Populated.mem_levelTargets (hg : g.AnsweredBy answers)
    (h : Populated g results tree n frontier pool) {p : Pointer} :
    p ∈ levelTargets answers results pool (edgesOf frontier) ↔ g.Referenced results tree n p := by
  rw [Includes.mem_levelTargets hg]
  constructor
  · rintro ⟨edge, hedge, d, hd, hp⟩
    obtain ⟨node, hnode, m, hm, rfl⟩ := mem_edgesOf.1 hedge
    rw [parents_eq] at hd
    exact ⟨node.2, d, m.1, m.2, h.sound node hnode d hd, hm, hp⟩
  · rintro ⟨t, d, key, child, hparent, hchild, hp⟩
    obtain ⟨node, hnode, rfl, hd⟩ := h.complete t d hparent (isEmpty_eq_false hchild)
    refine ⟨_, mem_edgesOf.2 ⟨node, hnode, _, hchild, rfl⟩, d, ?_, hp⟩
    rwa [parents_eq]

section Step

variable (hg : g.AnsweredBy answers) (hsize : 1 ≤ size) (hplain : g.Plain results tree)
  (hapart : Apart n frontier) (h : Populated g results tree n frontier pool)

include hapart in
/-- A level leaves the documents at its nodes and above. -/
theorem docsAt_levelPool {parent : Option String} (hdepth : pathDepth parent ≤ n) :
    docsAt results (levelPool answers size results pool (edgesOf frontier)) parent =
      docsAt results pool parent := by
  cases parent with
  | none => rfl
  | some path =>
    rw [docsAt, reachedAt, lookup_levelPool_of_ne fun edge hedge heq => ?_]
    · rfl
    · have := (hapart.depth_edge hedge).2
      rw [heq] at this
      omega

include hg hsize hplain hapart h

/-- **Below a populated frontier** the objects that its documents refer to are reached. -/
theorem Populated.reaches {edge : IncludeEdge} (hedge : edge ∈ edgesOf frontier) :
    (∀ d ∈ docsAt results pool edge.parent, ∀ p ∈ g.references d edge.key,
      (reachedAt (levelPool answers size results pool (edgesOf frontier)) edge.path).objects.lookup
        (Stored.pointerKey p) = g.object? p) ∧
      ∀ e, e ∈ docsAt results (levelPool answers size results pool (edgesOf frontier))
          (some edge.path) ↔
        ∃ d ∈ docsAt results pool edge.parent, ∃ p ∈ g.references d edge.key,
          g.object? p = some e := by
  rw [← parents_eq]
  exact reaches_levelPool hg hsize hapart.nodup_edgesOf
    (fun p hp => hplain.referenced n p ((h.mem_levelTargets hg).1 hp)) hedge

/-- **The next frontier** is populated by the level. -/
theorem Populated.next : Populated g results tree (n + 1) (nextFrontier frontier)
    (levelPool answers size results pool (edgesOf frontier)) where
  sound node hnode e he := by
    obtain ⟨hnode, -⟩ := mem_nextFrontier.1 hnode
    obtain ⟨parent, hparent, m, hm, rfl⟩ := mem_childNodes.1 hnode
    have hedge := mem_edgesOf.2 ⟨parent, hparent, m, hm, rfl⟩
    obtain ⟨d, hd, p, hp, he⟩ := ((h.reaches hg hsize hplain hapart hedge).2 e).1 he
    exact .step (h.sound parent hparent d hd) hm hp he
  complete t e he hchildren := by
    cases he with
    | @step _ t' _ d _ key p hparent hchild hp he =>
      obtain ⟨node, hnode, rfl, hd⟩ := h.complete t' d hparent (isEmpty_eq_false hchild)
      have hedge := mem_edgesOf.2 ⟨node, hnode, _, hchild, rfl⟩
      refine ⟨_, mem_nextFrontier.2 ⟨mem_childNodes.2 ⟨node, hnode, _, hchild, rfl⟩, hchildren⟩,
        rfl, ?_⟩
      exact ((h.reaches hg hsize hplain hapart hedge).2 e).2 ⟨d, hd, p, hp, he⟩

end Step

/-! ### Links -/

theorem sorted_of_parent (hsorted : ∀ d ∈ results, Members.Sorted d.fields) {t : IncludeTree}
    {d : Document} (h : g.Parent results tree n t d) : Members.Sorted d.fields := by
  cases h with
  | root hd => exact hsorted d hd
  | step _ _ _ he => exact g.sorted he

/-- Documents below the results agree on their relations: each is the object of its reference. -/
theorem coherent_of_parents (hcoherent : ∀ m ∈ tree.children, Coherent m.1 results)
    {t : IncludeTree} {docs : List Document} (h : ∀ d ∈ docs, g.Parent results tree n t d)
    {m : String × IncludeTree} (hm : m ∈ t.children) : Coherent m.1 docs := by
  intro d hd e he hpointer target target' htarget htarget'
  have hparent := h d hd
  have hparent' := h e he
  cases hparent with
  | root hresult =>
    cases hparent' with
    | root hresult' =>
      exact hcoherent m hm d hresult e hresult' hpointer target target' htarget htarget'
  | step _ _ _ hobject =>
    cases hparent' with
    | step _ _ _ hobject' =>
      rw [← g.pointer_eq hobject, hpointer, g.pointer_eq hobject'] at hobject
      obtain rfl := Option.some.inj (hobject.symm.trans hobject')
      exact Value.relation.inj (Option.some.inj (htarget.symm.trans htarget'))

/-! ### All levels -/

theorem sorted_levelsPool (hs : Members.Sorted pool) (levels : List (List IncludeEdge)) :
    Members.Sorted (levelsPool answers size results pool levels) :=
  List.foldlRecOn (motive := fun pool : Pool => Members.Sorted pool) levels _ hs
    fun _ hs _ _ => Members.sorted_insertAll hs _

/-- Some levels leave what was reached along paths above them. -/
theorem lookup_levelsPool (hapart : Apart n frontier) (depth : Nat) {path : String}
    (hpath : pathDepth (some path) ≤ n) :
    (levelsPool answers size results pool (levelsFrom depth frontier)).lookup path =
      pool.lookup path := by
  induction depth generalizing n frontier pool with
  | zero => rfl
  | succ depth ih =>
    rw [levelsFrom, levelsPool, List.foldl_cons, ← levelsPool, ih hapart.next (by omega)]
    refine lookup_levelPool_of_ne fun edge hedge heq => ?_
    have := (hapart.depth_edge hedge).2
    rw [heq] at this
    omega

theorem docsAt_levelsPool (hapart : Apart n frontier) (depth : Nat) {parent : Option String}
    (hparent : pathDepth parent ≤ n) :
    docsAt results (levelsPool answers size results pool (levelsFrom depth frontier)) parent =
      docsAt results pool parent := by
  cases parent with
  | none => rfl
  | some path => rw [docsAt, docsAt, reachedAt, reachedAt, lookup_levelsPool hapart depth hparent]

/-- **All levels** reach, along every edge, what the documents at its start refer to. -/
theorem followed_levelsPool (hg : g.AnsweredBy answers) (hsize : 1 ≤ size)
    (hplain : g.Plain results tree) (hsorted : ∀ d ∈ results, Members.Sorted d.fields)
    (hcoherent : ∀ m ∈ tree.children, Coherent m.1 results)
    (hapart : Apart n frontier) (h : Populated g results tree n frontier pool) (depth : Nat) :
    ∀ edge ∈ (levelsFrom depth frontier).flatten,
      ∀ d ∈ docsAt results (levelsPool answers size results pool (levelsFrom depth frontier))
          edge.parent,
        Followed g g.object?
          (reachedAt (levelsPool answers size results pool (levelsFrom depth frontier)) edge.path)
          edge.key d := by
  induction depth generalizing n frontier pool with
  | zero => exact fun edge hedge => absurd hedge List.not_mem_nil
  | succ depth ih =>
    intro edge hedge d hd
    rw [levelsFrom, levelsPool, List.foldl_cons, ← levelsPool] at hd ⊢
    rw [levelsFrom, List.flatten_cons] at hedge
    rcases List.mem_append.1 hedge with hedge | hedge
    · -- the levels below change neither the documents at this depth nor what they reached
      obtain ⟨hparent, hpath⟩ := hapart.depth_edge hedge
      rw [docsAt_levelsPool hapart.next depth (by omega),
        docsAt_levelPool hapart (by omega)] at hd
      rw [reachedAt, lookup_levelsPool hapart.next depth (by omega), ← reachedAt]
      have hobjects := (h.reaches hg hsize hplain hapart hedge).1 d hd
      obtain ⟨node, hnode, m, hm, rfl⟩ := mem_edgesOf.1 hedge
      have hparents := h.sound node hnode
      refine ⟨sorted_of_parent hsorted (hparents d hd), hobjects, fun target htarget => ?_⟩
      rw [reachedAt_levelPool hapart.nodup_edgesOf hedge, reachedAlong, parents_eq]
      exact lookup_links hg (fun d hd => hplain.parent (hparents d hd))
        (coherent_of_parents hcoherent hparents hm) hd htarget
    · exact ih hapart.next (h.next hg hsize hplain hapart) edge hedge d hd

end Includes

end ObjectEngine
