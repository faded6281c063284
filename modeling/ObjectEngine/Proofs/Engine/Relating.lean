import Mathlib.Data.Set.Basic
import Mathlib.Logic.Function.Basic
import ObjectEngine.Proofs.Engine.Owners

/-!
# Relations as sets

The relation field `f` of class `C` is a set of ids for each object of the class
(`Store.relation`). Three things happen to it (`RelationAct`): an object is created with an empty
relation, the relation of an object is edited, and an object is deleted with its relation.

The join collection is bound to the class (`Store.Bound`) if it is in order and the owners of its
edges exist. Objects that are added leave it bound; to edit the edges of owners that exist edits
their relations (`Join.follows_owners`), and to delete objects with their edges deletes them.
-/

namespace ObjectEngine

/-! ### What happens to a relation -/

/-- **What happens to a relation.** -/
inductive RelationAct
  | create (owner : String)
  /-- Ids are added, and others removed. -/
  | edit (owner : String) (add remove : List String)
  | delete (owner : String)
  deriving DecidableEq

namespace RelationAct

/-- The relations after an act, where an object that does not exist has none. -/
def apply (relation : String → Option (Set String)) : RelationAct → String → Option (Set String)
  | .create owner => Function.update relation owner (some ∅)
  | .edit owner add remove => Function.update relation owner
      ((relation owner).map fun ids => {x | (x ∈ ids ∨ x ∈ add) ∧ x ∉ remove})
  | .delete owner => Function.update relation owner none

variable {relation : String → Option (Set String)}

/-- Deletions take away their owners. -/
theorem foldl_delete (owners : List String) (o : String) :
    (owners.map delete).foldl apply relation o = if o ∈ owners then none else relation o := by
  induction owners generalizing relation with
  | nil => simp
  | cons owner rest ih =>
    rw [List.map_cons, List.foldl_cons, ih, apply]
    by_cases ho : o = owner
    · subst ho
      simp
    · simp [ho]

end RelationAct

namespace Store

variable {s t u : Store} {C f : String}

/-- **The relation of each object** of a class under a field. -/
def relation (C f : String) (s : Store) (owner : String) : Option (Set String) :=
  (s.record? C owner).map fun _ => {x | s.Links (Join.collection f C) owner x}

/-- **A join collection bound to its class**: it is in order, and the owners of its edges exist. -/
structure Bound (C f : String) (s : Store) : Prop where
  edges : s.Edges (Join.collection f C)
  owned (owner related : String) :
    s.Links (Join.collection f C) owner related → (s.record? C owner).isSome

/-- The relations depend on which objects there are and on the links. -/
theorem relation_eq_iff {owner : String} {ids : Set String} : s.relation C f owner = some ids ↔
    (s.record? C owner).isSome ∧ {x | s.Links (Join.collection f C) owner x} = ids := by
  rw [relation, Option.map_eq_some_iff, Option.isSome_iff_exists, exists_and_right]

theorem relation_congr (hsome : ∀ o, (t.record? C o).isSome = (s.record? C o).isSome)
    (hlinks : ∀ o x, t.Links (Join.collection f C) o x ↔ s.Links (Join.collection f C) o x) :
    t.relation C f = s.relation C f := by
  funext o
  refine Option.ext fun ids => ?_
  rw [relation_eq_iff, relation_eq_iff, hsome]
  simp only [hlinks]

/-- A relation that no object has yet is bound. -/
theorem Bound.of_collection_eq_empty (h : s.collection (Join.collection f C) = {}) :
    s.Bound C f := by
  have hnone (k : String) : s.record? (Join.collection f C) k = none := by
    rw [record?, h]
    rfl
  refine ⟨⟨?_, ?_, fun k r hr => ?_, fun k r hr => ?_, fun k k' r r' o x hr => ?_⟩, ?_⟩
  · rw [h]
    exact fun _ hm => absurd hm List.not_mem_nil
  · rw [h]
    exact List.Pairwise.nil
  · exact absurd ((hnone k).symm.trans hr) (by simp)
  · exact absurd ((hnone k).symm.trans hr) (by simp)
  · exact absurd ((hnone k).symm.trans hr) (by simp)
  · rintro o x ⟨r, hr, -⟩
    rw [h] at hr
    exact absurd hr List.not_mem_nil

/-- Objects that are added leave a join collection bound. -/
theorem Bound.of_collection (h : s.Bound C f) (hadvances : Advances s t)
    (hcollection : t.collection (Join.collection f C) = s.collection (Join.collection f C))
    (hsome : ∀ o, (s.record? C o).isSome → (t.record? C o).isSome) : t.Bound C f where
  edges := h.edges.congr hadvances hcollection
  owned o x hlinks := hsome o (h.owned o x ((links_congr hcollection).1 hlinks))

end Store

/-- **The relations of a class take a course**, while its join collections stay bound. -/
structure Store.Tracks (C : String) (fields : List String) (acts : String → List RelationAct)
    (s t : Store) : Prop where
  bound (f : String) : f ∈ fields → t.Bound C f
  relation (f : String) : f ∈ fields →
    t.relation C f = (acts f).foldl RelationAct.apply (s.relation C f)

namespace Store.Tracks

variable {s t u : Store} {C : String} {fields : List String} {acts acts' : String → List RelationAct}

theorem trans (h : Tracks C fields acts s t) (h' : Tracks C fields acts' t u) :
    Tracks C fields (fun f => acts f ++ acts' f) s u where
  bound := h'.bound
  relation f hf := by rw [h'.relation f hf, h.relation f hf, List.foldl_append]

theorem congr (h : Tracks C fields acts s t) (hacts : ∀ f ∈ fields, acts f = acts' f) :
    Tracks C fields acts' s t where
  bound := h.bound
  relation f hf := by rw [h.relation f hf, hacts f hf]

/-- Nothing happens to the relations if the same objects have the same edges. -/
theorem of_objects (h : ∀ f ∈ fields, s.Bound C f) (hadvances : Advances s t)
    (hcollection : ∀ f ∈ fields, t.collection (Join.collection f C) =
      s.collection (Join.collection f C))
    (hsome : ∀ o, (t.record? C o).isSome = (s.record? C o).isSome) :
    Tracks C fields (fun _ => []) s t where
  bound f hf := (h f hf).of_collection hadvances (hcollection f hf) fun o ho => (hsome o).trans ho
  relation f hf := relation_congr hsome fun _ _ => links_congr (hcollection f hf)

/-- Nothing happens to the relations if no record changes. -/
theorem of_collection (h : ∀ f ∈ fields, s.Bound C f) (hadvances : Advances s t)
    (hcollection : ∀ name, t.collection name = s.collection name) :
    Tracks C fields (fun _ => []) s t :=
  of_objects h hadvances (fun _ _ => hcollection _) fun _ => by
    rw [record?, hcollection, record?]

/-- **A new object** has an empty relation. -/
theorem of_new (h : ∀ f ∈ fields, s.Bound C f) (hadvances : Advances s t)
    (hcollection : ∀ f ∈ fields, t.collection (Join.collection f C) =
      s.collection (Join.collection f C)) {id : String} (hnew : s.record? C id = none)
    (hstored : (t.record? C id).isSome) (hothers : ∀ o, o ≠ id → t.record? C o = s.record? C o) :
    Tracks C fields (fun _ => [.create id]) s t where
  bound f hf := by
    refine (h f hf).of_collection hadvances (hcollection f hf) fun o ho => ?_
    by_cases hid : o = id
    · rwa [hid]
    · rwa [hothers o hid]
  relation f hf := by
    have hlinks (o x : String) : t.Links (Join.collection f C) o x ↔
        s.Links (Join.collection f C) o x := links_congr (hcollection f hf)
    rw [List.foldl_cons, List.foldl_nil, RelationAct.apply]
    funext o
    by_cases hid : o = id
    · subst hid
      rw [Function.update_self, relation_eq_iff]
      refine ⟨hstored, Set.eq_empty_iff_forall_notMem.2 fun x hx => ?_⟩
      have howned := (h f hf).owned o x ((hlinks o x).1 hx)
      rw [hnew] at howned
      exact absurd howned (by simp)
    · rw [Function.update_of_ne hid, Store.relation, hothers o hid, Store.relation]
      simp only [hlinks]

end Store.Tracks

/-! ### Edits of the relations of objects -/

/-- The acts of the edits of an owner on a field. -/
def Plan.RelationEdit.acts (edits : List RelationEdit) (f owner : String) : List RelationAct :=
  (edits.filter fun e => e.field = f).map fun e => .edit owner e.add e.remove

/-- **The relations of a class follow some acts**, while its objects stay. -/
structure Store.Follows (C : String) (fields : List String) (acts : String → List RelationAct)
    (s t : Store) : Prop extends Tracks C fields acts s t where
  advances : Advances s t
  objects : t.collection C = s.collection C

namespace Store.Follows

variable {s t u : Store} {C : String} {fields : List String} {acts acts' : String → List RelationAct}

theorem refl (h : ∀ f ∈ fields, s.Bound C f) : Follows C fields (fun _ => []) s s :=
  ⟨⟨h, fun _ _ => rfl⟩, .refl s, rfl⟩

theorem trans (h : Follows C fields acts s t) (h' : Follows C fields acts' t u) :
    Follows C fields (fun f => acts f ++ acts' f) s u :=
  ⟨h.toTracks.trans h'.toTracks, h.advances.trans h'.advances, h'.objects.trans h.objects⟩

end Store.Follows

namespace Join

/-- **The field of a join collection** is known from its name. -/
theorem field_of_collection {field field' className : String}
    (hclass : isClassName className = true)
    (h : collection field className = collection field' className) : field = field' := by
  have hnames := congrArg String.toList h
  rw [toList_collection, toList_collection] at hnames
  obtain ⟨hfields, -⟩ := Text.append_last_inj hnames (colon_not_mem_of_isClassName hclass)
    (colon_not_mem_of_isClassName hclass)
  exact String.toList_inj.1 (List.append_cancel_left hfields)

variable {C : String} {fields : List String} {w : World} (hC : isClassName C = true)

include hC

/-- **The step**: one edit of one owner. -/
theorem follows_apply {owner : String} {e : Plan.RelationEdit} (hs : w.store.Quiet)
    (h : ∀ f ∈ fields, w.store.Bound C f) (hfield : e.field ∈ fields)
    (howner : (w.store.record? C owner).isSome) :
    ∃ v, (apply C owner e none).run.run w = (.ok (), v) ∧
      Store.Follows C fields (fun f => Plan.RelationEdit.acts [e] f owner) w.store v.store := by
  obtain ⟨v, hrun, hrelinks⟩ := exists_run_apply hs (h _ hfield).edges owner
  have hobjects : v.store.collection C = w.store.collection C :=
    hrelinks.other C (collection_ne_of_isClassName hC e.field C).symm
  have hrecord (o : String) : v.store.record? C o = w.store.record? C o := by
    rw [Store.record?, hobjects, Store.record?]
  refine ⟨v, hrun, ⟨fun f hf => ?_, fun f hf => ?_⟩, hrelinks.advances, hobjects⟩
  · by_cases hfe : e.field = f
    · subst hfe
      refine ⟨hrelinks.edges, fun o x hlinks => ?_⟩
      rw [hrecord]
      rcases ((hrelinks.links o x).1 hlinks).1 with hlinks | ⟨rfl, -⟩
      · exact (h _ hf).owned o x hlinks
      · exact howner
    · exact (h f hf).of_collection hrelinks.advances
        (hrelinks.other _ fun heq => hfe (field_of_collection hC heq).symm) fun o ho => by rwa [hrecord]
  · by_cases hfe : e.field = f
    · subst hfe
      simp only [Plan.RelationEdit.acts, decide_true, List.filter_cons_of_pos, List.filter_nil,
        List.map_cons, List.map_nil, List.foldl_cons, List.foldl_nil, RelationAct.apply]
      funext o
      rw [Store.relation, hrecord]
      simp only [hrelinks.links]
      by_cases ho : o = owner
      · subst ho
        rw [Function.update_self, Store.relation, Option.map_map]
        refine congrArg (Option.map · _) (funext fun _ => Set.ext fun x => ?_)
        simp
      · rw [Function.update_of_ne ho, Store.relation]
        simp [ho]
    · have hacts : Plan.RelationEdit.acts [e] f owner = [] := by simp [Plan.RelationEdit.acts, hfe]
      rw [hacts, List.foldl_nil]
      refine Store.relation_congr (fun o => by rw [hrecord]) fun o x => Store.links_congr ?_
      exact hrelinks.other _ fun heq => hfe (field_of_collection hC heq).symm

variable {edits : List Plan.RelationEdit} (hs : w.store.Quiet)
  (h : ∀ f ∈ fields, w.store.Bound C f) (hfields : ∀ e ∈ edits, e.field ∈ fields)

include hs h hfields

/-- All edits of one owner. -/
theorem follows_edits (owner : String) (howner : (w.store.record? C owner).isSome) :
    ∃ v, (forIn edits PUnit.unit fun e _ => do
        apply C owner e none
        pure (.yield ⟨⟩) : StoreAction PUnit).run.run w = (.ok ⟨⟩, v) ∧
      Store.Follows C fields (fun f => Plan.RelationEdit.acts edits f owner) w.store v.store := by
  refine StoreAction.exists_run_forIn (P := fun done => Store.Follows C fields
    (fun f => Plan.RelationEdit.acts done f owner) w.store) (fun done e later hedits u hu => ?_)
    (.refl h)
  obtain ⟨v, hrun, hv⟩ := follows_apply hC (hs.advances hu.advances) hu.bound
    (hfields e (by simp [hedits])) (by rwa [Store.record?, hu.objects])
  refine ⟨v, StoreAction.run_bind_eq_ok.2 ⟨⟨⟩, v, hrun, rfl⟩, ?_⟩
  have hacts (f : String) : Plan.RelationEdit.acts (done ++ [e]) f owner =
      Plan.RelationEdit.acts done f owner ++ Plan.RelationEdit.acts [e] f owner := by
    rw [Plan.RelationEdit.acts, List.filter_append, List.map_append]
    rfl
  simp only [hacts]
  exact hu.trans hv

/-- **All edits of all owners.** -/
theorem follows_owners {owners : List String}
    (howners : ∀ owner ∈ owners, (w.store.record? C owner).isSome) :
    ∃ v, (forIn owners PUnit.unit fun owner _ => do
        forIn edits PUnit.unit fun e _ => do
          apply C owner e none
          pure (.yield ⟨⟩)
        pure (.yield ⟨⟩) : StoreAction PUnit).run.run w = (.ok ⟨⟩, v) ∧
      Store.Follows C fields (fun f => owners.flatMap (Plan.RelationEdit.acts edits f))
        w.store v.store := by
  refine StoreAction.exists_run_forIn (P := fun done => Store.Follows C fields
    (fun f => done.flatMap (Plan.RelationEdit.acts edits f)) w.store)
    (fun done owner later hdone u hu => ?_) (.refl h)
  have howner : (u.store.record? C owner).isSome := by
    rw [Store.record?, hu.objects]
    exact howners owner (by simp [hdone])
  obtain ⟨v, hrun, hv⟩ :=
    follows_edits hC (hs.advances hu.advances) hu.bound hfields owner howner
  refine ⟨v, StoreAction.run_bind_eq_ok.2 ⟨⟨⟩, v, hrun, rfl⟩, ?_⟩
  simp only [List.flatMap_append, List.flatMap_singleton]
  exact hu.trans hv

end Join

/-! ### Deletions -/

/-- **The edges of some owners are gone** from the join collections of some fields. -/
structure Store.Unlinks (C : String) (owners fields done : List String) (s t : Store) : Prop where
  advances : Advances s t
  objects : t.collection C = s.collection C
  edges (f : String) : f ∈ fields → t.Edges (Join.collection f C)
  links (f : String) : f ∈ fields → ∀ o x, t.Links (Join.collection f C) o x ↔
    s.Links (Join.collection f C) o x ∧ (f ∈ done → o ∉ owners)

/-- **To delete the relations of some owners** takes away their edges, field by field. -/
theorem Join.exists_run_unlink {C : String} (hC : isClassName C = true) {w : World}
    (hs : w.store.Quiet) {fields : List String}
    (h : ∀ f ∈ fields, w.store.Edges (collection f C)) (owners : List String) :
    ∃ v, (forIn fields PUnit.unit fun field _ => do
        let _ ← removeOwners C field owners none
        pure (.yield ⟨⟩) : StoreAction PUnit).run.run w = (.ok ⟨⟩, v) ∧
      Store.Unlinks C owners fields fields w.store v.store := by
  refine StoreAction.exists_run_forIn (P := fun done => Store.Unlinks C owners fields done w.store)
    (fun done g later hfields u hu => ?_) ⟨.refl _, rfl, h, fun f _ o x => by simp⟩
  have hg : g ∈ fields := by simp [hfields]
  obtain ⟨n, v, hrun, hrelinks⟩ :=
    exists_run_removeOwners (hs.advances hu.advances) (hu.edges g hg) owners
  refine ⟨v, StoreAction.run_bind_eq_ok.2 ⟨n, v, hrun, rfl⟩, hu.advances.trans hrelinks.advances,
    (hrelinks.other C (collection_ne_of_isClassName hC g C).symm).trans hu.objects,
    fun f hf => ?_, fun f hf o x => ?_⟩
  · by_cases hfg : f = g
    · exact hfg ▸ hrelinks.edges
    · exact (hu.edges f hf).congr hrelinks.advances
        (hrelinks.other _ fun heq => hfg (field_of_collection hC heq))
  · by_cases hfg : f = g
    · subst hfg
      rw [hrelinks.links, hu.links f hf]
      simp only [List.mem_append, List.mem_singleton, or_true, true_imp_iff]
      tauto
    · rw [Store.links_congr (hrelinks.other _ fun heq => hfg (field_of_collection hC heq)),
        hu.links f hf]
      simp [hfg]

end ObjectEngine
