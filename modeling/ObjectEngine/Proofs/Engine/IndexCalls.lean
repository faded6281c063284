import ObjectEngine.Proofs.Engine.Coherence
import ObjectEngine.Proofs.Engine.Retaining
import ObjectEngine.Proofs.Schema.Refinement

/-!
# What calls about indexes leave

The indexes of a class are in the store and in its schema, and `Indexing.Shows` says what a store
has of both. A call that drops an index or deletes fields takes indexes out of the store before it
takes them out of the schema, so whatever it comes to, no index that is still in the store has lost
its record (`Indexing.Prunes`). For deleted fields this rests on two loops going through the same
indexes: one asks for the stored keys of an index, the other for its fields
(`Indexing.Stands.not_covered`).

A call that ensures an index goes the other way, and may stop when the index is in the store and has
no record (`Indexing.Halted`). So an index that a call finds and leaves there is recorded just if it
was, and an index that a call leaves and did not find is recorded or was to be ensured.
-/

namespace ObjectEngine

namespace StoreIndex

theorem sameDefinition_iff {i i' : StoreIndex} : i.sameDefinition i' = true ↔
    i.keys = i'.keys ∧ i.unique = i'.unique ∧ i.sparse = i'.sparse ∧
      i.collation = i'.collation := by
  simp [sameDefinition, and_assoc]

theorem sameDefinition_self (i : StoreIndex) : i.sameDefinition i = true :=
  sameDefinition_iff.2 ⟨rfl, rfl, rfl, rfl⟩

end StoreIndex

namespace Indexing

open Store (SameContent)

variable {whole stored stored' : ClassSchema} {indexes indexes' : Members StoreIndex}
  {className name : String} {s t u : Store} {cache : SchemaCache}

/-! ### Indexes that are recorded -/

/-- **The store has an index** of a class. -/
def Present (className name : String) (s : Store) : Prop :=
  ((s.collection className).indexes.lookup name).isSome = true

/-- **An index of the store is recorded**: the schema that is read has an index of this name, of the
same definition. -/
def Recorded (className name : String) (s : Store) : Prop :=
  ∃ schema i index, Catalog.recorded s className = .ok (some schema) ∧
    (s.collection className).indexes.lookup name = some i ∧
    schema.indexes.lookup name = some index ∧
    (storeIndex schema index).sameDefinition i = true

/-- **The indexes of a class**, in the store and in its schema. -/
structure Shows (whole stored : ClassSchema) (indexes : Members StoreIndex) (s : Store) : Prop where
  keyed : Catalog.Keyed s
  retained : ∃ r, Catalog.record? s whole.className = some r ∧ Catalog.Retains whole r stored
  listed : (s.collection whole.className).indexes = indexes

/-- An index that is in the schema as it is in the store. -/
def Matching (whole stored : ClassSchema) (indexes : Members StoreIndex) (name : String) : Prop :=
  ∃ i index, indexes.lookup name = some i ∧ stored.indexes.lookup name = some index ∧
    (storeIndex whole index).sameDefinition i = true

theorem Shows.recorded_eq (h : Shows whole stored indexes s) (hwhole : whole.Regular) :
    ∃ schema, Catalog.recorded s whole.className = .ok (some schema) ∧ schema.Narrows whole ∧
      ∀ name, schema.indexes.lookup name = stored.indexes.lookup name := by
  obtain ⟨r, hr, hretains⟩ := h.retained
  obtain ⟨schema, hread, hnarrows, -, hlookup⟩ := hretains.exists_ofRecord hwhole
  refine ⟨schema, ?_, hnarrows, hlookup⟩
  rw [Catalog.recorded_eq_loaded h.keyed,
    Catalog.loaded_of_record hr hretains.stores.id_ne_none, hread]
  rfl

/-- **What is recorded** shows. -/
theorem Shows.recorded_iff (h : Shows whole stored indexes s) (hwhole : whole.Regular) :
    Recorded whole.className name s ↔ Matching whole stored indexes name := by
  obtain ⟨schema, hrecorded, hnarrows, hlookup⟩ := h.recorded_eq hwhole
  constructor
  · rintro ⟨read, i, index, hread, hi, hindex, hsame⟩
    obtain rfl := Option.some.inj (Except.ok.inj (hread.symm.trans hrecorded))
    exact ⟨i, index, h.listed ▸ hi, (hlookup name).symm.trans hindex,
      hnarrows.storeIndex_eq index ▸ hsame⟩
  · rintro ⟨i, index, hi, hindex, hsame⟩
    exact ⟨schema, i, index, hrecorded, h.listed ▸ hi, (hlookup name).trans hindex,
      (hnarrows.storeIndex_eq index).symm ▸ hsame⟩

theorem Shows.present_iff (h : Shows whole stored indexes s) :
    Present whole.className name s ↔ ∃ i, indexes.lookup name = some i := by
  rw [Present, h.listed, Option.isSome_iff_exists]

theorem Shows.not_present (h : Shows whole stored indexes s) (hnew : indexes.lookup name = none) :
    ¬Present whole.className name s := fun hpresent => by
  obtain ⟨i, hi⟩ := h.present_iff.1 hpresent
  exact absurd (hnew.symm.trans hi) (by simp)

/-! ### Indexes that go -/

/-- **Indexes go**, from the store first: no index that the store still has loses its record, if it
was recorded. -/
structure Prunes (whole stored : ClassSchema) (indexes : Members StoreIndex)
    (stored' : ClassSchema) (indexes' : Members StoreIndex) : Prop where
  sorted : indexes'.Sorted
  mem (m : String × StoreIndex) : m ∈ indexes' → m ∈ indexes
  record (name : String) (index : IndexDescriptor) :
    stored'.indexes.lookup name = some index → stored.indexes.lookup name = some index
  kept (name : String) (i : StoreIndex) (index : IndexDescriptor) :
    indexes'.lookup name = some i → stored.indexes.lookup name = some index →
      (storeIndex whole index).sameDefinition i = true → stored'.indexes.lookup name = some index

namespace Prunes

theorem refl (hsorted : indexes.Sorted) : Prunes whole stored indexes stored indexes :=
  ⟨hsorted, fun _ hm => hm, fun _ _ h => h, fun _ _ _ _ h _ => h⟩

theorem lookup (h : Prunes whole stored indexes stored' indexes') (hsorted : indexes.Sorted)
    {i : StoreIndex} (hi : indexes'.lookup name = some i) : indexes.lookup name = some i :=
  hsorted.lookup_of_mem (h.mem _ (Members.mem_of_lookup hi))

/-- **An index that is still there** is recorded if it was. -/
theorem matching_iff (h : Prunes whole stored indexes stored' indexes') (hsorted : indexes.Sorted)
    {i : StoreIndex} (hi : indexes'.lookup name = some i) :
    Matching whole stored' indexes' name ↔ Matching whole stored indexes name := by
  constructor
  · rintro ⟨i', index, hi', hindex, hsame⟩
    exact ⟨i', index, h.lookup hsorted hi', h.record name index hindex, hsame⟩
  · rintro ⟨i', index, hi', hindex, hsame⟩
    obtain rfl := Option.some.inj ((h.lookup hsorted hi).symm.trans hi')
    exact ⟨i, index, hi, h.kept name i index hi hindex hsame, hsame⟩

end Prunes

/-- Some indexes have gone. -/
def Pruned (whole stored : ClassSchema) (indexes : Members StoreIndex) (t : Store) : Prop :=
  ∃ stored' indexes', Shows whole stored' indexes' t ∧
    Prunes whole stored indexes stored' indexes'

/-- Some indexes have gone, and what is cached of the class may have been dropped. -/
def PrunedFrom (cache : SchemaCache) (whole stored : ClassSchema) (indexes : Members StoreIndex)
    (cache' : SchemaCache) (t : Store) : Prop :=
  (cache' = cache ∨ cache' = cache.apply (.ofClass whole.className)) ∧
    Pruned whole stored indexes t

/-- **The indexes of a class at rest**, in the store under their names. -/
structure Stands (whole stored : ClassSchema) (indexes : Members StoreIndex) (s : Store) : Prop
    extends Shows whole stored indexes s where
  sorted : indexes.Sorted
  named (m : String × StoreIndex) : m ∈ indexes → m.2.name = m.1

theorem Partway.shows {r : Record} {change : Record → Record} {dropped : List String}
    (h : Partway whole.className s r indexes change dropped t)
    (hretains : Catalog.Retains whole r stored) : Shows whole stored indexes t :=
  ⟨h.keyed, ⟨r, h.schema, hretains⟩, h.indexes⟩

section

variable (h : Stands whole stored indexes s)

include h

theorem Stands.start : ∃ r, Partway whole.className s r indexes id [] s ∧
    Catalog.Retains whole r stored := by
  obtain ⟨r, hr, hretains⟩ := h.retained
  exact ⟨r, h.listed ▸ Partway.start h.keyed hr hretains.stores.id_ne_none, hretains⟩

theorem Stands.pruned_of_same (ht : SameContent s t) : Pruned whole stored indexes t := by
  obtain ⟨r, hstart, hretains⟩ := h.start
  exact ⟨stored, indexes, (Partway.stable _ _ ht hstart).shows hretains, .refl h.sorted⟩

/-! ### Dropping an index -/

/-- An index that is gone from the store. -/
theorem Stands.prunes_erase (name : String) :
    Prunes whole stored indexes stored (Members.erase name indexes) where
  sorted := Members.sorted_erase h.sorted name
  mem _ hm := (List.mem_filter.1 hm).1
  record _ _ hindex := hindex
  kept _ _ _ _ hindex _ := hindex

/-- An index that is gone from the store and from the schema. -/
theorem Stands.prunes_erase_both (name : String) :
    Prunes whole stored indexes
      { stored with indexes := Members.erase name stored.indexes }
      (Members.erase name indexes) where
  sorted := Members.sorted_erase h.sorted name
  mem _ hm := (List.mem_filter.1 hm).1
  record other index hindex := by
    rw [Members.lookup_erase] at hindex
    split at hindex
    · exact absurd hindex (by simp)
    · exact hindex
  kept other i index hi hindex _ := by
    rw [Members.lookup_erase] at hi ⊢
    split at hi
    · exact absurd hi (by simp)
    · exact (if_neg ‹_›).trans hindex

/-- **Dropping an index** takes it out of the store, and then out of the schema. -/
theorem leaves_dropIndex (hwhole : whole.Regular) (hname : '.' ∉ name.toList) :
    (dropIndex whole.className name).Leaves (fun _ => PrunedFrom cache whole stored indexes)
      (PrunedFrom cache whole stored indexes) cache s := by
  obtain ⟨r, hstart, hretains⟩ := h.start
  have hclass := Catalog.collection_ne_of_isClassName hwhole.valid
  have hgone {u : Store} (hu : Partway whole.className s r (Members.erase name indexes) id [] u) :
      Pruned whole stored indexes u :=
    ⟨stored, _, hu.shows hretains, h.prunes_erase name⟩
  refine .bind (.lift (.ran (c := .listIndexes whole.className)
    (fun t' (existing : List StoreIndex) hsame hrun => ?_)
    fun u hu => ⟨.inl rfl, h.pruned_of_same hu⟩))
  obtain ⟨hexisting, hsame'⟩ := Store.run_listIndexes hrun
  rw [hsame.collection, h.listed] at hexisting
  subst hexisting
  have hsame := hsame.trans hsame'
  have ht := Partway.stable _ _ hsame hstart
  -- the store does not have the index any more
  have hforget {existed : Bool} {t : Store}
      (ht : Partway whole.className s r (Members.erase name indexes) id [] t) :
      Action.Leaves (fun _ => PrunedFrom cache whole stored indexes)
        (PrunedFrom cache whole stored indexes) (do
        (Catalog.forgetIndex whole.className name : StoreAction Unit)
        Action.publish (.ofClass whole.className)
        return existed : Action Bool) cache t := by
    refine .bind (.lift (.bind (.ran (c := .update Catalog.collection (.byId whole.className)
      { unset := [Catalog.indexPath name] } none) (fun t' n hsame hrun => .pure ?_)
      fun u hu => ⟨.inl rfl, hgone (Partway.stable _ _ hu ht)⟩)))
    exact .publish_bind (.pure ⟨.inr rfl, _, _,
      ((Partway.stable _ _ hsame ht).forgetIndex hclass hrun).shows (hretains.erase_index hname),
      h.prunes_erase_both name⟩)
  refine .ite (fun _ => ?_) fun hnone => hforget ?_
  · refine .bind (.lift (.ran (c := .dropIndex whole.className name)
      (fun t' a hsame hrun => hforget ((Partway.stable _ _ hsame ht).dropIndex hclass hrun))
      fun u hu => ⟨.inl rfl, h.pruned_of_same (hsame.trans hu)⟩))
  · have herase : Members.erase name indexes = indexes := Members.erase_eq_self fun m hm he => by
      refine hnone (List.any_eq_true.2 ⟨m.2, List.mem_map.2 ⟨m, hm, rfl⟩, ?_⟩)
      simpa using (h.named m hm).trans he
    rwa [herase]

/-! ### Deleting fields -/

variable {names : List String} {keys : NameSet} {schema : ClassSchema} {r : Record}

/-- What is read before fields are deleted. -/
theorem Stands.begun (hwhole : whole.Regular)
    (hbegun : Begun whole.className s names r schema keys) :
    Catalog.Retains whole r stored ∧ schema.Narrows whole ∧ schema.indexes.Sorted ∧
      ∀ name, schema.indexes.lookup name = stored.indexes.lookup name := by
  obtain ⟨r', hr', hretains⟩ := h.retained
  obtain rfl := Option.some.inj (hbegun.record.symm.trans hr')
  obtain ⟨read, hread, hnarrows, hsorted, hlookup⟩ := hretains.exists_ofRecord hwhole
  obtain rfl := Except.ok.inj (hread.symm.trans hbegun.before)
  exact ⟨hretains, hnarrows, hsorted, hlookup⟩

omit h in
/-- What is left of the indexes is what was there. -/
theorem dropCovered_subset (keys : NameSet) (gone : List StoreIndex)
    (hsorted : indexes.Sorted) : (dropCovered keys gone indexes).Sorted ∧
      ∀ m ∈ dropCovered keys gone indexes, m ∈ indexes := by
  refine List.foldlRecOn (motive := fun left : Members StoreIndex =>
    left.Sorted ∧ ∀ m ∈ left, m ∈ indexes) gone _ ⟨hsorted, fun _ hm => hm⟩ fun left hleft i _ => ?_
  split
  · exact ⟨Members.sorted_erase hleft.1 i.name, fun m hm => hleft.2 m (List.mem_filter.1 hm).1⟩
  · exact hleft

/-- **An index that is left** when all have been gone through is recorded for some field that is not
deleted, where it is recorded as it is. -/
theorem Stands.not_covered (hwhole : whole.Regular)
    (hbegun : Begun whole.className s names r schema keys)
    (hnames : ∀ name ∈ names, isIdentifier name = true) {i : StoreIndex} {index : IndexDescriptor}
    (hi : (dropCovered keys (Members.values indexes) indexes).lookup name = some i)
    (hindex : stored.indexes.lookup name = some index)
    (hsame : (storeIndex whole index).sameDefinition i = true) : ¬Covered names index := by
  intro hcovered
  obtain ⟨hretains, hnarrows, -, -⟩ := h.begun hwhole hbegun
  obtain ⟨-, k, hk, hleft⟩ := (lookup_dropCovered h.sorted h.named name i).1 hi
  rw [← (StoreIndex.sameDefinition_iff.1 hsame).1] at hk
  obtain ⟨f, hf, rfl⟩ := List.mem_map.1 hk
  have hname := hcovered f hf
  -- the field is no relation where it is declared, so its key is among those that are unset
  have hrelation : isRelationField schema f.1 = false := by
    have hwhole := hretains.unrelated name index hindex f hf
    cases hty : schema.fieldType? f.1 with
    | none => rw [isRelationField, hty, Option.any_none]
    | some ty =>
      rw [isRelationField, hnarrows.declared f.1 ty hty] at hwhole
      rwa [isRelationField, hty]
  refine hleft (((storedKeys_eq_ok hbegun.stored).2 _).2 ⟨f.1, hname, hrelation, ?_⟩)
  have hplain := hbegun.undotted_keyPath hnames hname
  rw [hnarrows.keyPath_eq] at hplain ⊢
  exact (Text.root_of_split (Text.split_of_not_mem hplain)).symm

/-- **Deleting fields** takes indexes out of the store, and then those on deleted fields only out of
the schema. -/
theorem Stands.pruned_of_midway (hwhole : whole.Regular)
    (hbegun : Begun whole.className s names r schema keys)
    (hpointers : ∀ name ∈ names, ∀ target, whole.fieldType? name ≠ some (.pointer target))
    {gone : List StoreIndex} {forgotten : Members IndexDescriptor}
    {change : Record → Record} {dropped : List String}
    (hforgotten : ∀ m ∈ forgotten, m ∈ schema.indexes)
    (horder : forgotten ≠ [] → gone = Members.values indexes)
    (hpartway : Partway whole.className s
      (forgetCovered names forgotten (unsetAll (NameSet.ofList names) r))
      (dropCovered keys gone indexes) change dropped t) : Pruned whole stored indexes t := by
  obtain ⟨hretains, hnarrows, hsorted, hlookup⟩ := h.begun hwhole hbegun
  obtain ⟨hdeclared, hkeys⟩ := storedKeys_eq_ok hbegun.stored
  have hnames : ∀ name ∈ names, isIdentifier name = true := fun name hname => by
    obtain ⟨ty, hty⟩ := Option.isSome_iff_exists.1 (hdeclared name hname)
    exact hwhole.identifier _ (Members.mem_of_lookup (hnarrows.declared name ty hty))
  have hundotted : ∀ m ∈ forgotten, '.' ∉ m.1.toList := fun m hm =>
    hretains.undotted m.1 m.2 ((hlookup m.1).symm.trans (hsorted.lookup_of_mem (hforgotten m hm)))
  obtain ⟨stored', hretains', hstored'⟩ :=
    (hretains.unset_fields hnames hpointers).forgetCovered hundotted
  obtain ⟨hsortedLeft, hsubset⟩ := dropCovered_subset keys gone h.sorted
  refine ⟨stored', _, hpartway.shows hretains', hsortedLeft, hsubset,
    fun name index hindex => ((hstored' name index).1 hindex).1,
    fun name i index hi hindex hsame =>
      (hstored' name index).2 ⟨hindex, fun m hm hcovered hname => ?_⟩⟩
  -- records are removed only when all indexes of the store have been gone through
  obtain rfl := horder (List.ne_nil_of_mem hm)
  have hm' := hsorted.lookup_of_mem (hforgotten m hm)
  rw [hname, hlookup, hindex] at hm'
  exact h.not_covered hwhole hbegun hnames hi hindex hsame (Option.some.inj hm' ▸ hcovered)

theorem leaves_deleteFields_pruned (hwhole : whole.Regular)
    (hpointers : ∀ name ∈ names, ∀ target, whole.fieldType? name ≠ some (.pointer target)) :
    (deleteFields whole.className names).Leaves (fun _ => PrunedFrom cache whole stored indexes)
      (PrunedFrom cache whole stored indexes) cache s := by
  obtain ⟨hkeyed, -, hlisted⟩ := h.toShows
  refine (leaves_deleteFields_ran hkeyed fun schema hloaded name hname hfield => ?_).mono
    (fun after cache' t ht => ?_) fun cache' t ht => ⟨ht.1, ?_⟩
  · obtain ⟨read, hrecorded, hnarrows, -⟩ := h.recorded_eq hwhole
    rw [Catalog.recorded_eq_loaded hkeyed] at hrecorded
    obtain rfl := Option.some.inj (Except.ok.inj (hrecorded.symm.trans hloaded))
    obtain ⟨ty, hty⟩ := Option.isSome_iff_exists.1 hfield
    exact hwhole.identifier _ (Members.mem_of_lookup (hnarrows.declared name ty hty))
  · obtain ⟨hcache, r, schema, keys, hran⟩ := ht
    have hpartway := hran.partway
    rw [hlisted] at hpartway
    exact ⟨.inr hcache, h.pruned_of_midway hwhole hran.toBegun hpointers (fun _ hm => hm)
      (fun _ => rfl) hpartway⟩
  · rcases ht.2 with hsame | ⟨gone, forgotten, hbegun, -, hforgotten, horder, hpartway⟩
    · exact h.pruned_of_same hsame
    · rw [hlisted] at hpartway horder
      exact h.pruned_of_midway hwhole hbegun hpointers hforgotten horder hpartway

/-! ### Ensuring an index -/

omit h in
/-- The index of a name among indexes under their names. -/
theorem find?_values (hnamed : ∀ m ∈ indexes, m.2.name = m.1) (name : String) :
    (Members.values indexes).find? (fun i => i.name = name) = indexes.lookup name := by
  induction indexes with
  | nil => rfl
  | cons m rest ih =>
    obtain ⟨key, i⟩ := m
    obtain ⟨hm, hrest⟩ := List.forall_mem_cons.1 hnamed
    obtain rfl : i.name = key := hm
    rw [Members.values, List.map_cons, List.find?_cons, List.lookup_cons, ← Members.values,
      ih hrest]
    by_cases hname : i.name = name
    · simp [hname]
    · simp [hname, beq_eq_false_iff_ne.2 (Ne.symm hname)]

variable {index : IndexDescriptor}

/-- **An index that is there**: it was there under its name with the same definition, or it has been
created and recorded. -/
inductive Ensured (whole stored : ClassSchema) (indexes : Members StoreIndex)
    (index : IndexDescriptor) (t : Store) : Prop
  | found {i : StoreIndex} (hi : indexes.lookup index.name = some i)
      (hsame : i.sameDefinition (storeIndex whole index) = true) (h : Shows whole stored indexes t)
  | created (hnew : indexes.lookup index.name = none)
      (h : Shows whole
        { stored with indexes := Members.insert index.name index stored.indexes }
        (Members.insert index.name (storeIndex whole index) indexes) t)

/-- **Where ensuring an index stops short**: nothing has been done, or the index has been created
and has no record of its own. -/
inductive Halted (whole stored : ClassSchema) (indexes : Members StoreIndex)
    (index : IndexDescriptor) (t : Store) : Prop
  | untouched (h : Shows whole stored indexes t)
  | unrecorded (hnew : indexes.lookup index.name = none)
      (h : Shows whole stored (Members.insert index.name (storeIndex whole index) indexes) t)

omit h in
/-- A field that can be indexed is no relation, in a narrower schema or in the whole one. -/
theorem isRelationField_of_checkField (hwhole : whole.Regular) (hnarrows : schema.Narrows whole)
    {field : String} (hcheck : checkField schema className field = .ok ()) :
    isRelationField whole field = false := by
  obtain ⟨hknown, hcheck⟩ := Outcome.refuse_eq_ok.1 hcheck
  obtain ⟨hrelation, -⟩ := Outcome.refuse_eq_ok.1 hcheck
  cases hwholeTy : whole.fieldType? field with
  | none => rw [isRelationField, hwholeTy, Option.any_none]
  | some ty =>
    -- a declared field is not internal, so the narrower schema has it too
    have hname := hwhole.identifier _ (Members.mem_of_lookup hwholeTy)
    have hfield : schema.hasField field = true := by
      simpa [isInternalField_of_isIdentifier hname] using hknown
    obtain ⟨ty', hty⟩ := Option.isSome_iff_exists.1 hfield
    rw [isRelationField, hty] at hrelation
    rw [isRelationField, hnarrows.declared field ty' hty]
    simpa using hrelation

/-- What is loaded of a class narrows the whole schema. -/
theorem Stands.ensures_load (hwhole : whole.Regular) :
    (Action.load whole.className).Ensures (SameContent s)
      (SchemaCache.AnswerOnly whole.className (·.Narrows whole) whole.className) := by
  obtain ⟨read, hrecorded, hnarrows, -⟩ := h.recorded_eq hwhole
  rw [Catalog.recorded_eq_loaded h.keyed] at hrecorded
  refine .mono (fun schema hloaded => ?_) (Catalog.ensures_require_of (x := .ok (some read))
    (fun _ _ hsame h => h.trans hsame) fun t ht =>
      have hstill := Catalog.still_of_sameContent ht
      ⟨hstill.keyed h.keyed, (hstill.loaded_eq whole.className).trans hrecorded⟩)
  obtain rfl := Option.some.inj (Except.ok.inj hloaded)
  exact ⟨Catalog.className_of_loaded h.keyed hrecorded, fun _ => hnarrows⟩

omit h in
/-- An index is created. -/
theorem Partway.createIndex {change : Record → Record} {dropped : List String} {i : StoreIndex}
    (h : Partway className s r indexes change dropped t)
    (hclass : Catalog.collection ≠ className) (hnew : indexes.lookup i.name = none) {a : Unit}
    (hrun : (t.run (.createIndex className i)).outcome = .ok a) :
    Partway className s r (Members.insert i.name i indexes) change dropped
      (t.run (.createIndex className i)).store := by
  have hdone := Store.run_ok hrun
  refine h.reindexed hclass
    (fun n hn => (hdone.collection n).trans (if_neg fun hboth => hn hboth.1)) ?_
  rw [← h.indexes] at hnew ⊢
  exact (hdone.collection className).trans (if_pos ⟨rfl, hnew⟩)

/-- **Ensuring an index** creates it in the store, and then records it in the schema. -/
theorem leaves_ensureIndex (hwhole : whole.Regular)
    (hcache : cache.HoldsOnly whole.className (·.Narrows whole))
    (hname : '.' ∉ index.name.toList) :
    (ensureIndex whole.className index).Leaves
      (fun _ cache' t => cache'.HoldsOnly whole.className (·.Narrows whole) ∧
        Ensured whole stored indexes index t)
      (fun cache' t => cache'.HoldsOnly whole.className (·.Narrows whole) ∧
        Halted whole stored indexes index t) cache s := by
  obtain ⟨r, hstart, hretains⟩ := h.start
  have hclass := Catalog.collection_ne_of_isClassName hwhole.valid
  have hshows {u : Store} (hu : SameContent s u) : Shows whole stored indexes u :=
    (Partway.stable _ _ hu hstart).shows hretains
  refine .ensures_bind (fun _ _ hsame h => h.trans hsame)
    (Action.ensures_schema_only (h.ensures_load hwhole)) hcache (.refl s)
    (fun _ _ hcache hu => ⟨hcache, .untouched (hshows hu)⟩)
    fun schema cache' t hschema hcache ht => ?_
  have hnarrows : schema.Narrows whole := hschema.held rfl
  have hstopped {u : Store} (hu : SameContent s u) :
      cache'.HoldsOnly whole.className (·.Narrows whole) ∧ Halted whole stored indexes index u :=
    ⟨hcache, .untouched (hshows hu)⟩
  refine .ite (fun _ => .bind (.throw (hstopped ht))) fun _ => ?_
  refine .outcome_bind (hstopped ht) fun _ hchecks => ?_
  have hunrelated : ∀ f ∈ index.fields, isRelationField whole f.1 = false := fun f hf =>
    isRelationField_of_checkField hwhole hnarrows (Outcome.forM_eq_ok.1 hchecks f hf)
  refine .bind (.lift (.ran (c := .listIndexes whole.className)
    (fun t' (existing : List StoreIndex) hsame hrun => ?_) fun u hu => hstopped (ht.trans hu)))
  obtain ⟨hexisting, hsame'⟩ := Store.run_listIndexes hrun
  rw [hsame.collection, ht.collection, h.listed] at hexisting
  subst hexisting
  have ht := (ht.trans hsame).trans hsame'
  split
  · rename_i i hfind
    have hi := (find?_values h.named index.name).symm.trans hfind
    refine .ite (fun hdefinition => .pure ⟨hcache, .found hi ?_ (hshows ht)⟩)
      fun _ => .throw (hstopped ht)
    rwa [hnarrows.storeIndex_eq] at hdefinition
  · rename_i hfind
    have hnew := (find?_values h.named index.name).symm.trans hfind
    rw [hnarrows.storeIndex_eq]
    obtain ⟨r', hset, hretains'⟩ := hretains.insert_index hname hunrelated
    refine .bind (.lift (.ran (c := .createIndex whole.className (storeIndex whole index))
      (fun t' a hsame hrun => ?_) fun u hu => hstopped (ht.trans hu)))
    have ht := (Partway.stable _ _ (ht.trans hsame) hstart).createIndex hclass hnew hrun
    refine .bind (.lift (.bind (.ran (c := .update Catalog.collection (.byId whole.className)
      { set := [(Catalog.indexPath index.name, Catalog.indexToDatum index)] } none)
      (fun t' n hsame hrun => .pure ?_)
      fun u hu => ⟨hcache, .unrecorded hnew ((Partway.stable _ _ hu ht).shows hretains)⟩)))
    have hrecorded := (Partway.stable _ _ hsame ht).edit hclass
      (Catalog.keepsName_recordIndex _ index) (Edit.apply_set_ok hset)
      (hretains'.className ▸ hretains'.stores.id) hrun
    exact .publish_bind (.pure ⟨hcache.apply _, .created hnew (hrecorded.shows hretains')⟩)

end

/-! ### What becomes of an index -/

/-- The indexes of a class are at rest. -/
def Standing (whole : ClassSchema) (s : Store) : Prop :=
  ∃ stored indexes, Stands whole stored indexes s

/-- **An index is carried over**: if the store has it, the store had it, recorded just if it is. -/
def Carried (className name : String) (s t : Store) : Prop :=
  Present className name t →
    Present className name s ∧ (Recorded className name t ↔ Recorded className name s)

section

variable (h : Stands whole stored indexes s) (hwhole : whole.Regular)

include h hwhole

theorem Stands.carried_of_lookup (ht : Shows whole stored' indexes' t)
    (hindexes : indexes'.lookup name = indexes.lookup name)
    (hstored : stored'.indexes.lookup name = stored.indexes.lookup name) :
    Carried whole.className name s t := by
  intro hpresent
  refine ⟨?_, ?_⟩
  · rw [h.present_iff, ← hindexes]
    exact ht.present_iff.1 hpresent
  · rw [ht.recorded_iff hwhole, h.recorded_iff hwhole, Matching, Matching, hindexes, hstored]

/-- **Indexes that do not go** are carried over. -/
theorem Stands.carried_of_pruned (ht : Pruned whole stored indexes t) :
    Standing whole t ∧ ∀ name, Carried whole.className name s t := by
  obtain ⟨stored', indexes', hshows, hprunes⟩ := ht
  refine ⟨⟨stored', indexes', hshows, hprunes.sorted, fun m hm => h.named m (hprunes.mem m hm)⟩,
    fun name hpresent => ?_⟩
  obtain ⟨i, hi⟩ := hshows.present_iff.1 hpresent
  refine ⟨h.present_iff.2 ⟨i, hprunes.lookup h.sorted hi⟩, ?_⟩
  rw [hshows.recorded_iff hwhole, h.recorded_iff hwhole]
  exact hprunes.matching_iff h.sorted hi

omit hwhole in
theorem Stands.insert {i : StoreIndex}
    (ht : Shows whole stored' (Members.insert i.name i indexes) t) : Standing whole t := by
  refine ⟨stored', _, ht, Members.sorted_insert h.sorted _ _, fun m hm => ?_⟩
  rcases Members.mem_insert hm with rfl | hm
  · rfl
  · exact h.named m hm

variable {index : IndexDescriptor}

omit h in
theorem Shows.recorded_of_insert (ht : Shows whole
      { stored with indexes := Members.insert index.name index stored.indexes }
      (Members.insert index.name (storeIndex whole index) indexes) t) :
    Recorded whole.className index.name t :=
  (ht.recorded_iff hwhole).2 ⟨storeIndex whole index, index,
    by rw [Members.lookup_insert, if_pos rfl], by rw [Members.lookup_insert, if_pos rfl],
    StoreIndex.sameDefinition_self _⟩

/-- **An index that is ensured** is new and recorded, and the others are carried over. -/
theorem Stands.carried_of_ensured (ht : Ensured whole stored indexes index t) :
    Standing whole t ∧ ∀ name, Carried whole.className name s t ∨
      ¬Present whole.className name s ∧ Recorded whole.className name t := by
  cases ht with
  | found _ _ ht =>
    exact ⟨⟨stored, indexes, ht, h.sorted, h.named⟩,
      fun name => .inl (h.carried_of_lookup hwhole ht rfl rfl)⟩
  | created hnew ht =>
    refine ⟨h.insert (i := storeIndex whole index) ht, fun name => ?_⟩
    by_cases hname : name = index.name
    · subst hname
      exact .inr ⟨h.not_present hnew, ht.recorded_of_insert hwhole⟩
    · exact .inl (h.carried_of_lookup hwhole ht (by rw [Members.lookup_insert, if_neg hname])
        (by rw [Members.lookup_insert, if_neg hname]))

/-- **Where ensuring an index stops short**, the others are carried over, and it is carried over or
new. -/
theorem Stands.carried_of_halted (ht : Halted whole stored indexes index t) :
    Standing whole t ∧ ∀ name, Carried whole.className name s t ∨
      ¬Present whole.className name s ∧ name = index.name := by
  cases ht with
  | untouched ht =>
    exact ⟨⟨stored, indexes, ht, h.sorted, h.named⟩,
      fun name => .inl (h.carried_of_lookup hwhole ht rfl rfl)⟩
  | unrecorded hnew ht =>
    refine ⟨h.insert (i := storeIndex whole index) ht, fun name => ?_⟩
    by_cases hname : name = index.name
    · exact .inr ⟨h.not_present (hname ▸ hnew), hname⟩
    · exact .inl (h.carried_of_lookup hwhole ht (by rw [Members.lookup_insert, if_neg hname]) rfl)

end

end Indexing

end ObjectEngine
