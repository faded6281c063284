import ObjectEngine.Proofs.Engine.Recording
import ObjectEngine.Proofs.Engine.Writes
import ObjectEngine.Proofs.Store.Succeeding
import ObjectEngine.Proofs.Stored.Layout

/-!
# A run that deletes fields

To delete fields of a class changes its schema, its indexes in the store, the records of its
indexes, the edges of its relations and its records, one call after another. Where a run stands
between two calls is said by `Indexing.Partway`: what has become of each of these so far, and that
nothing else has changed. Each loop of the run is followed by a fold over what it goes through, so
a run that succeeds has done all there is to do (`Indexing.leaves_deleteFields_ran`), whatever
faults are due.
-/

namespace ObjectEngine

namespace Indexing

open Store (SameContent)

variable {className : String} {s t u : Store} {r r' : Record} {indexes : Members StoreIndex}
  {change : Record → Record} {dropped : List String}

/-! ### Step by step -/

/-- The id of a record stays where only fields and indexes are removed. -/
theorem lookup_idKey_unsetPath {path : String}
    (hpath : (Text.split '.' path).head? ≠ some Record.idKey) (r : Record) :
    (r.unsetPath path).lookup Record.idKey = r.lookup Record.idKey := by
  obtain ⟨s, rest, hsplit⟩ := List.exists_cons_of_ne_nil (Text.split_ne_nil path)
  rw [hsplit] at hpath
  have hne : Record.idKey ≠ s := fun he => hpath (congrArg some he.symm)
  rw [Record.unsetPath, hsplit, Record.lookup_unsetAlong_cons, if_neg hne]

theorem head?_split_indexPath (name : String) :
    (Text.split '.' (Catalog.indexPath name)).head? ≠ some Record.idKey := by
  rw [Catalog.split_indexPath]
  exact fun h => absurd (Option.some.inj h) (by decide)

/-- **Partway through deleting fields** of a class: what the record of its schema and its indexes
have become, what has been done to each of its records, and which collections have been dropped. The
rest is as it was. -/
structure Partway (className : String) (s : Store) (r : Record) (indexes : Members StoreIndex)
    (change : Record → Record) (dropped : List String) (t : Store) : Prop where
  keyed : Catalog.Keyed t
  schema : Catalog.record? t className = some r
  named : r.lookup Record.idKey = some (.string className)
  indexes : (t.collection className).indexes = indexes
  record (id : String) : t.record? className id = (s.record? className id).map change
  other (name : String) : name ≠ Catalog.collection → name ≠ className →
    t.collection name = if name ∈ dropped then {} else s.collection name

namespace Partway

theorem stable : Store.Stable (Partway className s r indexes change dropped) := fun _ _ hsame h =>
  { keyed := (Catalog.still_of_sameContent hsame).keyed h.keyed
    schema := by
      rw [Catalog.record?, Store.record?, hsame.collection]
      exact h.schema
    named := h.named
    indexes := by rw [hsame.collection, h.indexes]
    record := fun id => by
      rw [Store.record?, hsame.collection]
      exact h.record id
    other := fun name hschemas hclass => by rw [hsame.collection, h.other name hschemas hclass] }

theorem loaded (h : Partway className s r indexes change dropped t) :
    Catalog.loaded t className = (Catalog.ofRecord r).map some :=
  Catalog.loaded_of_record h.schema (h.named ▸ by simp)

variable (h : Partway className s r indexes change dropped t)
  (hclass : Catalog.collection ≠ className)

include h hclass

/-- The schema is changed. -/
theorem edit {e : Edit} (he : Catalog.KeepsName className e) (hedit : e.apply false r = .ok r')
    (hnamed : r'.lookup Record.idKey = some (.string className)) {n : Nat}
    (hrun : (t.run (.update Catalog.collection (.byId className) e none)).outcome = .ok n) :
    Partway className s r' indexes change dropped
      (t.run (.update Catalog.collection (.byId className) e none)).store := by
  have hdone := Store.run_ok hrun
  have hother (name : String) (hname : name ≠ Catalog.collection) :
      (t.run (.update Catalog.collection (.byId className) e none)).store.collection name =
        t.collection name := (hdone.collection name).trans (if_neg hname)
  have hkeyed := (Catalog.alters_of_edit he h.keyed hdone).keyed
  refine ⟨hkeyed, ?_, hnamed, ?_, fun id => ?_, fun name hschemas hname => ?_⟩
  · have hfound : ((Predicate.byId className).eval none r).1 = .ok true := by
      rw [Store.eval_byId (h.keyed.named _ _ (Members.mem_of_lookup h.schema)), h.named]
      simp
    obtain ⟨r'', hedit', hr''⟩ := Store.record?_run_update hrun h.schema hfound
    obtain rfl := Except.ok.inj (hedit.symm.trans hedit')
    exact hr''
  · rw [hother _ hclass.symm, h.indexes]
  · rw [Store.record?, hother _ hclass.symm]
    exact h.record id
  · rw [hother _ hschemas, h.other name hschemas hname]

/-- The record of an index is removed. -/
theorem forgetIndex {name : String} {n : Nat} (hrun : (t.run (.update Catalog.collection
      (.byId className) { unset := [Catalog.indexPath name] } none)).outcome = .ok n) :
    Partway className s (r.unsetPath (Catalog.indexPath name)) indexes change dropped
      (t.run (.update Catalog.collection (.byId className)
        { unset := [Catalog.indexPath name] } none)).store :=
  h.edit hclass (Catalog.keepsName_unset className _) (Edit.apply_unset _ _)
    ((lookup_idKey_unsetPath (head?_split_indexPath name) r).trans h.named) hrun

/-- The indexes of the class are changed. -/
theorem reindexed {indexes' : Members StoreIndex}
    (hother : ∀ n, n ≠ className → u.collection n = t.collection n)
    (hsame : u.collection className = { t.collection className with indexes := indexes' }) :
    Partway className s r indexes' change dropped u := by
  have hstill : Catalog.Still t u := by
    rw [Catalog.Still, hother _ hclass]
  refine ⟨hstill.keyed h.keyed, ?_, h.named, ?_, fun id => ?_, fun n hschemas hn => ?_⟩
  · rw [Catalog.record?, Store.record?, hother _ hclass]
    exact h.schema
  · rw [hsame]
  · rw [Store.record?, hsame]
    exact h.record id
  · rw [hother _ hn, h.other n hschemas hn]

/-- An index is dropped. -/
theorem dropIndex {name : String} {a : Unit}
    (hrun : (t.run (.dropIndex className name)).outcome = .ok a) :
    Partway className s r (Members.erase name indexes) change dropped
      (t.run (.dropIndex className name)).store := by
  have hdone := Store.run_ok hrun
  refine h.reindexed hclass (fun n hn => (hdone.collection n).trans (if_neg hn)) ?_
  rw [← h.indexes]
  exact (hdone.collection className).trans (if_pos rfl)

omit hclass in
/-- A collection of edges is dropped. -/
theorem drop {name : String} (hschemas : Catalog.collection ≠ name) (hname : className ≠ name)
    {a : Bool} (hrun : (t.run (.drop name)).outcome = .ok a) :
    Partway className s r indexes change (dropped ++ [name]) (t.run (.drop name)).store := by
  have hcollection (n : String) : (t.run (.drop name)).store.collection n =
      if n = name then {} else t.collection n := (Store.run_ok hrun).collection n
  have hstill : Catalog.Still t (t.run (.drop name)).store := by
    rw [Catalog.Still, hcollection, if_neg hschemas]
  refine ⟨hstill.keyed h.keyed, ?_, h.named, ?_, fun id => ?_, fun n hn hn' => ?_⟩
  · rw [Catalog.record?, Store.record?, hcollection, if_neg hschemas]
    exact h.schema
  · rw [hcollection, if_neg hname, h.indexes]
  · rw [Store.record?, hcollection, if_neg hname]
    exact h.record id
  · rw [hcollection, h.other n hn hn']
    by_cases heq : n = name <;> simp [heq]

/-- The records of the class are changed. -/
theorem update {e : Edit} {change' : Record → Record}
    (he : ∀ r, e.apply false r = .ok (change' r)) {n : Nat}
    (hrun : (t.run (.update className .all e none)).outcome = .ok n) :
    Partway className s r indexes (change' ∘ change) dropped
      (t.run (.update className .all e none)).store := by
  have hdone := Store.run_ok hrun
  have hother (n : String) (hn : n ≠ className) :
      (t.run (.update className .all e none)).store.collection n = t.collection n :=
    (hdone.collection n).trans (if_neg hn)
  have hstill : Catalog.Still t (t.run (.update className .all e none)).store := by
    rw [Catalog.Still, hother _ hclass]
  refine ⟨hstill.keyed h.keyed, ?_, h.named, ?_, fun id => ?_, fun n hschemas hn => ?_⟩
  · rw [Catalog.record?, Store.record?, hother _ hclass]
    exact h.schema
  · exact (congrArg Collection.indexes ((hdone.collection className).trans (if_pos rfl))).trans
      h.indexes
  · have hid := h.record id
    cases hr : s.record? className id with
    | none =>
      rw [hr] at hid
      exact Store.record?_run_update_none hrun hid
    | some current =>
      rw [hr] at hid
      obtain ⟨next, hnext, hrecord⟩ := Store.record?_run_update hrun hid Predicate.eval_all
      obtain rfl := Except.ok.inj ((he _).symm.trans hnext)
      exact hrecord
  · rw [hother _ hn, h.other n hschemas hn]

end Partway

/-! ### What is to be deleted -/

variable {schema : ClassSchema} {names : List String} {keys : NameSet}

/-- **The stored keys** of fields that are all declared: those of the fields that are no
relations. -/
theorem storedKeys_eq_ok (h : storedKeys schema className names = .ok keys) :
    (∀ name ∈ names, schema.hasField name = true) ∧ ∀ key, key ∈ keys ↔
      ∃ name ∈ names, isRelationField schema name = false ∧ Stored.keyPath schema name = key := by
  suffices (∀ name ∈ names, schema.hasField name = true) ∧ ∀ key, key ∈ keys ↔
      key ∈ ([] : NameSet) ∨ ∃ name ∈ names, isRelationField schema name = false ∧
        Stored.keyPath schema name = key by
    simpa using this
  unfold storedKeys at h
  generalize ([] : NameSet) = start at h ⊢
  induction names generalizing start with
  | nil =>
    obtain rfl := Except.ok.inj h
    simp
  | cons name rest ih =>
    rw [List.foldlM_cons] at h
    cases hty : schema.fieldType? name with
    | none =>
      rw [hty] at h
      exact absurd h (by simp [bind, Except.bind])
    | some ty =>
      rw [hty] at h
      obtain ⟨hdeclared, hkeys⟩ := ih _ h
      refine ⟨List.forall_mem_cons.2 ⟨by rw [ClassSchema.hasField, hty]; rfl, hdeclared⟩,
        fun key => ?_⟩
      have hrelation : isRelationField schema name = ty.isRelation := by
        rw [isRelationField, hty]
        rfl
      rw [hkeys, List.exists_mem_cons_iff, hrelation]
      cases ty.isRelation with
      | true => simp
      | false =>
        simp only [Bool.false_eq_true, if_false, NameSet.mem_insert_iff, true_and]
        rw [eq_comm, or_left_comm, or_assoc]

/-! ### The run -/

/-- A record without what stands at some paths. -/
def unsetAll (paths : List String) (r : Record) : Record :=
  paths.foldl (fun r p => r.unsetPath p) r

/-- The record of a schema without the indexes of which all fields are deleted. -/
def forgetCovered (names : List String) (indexed : Members IndexDescriptor) (r : Record) : Record :=
  indexed.foldl (fun r m =>
    if m.2.fields.all fun f => names.contains f.1 then r.unsetPath (Catalog.indexPath m.1) else r) r

/-- The indexes without those that have keys of deleted fields only. -/
def dropCovered (keys : NameSet) (existing : List StoreIndex) (indexes : Members StoreIndex) :
    Members StoreIndex :=
  existing.foldl (fun indexes i =>
    if i.keys.all fun k => keys.contains (Text.root k.1) then Members.erase i.name indexes
    else indexes) indexes

/-- **What is unset** at paths of one piece. -/
theorem lookup_unsetAll {paths : List String} (hpaths : ∀ p ∈ paths, '.' ∉ p.toList) (r : Record)
    (key : String) :
    (unsetAll paths r).lookup key = if key ∈ paths then none else r.lookup key := by
  unfold unsetAll
  induction paths generalizing r with
  | nil => simp
  | cons p rest ih =>
    obtain ⟨hp, hrest⟩ := List.forall_mem_cons.1 hpaths
    rw [List.foldl_cons, ih hrest, Record.unsetPath, Text.split_of_not_mem hp,
      Record.lookup_unsetAlong_cons, if_pos rfl]
    by_cases hk : key = p <;> simp [hk]

theorem lookup_idKey_unsetAll (hnames : ∀ name ∈ names, isIdentifier name = true) (r : Record) :
    (unsetAll names r).lookup Record.idKey = r.lookup Record.idKey := by
  rw [lookup_unsetAll fun p hp => not_mem_of_isIdentifier (hnames p hp), if_neg]
  exact fun h => absurd (hnames _ h) (by decide)

variable {cache : SchemaCache}

/-- **The fields are removed** from the schema. -/
theorem leaves_removeFields (hclass : Catalog.collection ≠ className)
    (hnames : ∀ name ∈ names, isIdentifier name = true)
    (h : Partway className s r indexes change dropped t) :
    (Catalog.removeFields className names).Leaves
      (fun _ u => (∀ name ∈ names, name ∉ defaultFields) ∧
        Partway className s (unsetAll (NameSet.ofList names) r) indexes change dropped u)
      (SameContent t) t := by
  have hsame {u : Store} (hu : SameContent t u) : Partway className s r indexes change dropped u :=
    Partway.stable _ _ hu h
  refine .ensures_bind (I := SameContent t) (fun _ _ hnext hu => hu.trans hnext)
    (Catalog.ensures_require_of (fun _ _ hnext hu => hu.trans hnext)
      fun _ hu => ⟨(hsame hu).keyed, (hsame hu).loaded⟩) (.refl t) (fun _ hu => hu)
    fun schema t' _ ht' => ?_
  refine .outcome_bind ht' fun next hnext => ?_
  have hdefault : ∀ name ∈ names, name ∉ defaultFields := by
    rw [ClassSchema.foldlM_removeField] at hnext
    split at hnext
    · exact absurd hnext (by simp)
    · rename_i hfind
      simpa using hfind
  have hunset : ∀ name ∈ NameSet.ofList names, isIdentifier name = true :=
    fun name hname => hnames name (NameSet.mem_ofList.1 hname)
  refine .bind (.bind (.ran (fun u n hu hrun => ?_) fun u hu => ht'.trans hu))
  exact .pure (.pure ⟨hdefault, (hsame (ht'.trans hu)).edit hclass
    (Catalog.keepsName_unset className _) (Edit.apply_unset _ _)
    ((lookup_idKey_unsetAll hunset r).trans h.named) hrun⟩)

section

variable (h : Partway className s r indexes change dropped t)
  (hclass : Catalog.collection ≠ className) {E : SchemaCache → Store → Prop}

include h hclass

/-- **The indexes that are covered** are dropped one by one. -/
theorem leaves_dropIndexes (keys : NameSet) (existing : List StoreIndex)
    (hE : ∀ done, (∀ i ∈ done, i ∈ existing) → ∀ u,
      Partway className s r (dropCovered keys done indexes) change dropped u → E cache u) :
    Action.Leaves
      (fun _ cache' t => cache' = cache ∧
        Partway className s r (dropCovered keys existing indexes) change dropped t)
      E (forIn existing PUnit.unit fun i _ =>
        if i.keys.all fun k => keys.contains (Text.root k.1) then do
          (Program.call (.dropIndex className i.name) : StoreAction Unit)
          return .yield ⟨⟩
        else return .yield ⟨⟩ : Action PUnit) cache t := by
  refine .forIn (I := fun done cache' t => cache' = cache ∧
    Partway className s r (dropCovered keys done indexes) change dropped t)
    (fun done hdone i _ cache' t ht => ?_) ⟨rfl, h⟩
  obtain ⟨rfl, ht⟩ := ht
  rw [dropCovered, List.foldl_append, List.foldl_cons, List.foldl_nil, ← dropCovered]
  refine .ite (fun hcovered => ?_) fun hcovered => ?_
  · refine .bind (.lift (.ran (c := .dropIndex className i.name)
      (fun t' a hsame hrun => .pure ⟨rfl, rfl, ?_⟩)
      fun u hu => hE done hdone u (Partway.stable _ _ hu ht)))
    rw [if_pos hcovered]
    exact (Partway.stable _ _ hsame ht).dropIndex hclass hrun
  · exact .pure ⟨rfl, rfl, by rwa [if_neg hcovered]⟩

/-- **The records of covered indexes** are removed one by one. -/
theorem leaves_forgetIndexes (names : List String) (indexed : Members IndexDescriptor)
    (hE : ∀ done, (∀ m ∈ done, m ∈ indexed) → ∀ u,
      Partway className s (forgetCovered names done r) indexes change dropped u → E cache u) :
    Action.Leaves
      (fun _ cache' t => cache' = cache ∧
        Partway className s (forgetCovered names indexed r) indexes change dropped t)
      E (forIn indexed PUnit.unit fun m _ =>
        if m.2.fields.all fun f => names.contains f.1 then do
          (Catalog.forgetIndex className m.1 : StoreAction Unit)
          return .yield ⟨⟩
        else return .yield ⟨⟩ : Action PUnit) cache t := by
  refine .forIn (I := fun done cache' t => cache' = cache ∧
    Partway className s (forgetCovered names done r) indexes change dropped t)
    (fun done hdone m _ cache' t ht => ?_) ⟨rfl, h⟩
  obtain ⟨rfl, ht⟩ := ht
  rw [forgetCovered, List.foldl_append, List.foldl_cons, List.foldl_nil, ← forgetCovered]
  refine .ite (fun hcovered => ?_) fun hcovered => ?_
  · refine .bind (.lift (.bind (.ran (c := .update Catalog.collection (.byId className)
      { unset := [Catalog.indexPath m.1] } none)
      (fun t' a hsame hrun => .pure (.pure ⟨rfl, rfl, ?_⟩))
      fun u hu => hE done hdone u (Partway.stable _ _ hu ht))))
    rw [if_pos hcovered]
    exact (Partway.stable _ _ hsame ht).forgetIndex hclass hrun
  · exact .pure ⟨rfl, rfl, by rwa [if_neg hcovered]⟩

omit hclass in
/-- **The edges of relations** are dropped one field after another. -/
theorem leaves_drops (hvalid : isClassName className = true) (schema : ClassSchema)
    (names : List String)
    (hE : ∀ dropped u, Partway className s r indexes change dropped u → E cache u) :
    Action.Leaves
      (fun _ cache' t => cache' = cache ∧ Partway className s r indexes change (dropped ++
        (names.filter fun name => isRelationField schema name).map (Join.collection · className)) t)
      E (forIn names PUnit.unit fun name _ =>
        if isRelationField schema name then do
          let _ ← (Join.drop className name : StoreAction Bool)
          return .yield ⟨⟩
        else return .yield ⟨⟩ : Action PUnit) cache t := by
  refine .forIn (I := fun done cache' t => cache' = cache ∧
    Partway className s r indexes change (dropped ++ (done.filter fun name =>
      isRelationField schema name).map (Join.collection · className)) t)
    (fun done _ name _ cache' t ht => ?_) ⟨rfl, by simpa using h⟩
  obtain ⟨rfl, ht⟩ := ht
  rw [List.filter_append, List.map_append, ← List.append_assoc]
  refine .ite (fun hrelation => ?_) fun hrelation => ?_
  · refine .bind (.lift (.ran (c := .drop (Join.collection name className))
      (fun t' a hsame hrun => .pure ⟨rfl, rfl, ?_⟩)
      fun u hu => hE _ u (Partway.stable _ _ hu ht)))
    rw [List.filter_cons_of_pos hrelation]
    exact (Partway.stable _ _ hsame ht).drop (Join.collection_ne_schemas name className)
      (Join.collection_ne_of_isClassName hvalid name className).symm hrun
  · refine .pure ⟨rfl, rfl, ?_⟩
    rwa [List.filter_cons_of_neg hrelation, List.filter_nil, List.map_nil, List.append_nil]

end

/-- **Fields that are about to be deleted**: the record of the schema, what is read from it, and the
stored keys. -/
structure Begun (className : String) (s : Store) (names : List String) (r : Record)
    (schema : ClassSchema) (keys : NameSet) : Prop where
  record : Catalog.record? s className = some r
  named : r.lookup Record.idKey = some (.string className)
  before : Catalog.ofRecord r = .ok schema
  valid : isClassName className = true
  stored : storedKeys schema className names = .ok keys
  deletable : ∀ name ∈ names, name ∉ defaultFields

/-- **The store in which fields have been deleted** from a class: what has become of the record of
its schema, of its indexes, of its records and of the edges of its relations. -/
structure Ran (className : String) (s : Store) (names : List String) (r : Record)
    (schema : ClassSchema) (keys : NameSet) (after : ClassSchema) (t : Store) : Prop
    extends Begun className s names r schema keys where
  after : Catalog.ofRecord (forgetCovered names schema.indexes
    (unsetAll (NameSet.ofList names) r)) = .ok after
  partway : Partway className s
    (forgetCovered names schema.indexes (unsetAll (NameSet.ofList names) r))
    (dropCovered keys (Members.values (s.collection className).indexes)
      (s.collection className).indexes)
    (unsetAll keys)
    ((names.filter fun name => isRelationField schema name).map (Join.collection · className)) t

/-- **Where deleting fields stops short**: nothing has been done, or some indexes have been dropped,
or all of those and the records of some have been removed. -/
inductive Stops (className : String) (s : Store) (names : List String) (t : Store) : Prop
  | untouched (h : SameContent s t)
  | midway (gone : List StoreIndex) (forgotten : Members IndexDescriptor) {r : Record}
      {schema : ClassSchema} {keys : NameSet} {change : Record → Record} {dropped : List String}
      (h : Begun className s names r schema keys)
      (hgone : ∀ i ∈ gone, i ∈ Members.values (s.collection className).indexes)
      (hforgotten : ∀ m ∈ forgotten, m ∈ schema.indexes)
      (horder : forgotten ≠ [] → gone = Members.values (s.collection className).indexes)
      (hpartway : Partway className s
        (forgetCovered names forgotten (unsetAll (NameSet.ofList names) r))
        (dropCovered keys gone (s.collection className).indexes) change dropped t)

/-- Before anything is done. -/
theorem Partway.start (hkeyed : Catalog.Keyed s) (hr : Catalog.record? s className = some r)
    (hid : r.lookup Record.idKey ≠ none) :
    Partway className s r (s.collection className).indexes id [] s where
  keyed := hkeyed
  schema := hr
  named := by
    obtain ⟨d, hd⟩ := Option.ne_none_iff_exists'.1 hid
    rw [hd, hkeyed.named _ _ (Members.mem_of_lookup hr) d hd]
  indexes := rfl
  record id := by simp
  other name _ _ := by simp

/-- **What deleting fields leaves**, where it succeeds and where it fails. What is cached of the
class is dropped at the end. -/
theorem leaves_deleteFields_ran (hkeyed : Catalog.Keyed s)
    (hnames : ∀ schema, Catalog.loaded s className = .ok (some schema) →
      ∀ name ∈ names, schema.hasField name = true → isIdentifier name = true) :
    (deleteFields className names).Leaves
      (fun after cache' t => cache' = cache.apply (.ofClass className) ∧
        ∃ r schema keys, Ran className s names r schema keys after t)
      (fun cache' t => (cache' = cache ∨ cache' = cache.apply (.ofClass className)) ∧
        Stops className s names t) cache s := by
  refine .ensures_bind (I := SameContent s) (J := (· = cache)) (fun _ _ hsame h => h.trans hsame)
    (.lift (Catalog.ensures_require_of (x := Catalog.loaded s className)
      (fun _ _ hsame h => h.trans hsame) fun t ht =>
        have hstill := Catalog.still_of_sameContent ht
        ⟨hstill.keyed hkeyed, hstill.loaded_eq className⟩)) rfl (.refl s)
    (fun _ _ hcache ht => ⟨.inl hcache, .untouched ht⟩) fun schema cache' t hloaded hcache ht => ?_
  subst hcache
  obtain ⟨r, hr, hid, hread⟩ := Catalog.ofRecord_of_loaded hloaded
  obtain ⟨-, hvalid⟩ := Catalog.className_of_loaded hkeyed hloaded
  have hclass := Catalog.collection_ne_of_isClassName hvalid
  have hstart := Partway.start hkeyed hr hid
  refine .outcome_bind ⟨.inl rfl, .untouched ht⟩ fun keys hkeys => ?_
  have hnames : ∀ name ∈ names, isIdentifier name = true := fun name hname =>
    hnames schema hloaded name hname ((storedKeys_eq_ok hkeys).1 name hname)
  refine .bind (.lift ((leaves_removeFields hclass hnames (Partway.stable _ _ ht hstart)).mono
    (fun updated t ht => ?_) fun _ hu => ⟨.inl rfl, .untouched (ht.trans hu)⟩))
  obtain ⟨hdefault, ht⟩ := ht
  have hbegun : Begun className s names r schema keys :=
    ⟨hr, hstart.named, hread, hvalid, hkeys, hdefault⟩
  refine .bind (.lift (.ran (c := .listIndexes className)
    (fun t' (existing : List StoreIndex) hsame hrun => ?_)
    fun u hu => ⟨.inl rfl, .midway [] [] hbegun (List.forall_mem_nil _)
      (List.forall_mem_nil _) (absurd rfl) (Partway.stable _ _ hu ht)⟩))
  obtain ⟨hexisting, hsame'⟩ := Store.run_listIndexes hrun
  rw [hsame.collection, ht.indexes] at hexisting
  subst hexisting
  have ht := Partway.stable _ _ (hsame.trans hsame') ht
  refine .bind ((leaves_dropIndexes ht hclass keys _ fun gone hgone u hu => ⟨.inl rfl,
    .midway gone [] hbegun hgone (List.forall_mem_nil _) (absurd rfl) hu⟩).mono
    (fun _ cache t ht => ?_) fun _ _ h => h)
  obtain ⟨rfl, ht⟩ := ht
  refine .bind ((leaves_forgetIndexes ht hclass names _ fun forgotten hforgotten u hu =>
    ⟨.inl rfl, .midway _ forgotten hbegun (fun _ hi => hi) hforgotten (fun _ => rfl) hu⟩).mono
    (fun _ cache t ht => ?_) fun _ _ h => h)
  obtain ⟨rfl, ht⟩ := ht
  -- what may still fail leaves the schema and the indexes as they are from here on
  have hlate {cache' : SchemaCache} {change : Record → Record} {dropped : List String} {u : Store}
      (hcache : cache' = cache ∨ cache' = cache.apply (.ofClass className))
      (hu : Partway className s
        (forgetCovered names schema.indexes (unsetAll (NameSet.ofList names) r))
        (dropCovered keys (Members.values (s.collection className).indexes)
          (s.collection className).indexes) change dropped u) :
      (cache' = cache ∨ cache' = cache.apply (.ofClass className)) ∧ Stops className s names u :=
    ⟨hcache, .midway _ _ hbegun (fun _ hi => hi) (fun _ hm => hm) (fun _ => rfl) hu⟩
  refine .bind ((leaves_drops ht hvalid schema names fun _ u hu => hlate (.inl rfl) hu).mono
    (fun _ cache t ht => ?_) fun _ _ h => h)
  obtain ⟨rfl, ht⟩ := ht
  rw [List.nil_append] at ht
  -- the schema is read again after the records have been changed
  have hrest {t : Store} (ht : Partway className s
      (forgetCovered names schema.indexes (unsetAll (NameSet.ofList names) r))
      (dropCovered keys (Members.values (s.collection className).indexes)
        (s.collection className).indexes) (unsetAll keys)
      ((names.filter fun name => isRelationField schema name).map (Join.collection · className))
      t) :
      Action.Leaves
        (fun after cache' t => cache' = cache.apply (.ofClass className) ∧
          ∃ r schema keys, Ran className s names r schema keys after t)
        (fun cache' t => (cache' = cache ∨ cache' = cache.apply (.ofClass className)) ∧
          Stops className s names t) (do
          Action.publish (.ofClass className)
          let after ← (Catalog.load className : StoreAction (Option ClassSchema))
          return after.getD updated : Action ClassSchema) cache t := by
    refine .publish_bind (.ensures_bind Partway.stable
      (J := (· = cache.apply (.ofClass className)))
      (.lift (Catalog.ensures_load_of Partway.stable fun _ ht => ⟨ht.keyed, ht.loaded⟩)) rfl ht
      (fun _ _ hcache hu => hlate (.inr hcache) hu) fun after? _ t hafter hcache ht => .pure ?_)
    obtain ⟨after, hread', rfl⟩ := Outcome.map_eq_ok.1 hafter
    exact ⟨hcache, r, schema, keys, ⟨hbegun, hread', ht⟩⟩
  refine .ite (fun hkeys => ?_) fun hempty => hrest ?_
  · refine .bind (.lift (.ran (c := .update className .all { unset := keys } none)
      (fun t' a hsame hrun => hrest ?_)
      fun u hu => hlate (.inl rfl) (Partway.stable _ _ hu ht)))
    exact (Partway.stable _ _ hsame ht).update hclass (Edit.apply_unset keys) hrun
  · obtain rfl : keys = [] := by simpa using hempty
    exact ht

end Indexing

end ObjectEngine
