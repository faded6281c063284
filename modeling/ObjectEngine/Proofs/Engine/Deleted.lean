import ObjectEngine.Proofs.Engine.Deleting

/-!
# Fields that are deleted

A run that deletes fields takes them out of the record of the schema, and the schema that is read
from that record afterwards has none of them, but those that every class of the name has from the
start (`Indexing.Ran.fieldType?_after`). The store names an index by the stored keys of its fields,
and the schema by the fields themselves; the two agree which indexes are on deleted fields only, but
for relations, which have no stored key (`Indexing.Begun.mem_keys_iff`), and for records of indexes
under names with a full stop, which are not found (`Indexing.isSome_lookup_of_dotted`).

So the fields are gone from everywhere exactly if none of this is the case
(`Indexing.deletes_iff_deletable`).
-/

namespace ObjectEngine

namespace Indexing

open Catalog (storedIndexes)

variable {className : String} {schema : ClassSchema} {names : List String} {keys : NameSet}
  {s t : Store}

/-! ### Members that are erased -/

/-- **Members that are erased one by one**: the others stay. -/
theorem lookup_foldl_erase {α β : Type} (p : α → Bool) (name : α → String) (xs : List α)
    (members : Members β) (key : String) (v : β) :
    (xs.foldl (fun members x => if p x then Members.erase (name x) members else members)
      members).lookup key = some v ↔
      members.lookup key = some v ∧ ∀ x ∈ xs, p x = true → name x ≠ key := by
  induction xs generalizing members with
  | nil => simp
  | cons x rest ih =>
    rw [List.foldl_cons, ih, List.forall_mem_cons, ← and_assoc]
    refine and_congr_left fun _ => ?_
    by_cases hx : p x = true
    · rw [if_pos hx, Members.lookup_erase]
      by_cases hkey : key = name x
      · simp [hx, hkey]
      · simp [hx, hkey, Ne.symm hkey]
    · simp [hx]

/-- **Indexes that are dropped** are those of which every key is on one of some fields. -/
theorem lookup_dropCovered {indexes : Members StoreIndex} (hsorted : indexes.Sorted)
    (hnamed : ∀ m ∈ indexes, m.2.name = m.1) (name : String) (index : StoreIndex) :
    (dropCovered keys (Members.values indexes) indexes).lookup name = some index ↔
      indexes.lookup name = some index ∧ ∃ k ∈ index.keys, Text.root k.1 ∉ keys := by
  rw [dropCovered, lookup_foldl_erase]
  refine and_congr_right fun hlookup => ?_
  have hm := Members.mem_of_lookup hlookup
  have honly (i : StoreIndex) (hi : i ∈ Members.values indexes) (hname : i.name = name) :
      i = index := by
    obtain ⟨m, hm', rfl⟩ := List.mem_map.1 hi
    rw [hsorted.eq_of_key hm' hm ((hnamed m hm').symm.trans hname)]
  have hcovered : (index.keys.all fun k => keys.contains (Text.root k.1)) = true ↔
      ¬∃ k ∈ index.keys, Text.root k.1 ∉ keys := by simp
  constructor
  · intro hkept
    by_contra hnone
    exact hkept index (List.mem_map.2 ⟨_, hm, rfl⟩) (hcovered.2 hnone) (hnamed _ hm)
  · rintro hkept i hi hall hname
    obtain rfl := honly i hi hname
    exact hcovered.1 hall hkept

/-! ### Fields that are unset -/

/-- **The stored indexes** are where no field can be. -/
theorem storedIndexes_unsetAll (hnames : ∀ name ∈ names, isIdentifier name = true) (r : Record) :
    storedIndexes (unsetAll names r) = storedIndexes r := by
  refine Catalog.storedIndexes_congr ?_
  rw [lookup_unsetAll fun p hp => not_mem_of_isIdentifier (hnames p hp), if_neg]
  exact fun h => absurd (hnames _ h) (by decide)

/-- The indexes of a schema of which all fields are deleted. -/
def Covered (names : List String) (index : IndexDescriptor) : Prop :=
  ∀ f ∈ index.fields, f.1 ∈ names

theorem covered_iff {index : IndexDescriptor} :
    (index.fields.all fun f => names.contains f.1) = true ↔ Covered names index := by
  simp [Covered]

/-- **Records of indexes are removed by their names**, if these have no full stop. -/
theorem storedIndexes_forgetCovered {indexed : Members IndexDescriptor}
    (h : ∀ m ∈ indexed, Covered names m.2 → '.' ∉ m.1.toList) (r : Record) (key : String)
    (d : Datum) : (storedIndexes (forgetCovered names indexed r)).lookup key = some d ↔
      (storedIndexes r).lookup key = some d ∧ ∀ m ∈ indexed, Covered names m.2 → m.1 ≠ key := by
  suffices storedIndexes (forgetCovered names indexed r) = indexed.foldl (fun indexes m =>
      if m.2.fields.all fun f => names.contains f.1 then Members.erase m.1 indexes else indexes)
      (storedIndexes r) by
    rw [this, lookup_foldl_erase]
    simp only [covered_iff]
  unfold forgetCovered
  induction indexed generalizing r with
  | nil => rfl
  | cons m rest ih =>
    obtain ⟨hm, hrest⟩ := List.forall_mem_cons.1 h
    rw [List.foldl_cons, List.foldl_cons, ih hrest]
    split
    case isTrue hcovered =>
      rw [Catalog.storedIndexes_unset_indexPath,
        Text.split_of_not_mem (hm (covered_iff.1 hcovered))]
      rfl
    case isFalse => rfl

/-- **The record of an index whose name has a full stop** is never removed. -/
theorem isSome_lookup_of_dotted (names : List String) (indexed : Members IndexDescriptor)
    (r : Record) {key : String}
    (hkey : '.' ∈ key.toList) (hr : ((storedIndexes r).lookup key).isSome) :
    ((storedIndexes (forgetCovered names indexed r)).lookup key).isSome := by
  refine List.foldlRecOn (motive := fun r : Record => ((storedIndexes r).lookup key).isSome)
    indexed _ hr fun r hr m _ => ?_
  split
  case isTrue =>
    rw [Catalog.storedIndexes_unset_indexPath]
    obtain ⟨piece, rest, hsplit⟩ := List.exists_cons_of_ne_nil (Text.split_ne_nil m.1)
    -- no piece of a name has a full stop
    have hne : key ≠ piece := by
      rintro rfl
      exact Text.not_mem_of_mem_split (hsplit ▸ List.mem_cons_self) hkey
    rw [hsplit, Record.lookup_unsetAlong_cons, if_neg hne]
    exact hr
  case isFalse => exact hr

theorem sorted_forgetCovered (names : List String) (indexed : Members IndexDescriptor) {r : Record}
    (hr : Members.Sorted r ∧ (storedIndexes r).Sorted) :
    Members.Sorted (forgetCovered names indexed r) ∧
      (storedIndexes (forgetCovered names indexed r)).Sorted := by
  refine List.foldlRecOn (motive := fun r : Record => Members.Sorted r ∧ (storedIndexes r).Sorted)
    indexed _ hr fun _ hr _ _ => ?_
  split
  · exact ⟨Record.sorted_unsetAlong hr.1 _, Catalog.sorted_storedIndexes_unsetAlong hr.2 _⟩
  · exact hr

theorem sorted_unsetAll {r : Record} (hr : r.Sorted) (hindexes : (storedIndexes r).Sorted)
    (paths : List String) :
    Members.Sorted (unsetAll paths r) ∧ (storedIndexes (unsetAll paths r)).Sorted :=
  List.foldlRecOn (motive := fun r : Record => Members.Sorted r ∧ (storedIndexes r).Sorted) paths _
    ⟨hr, hindexes⟩ fun _ hr _ _ =>
      ⟨Record.sorted_unsetAlong hr.1 _, Catalog.sorted_storedIndexes_unsetAlong hr.2 _⟩

/-- What a member says of its field is what it said before indexes were removed. -/
theorem declaredType?_forgetCovered (indexed : Members IndexDescriptor) (r : Record)
    (key : String) :
    ((forgetCovered names indexed r).lookup key).bind (Catalog.declaredType? key) =
      (r.lookup key).bind (Catalog.declaredType? key) := by
  have hwithout (segments : List String) (d : Datum) :
      Catalog.declaredType? key (d.without segments) = Catalog.declaredType? key d := by
    cases d <;> rfl
  refine List.foldlRecOn (motive := fun r' : Record => (r'.lookup key).bind
    (Catalog.declaredType? key) = (r.lookup key).bind (Catalog.declaredType? key)) indexed _ rfl
    fun r' hr' m _ => ?_
  split
  · rw [← hr', Record.unsetPath, Catalog.split_indexPath, Record.lookup_unsetAlong_cons]
    split
    · cases r'.lookup key with
      | none => rfl
      | some d => exact hwithout _ d
    · rfl
  · exact hr'

/-! ### The keys of deleted fields -/

theorem keyPath_injective (hnames : ∀ name ∈ names, isIdentifier name = true) {name name' : String}
    (hname : name ∈ names) (hname' : name' ∈ names)
    (heq : Stored.keyPath schema name = Stored.keyPath schema name') : name = name' := by
  have hfield {n : String} (hn : n ∈ names) : Stored.fieldOf (Stored.keyPath schema n) = n := by
    rw [Stored.keyPath_eq (hnames n hn), Stored.fieldOf_rootKey (hnames n hn)]
  rw [← hfield hname, heq, hfield hname']

namespace Begun

variable {r : Record} (h : Begun className s names r schema keys)
  (hnames : ∀ name ∈ names, isIdentifier name = true)

include h hnames

theorem undotted_keyPath {name : String} (hname : name ∈ names) :
    '.' ∉ (Stored.keyPath schema name).toList := by
  have hplain := not_mem_of_isIdentifier (hnames name hname)
  rw [Stored.keyPath_eq (hnames name hname), Stored.rootKey_eq (h.deletable name hname)]
  split
  · rw [String.toList_append, List.mem_append, not_or]
    exact ⟨by decide, hplain⟩
  · exact hplain

theorem undotted_keys : ∀ key ∈ keys, '.' ∉ key.toList := by
  intro key hkey
  obtain ⟨name, hname, -, rfl⟩ := ((storedKeys_eq_ok h.stored).2 key).1 hkey
  exact h.undotted_keyPath hnames hname

theorem keyPath_relation {name : String} (hname : name ∈ names)
    (hrelation : isRelationField schema name = true) : Stored.keyPath schema name = name := by
  rw [Stored.keyPath_eq (hnames name hname), Stored.rootKey_eq (h.deletable name hname)]
  split
  · rename_i hty
    rw [isRelationField, hty] at hrelation
    exact absurd hrelation (by simp [FieldType.isRelation])
  · rfl

/-- **The keys that are unset** are those of deleted fields that are no relations. -/
theorem mem_keys_iff (key : String) : key ∈ keys ↔
    (∃ n ∈ names, Stored.keyPath schema n = key) ∧
      ∀ n ∈ names, isRelationField schema n = true → n ≠ key := by
  rw [(storedKeys_eq_ok h.stored).2]
  constructor
  · rintro ⟨n, hn, hrelation, rfl⟩
    refine ⟨⟨n, hn, rfl⟩, fun n' hn' hrelation' heq => ?_⟩
    rw [← h.keyPath_relation hnames hn' hrelation'] at heq
    rw [keyPath_injective hnames hn' hn heq, hrelation] at hrelation'
    exact absurd hrelation' (by simp)
  · rintro ⟨⟨n, hn, hkey⟩, hother⟩
    refine ⟨n, hn, ?_, hkey⟩
    by_contra hrelation
    have hrelation : isRelationField schema n = true := by simpa using hrelation
    exact hother n hn hrelation ((h.keyPath_relation hnames hn hrelation).symm.trans hkey)

end Begun

/-! ### What a run has deleted -/

/-- **Fields have been deleted** from a class: the schema that is loaded has none of them, and the
others with their types; an index of the class remains, in the store or in the schema, if and only
if it is on some other field as well; the records have lost what they held under the keys of these
fields, and nothing else; and no relation among them has an edge. -/
structure Deletes (className : String) (schema : ClassSchema) (names : List String)
    (s t : Store) : Prop where
  loaded : ∃ after, Catalog.recorded t className = .ok (some after) ∧
    (∀ name, after.fieldType? name = if name ∈ names then none else schema.fieldType? name) ∧
    ∀ name index, after.indexes.lookup name = some index ↔
      schema.indexes.lookup name = some index ∧ ∃ f ∈ index.fields, f.1 ∉ names
  index (name : String) (index : StoreIndex) :
    (t.collection className).indexes.lookup name = some index ↔
      (s.collection className).indexes.lookup name = some index ∧
        ∃ k ∈ index.keys, ∀ n ∈ names, Text.root k.1 ≠ Stored.keyPath schema n
  record (id : String) : Option.Rel
    (fun r r' => ∀ key, r'.lookup key =
      if ∃ n ∈ names, Stored.keyPath schema n = key then none else r.lookup key)
    (s.record? className id) (t.record? className id)
  edges (name : String) : name ∈ names → isRelationField schema name = true →
    (t.collection (Join.collection name className)).records = []

/-- **Fields can be deleted** from a class: none of them belongs to every class of that name, no
index that is on them only is recorded under a name with a full stop, and where one of them is a
relation, no record holds anything under its name and no index that is on them only is on it. -/
structure Deletable (className : String) (schema : ClassSchema) (names : List String)
    (s : Store) : Prop where
  initial (name : String) : name ∈ names →
    (ClassSchema.initialFields className).lookup name = none
  undotted (m : String × IndexDescriptor) : m ∈ schema.indexes → Covered names m.2 →
    '.' ∉ m.1.toList
  unheld (id : String) (r : Record) : s.record? className id = some r → ∀ name ∈ names,
    isRelationField schema name = true → r.lookup name = none
  unindexed (m : String × StoreIndex) : m ∈ (s.collection className).indexes →
    (∀ k ∈ m.2.keys, ∃ n ∈ names, Text.root k.1 = Stored.keyPath schema n) →
    ∀ k ∈ m.2.keys, ∀ name ∈ names, isRelationField schema name = true → Text.root k.1 ≠ name

namespace Ran

variable {r : Record} {after : ClassSchema} (h : Ran className s names r schema keys after t)

include h

theorem className_before : schema.className = className := by
  have hname := Record.lookup_of_string? (Catalog.ofRecord_className h.before).1
  exact Datum.string.inj (Option.some.inj (hname.symm.trans h.named))

theorem className_after : after.className = className := by
  have hname := Record.lookup_of_string? (Catalog.ofRecord_className h.after).1
  exact Datum.string.inj (Option.some.inj (hname.symm.trans h.partway.named))

variable (hr : r.Sorted) (hstored : (storedIndexes r).Sorted)
  (hnames : ∀ name ∈ names, isIdentifier name = true)

include hr hstored

theorem readOn_before : Catalog.ReadOn r { className := className
                                           fields := ClassSchema.initialFields className
                                           indexes := [] } schema :=
  h.className_before ▸ Catalog.readOn_of_ofRecord hr hstored h.before

theorem readOn_after : Catalog.ReadOn
    (forgetCovered names schema.indexes (unsetAll (NameSet.ofList names) r))
    { className := className
      fields := ClassSchema.initialFields className
      indexes := [] } after := by
  obtain ⟨hsorted, hstored⟩ := sorted_forgetCovered names schema.indexes
    (sorted_unsetAll hr hstored (NameSet.ofList names))
  exact h.className_after ▸ Catalog.readOn_of_ofRecord hsorted hstored h.after

include hnames

/-- **The fields that are left** are those not deleted, and the initial ones. -/
theorem fieldType?_after (name : String) :
    after.fieldType? name = if name ∈ names then (ClassSchema.initialFields className).lookup name
      else schema.fieldType? name := by
  have hunset : ∀ p ∈ NameSet.ofList names, '.' ∉ p.toList :=
    fun p hp => not_mem_of_isIdentifier (hnames p (NameSet.mem_ofList.1 hp))
  rw [ClassSchema.fieldType?, ClassSchema.fieldType?, (h.readOn_after hr hstored).field,
    (h.readOn_before hr hstored).field, declaredType?_forgetCovered, lookup_unsetAll hunset]
  simp only [NameSet.mem_ofList]
  split <;> rfl

omit hnames in
/-- The stored indexes are those of the schema. -/
theorem lookup_before (name : String) (index : IndexDescriptor) :
    schema.indexes.lookup name = some index ↔
      ∃ d, (storedIndexes r).lookup name = some d ∧ Catalog.indexOfDatum name d = .ok index := by
  rw [(h.readOn_before hr hstored).index, Catalog.storedIndex?, List.lookup_nil, Option.or_none,
    Option.bind_eq_some_iff]
  simp only [Outcome.toOption_eq_some]

omit hnames in
theorem lookup_after (name : String) (index : IndexDescriptor) :
    after.indexes.lookup name = some index ↔
      ∃ d, (storedIndexes (forgetCovered names schema.indexes
        (unsetAll (NameSet.ofList names) r))).lookup name = some d ∧
          Catalog.indexOfDatum name d = .ok index := by
  rw [(h.readOn_after hr hstored).index, Catalog.storedIndex?, List.lookup_nil, Option.or_none,
    Option.bind_eq_some_iff]
  simp only [Outcome.toOption_eq_some]

/-- **The indexes that are left** in the schema are those that some field is left of, if no other
has a name with a full stop. -/
theorem index_after (hdotted : ∀ m ∈ schema.indexes, Covered names m.2 → '.' ∉ m.1.toList)
    (name : String) (index : IndexDescriptor) :
    after.indexes.lookup name = some index ↔
      schema.indexes.lookup name = some index ∧ ∃ f ∈ index.fields, f.1 ∉ names := by
  have hunset : ∀ p ∈ NameSet.ofList names, isIdentifier p = true :=
    fun p hp => hnames p (NameSet.mem_ofList.1 hp)
  have hsorted : schema.indexes.Sorted :=
    (h.readOn_before hr hstored).sorted_indexes List.Pairwise.nil
  have hkept (hlookup : schema.indexes.lookup name = some index) :
      (∀ m ∈ schema.indexes, Covered names m.2 → m.1 ≠ name) ↔
        ∃ f ∈ index.fields, f.1 ∉ names := by
    have hm := Members.mem_of_lookup hlookup
    constructor
    · intro hkept
      by_contra hnone
      push Not at hnone
      exact hkept _ hm hnone rfl
    · rintro ⟨f, hf, hleft⟩ m hm' hcovered hname
      obtain rfl := hsorted.eq_of_key hm' hm hname
      exact hleft (hcovered f hf)
  rw [h.lookup_after hr hstored, h.lookup_before hr hstored]
  simp only [storedIndexes_forgetCovered hdotted, storedIndexes_unsetAll hunset]
  constructor
  · rintro ⟨d, ⟨hd, hother⟩, hindex⟩
    exact ⟨⟨d, hd, hindex⟩, (hkept ((h.lookup_before hr hstored ..).2 ⟨d, hd, hindex⟩)).1 hother⟩
  · rintro ⟨⟨d, hd, hindex⟩, hleft⟩
    exact ⟨d, ⟨hd, (hkept ((h.lookup_before hr hstored ..).2 ⟨d, hd, hindex⟩)).2 hleft⟩, hindex⟩

/-- **An index whose name has a full stop** is left in the schema. -/
theorem isSome_after_of_dotted {m : String × IndexDescriptor} (hm : m ∈ schema.indexes)
    (hdot : '.' ∈ m.1.toList) : ∃ index, after.indexes.lookup m.1 = some index := by
  have hunset : ∀ p ∈ NameSet.ofList names, isIdentifier p = true :=
    fun p hp => hnames p (NameSet.mem_ofList.1 hp)
  have hsorted : schema.indexes.Sorted :=
    (h.readOn_before hr hstored).sorted_indexes List.Pairwise.nil
  obtain ⟨d, hd, -⟩ := (h.lookup_before hr hstored ..).1 (hsorted.lookup_of_mem hm)
  have hsome : ((storedIndexes (unsetAll (NameSet.ofList names) r)).lookup m.1).isSome := by
    rw [storedIndexes_unsetAll hunset, hd]
    rfl
  obtain ⟨d, hd⟩ := Option.isSome_iff_exists.1
    (isSome_lookup_of_dotted names schema.indexes _ hdot hsome)
  obtain ⟨index, hindex⟩ := (h.readOn_after hr hstored).readable m.1 d hd
  exact ⟨index, (h.lookup_after hr hstored ..).2 ⟨d, hd, hindex⟩⟩

omit hr hstored

/-! What the store and its records are left with. -/

omit hnames in
theorem index_left (hindexes : (s.collection className).indexes.Sorted)
    (hnamed : ∀ m ∈ (s.collection className).indexes, m.2.name = m.1) (name : String)
    (index : StoreIndex) : (t.collection className).indexes.lookup name = some index ↔
      (s.collection className).indexes.lookup name = some index ∧
        ∃ k ∈ index.keys, Text.root k.1 ∉ keys := by
  rw [h.partway.indexes]
  exact lookup_dropCovered hindexes hnamed name index

theorem lookup_left (r : Record) (key : String) :
    (unsetAll keys r).lookup key = if key ∈ keys then none else r.lookup key :=
  lookup_unsetAll (h.undotted_keys hnames) r key

omit hnames in
theorem edges_left {name : String} (hname : name ∈ names)
    (hrelation : isRelationField schema name = true) :
    t.collection (Join.collection name className) = {} := by
  rw [h.partway.other _ (Join.collection_ne_schemas name className).symm
    (Join.collection_ne_of_isClassName h.valid name className), if_pos]
  exact List.mem_map.2 ⟨name, List.mem_filter.2 ⟨hname, hrelation⟩, rfl⟩

omit hnames in
theorem recorded_left : Catalog.recorded t className = .ok (some after) := by
  rw [Catalog.recorded_eq_loaded h.partway.keyed, h.partway.loaded, h.after]
  rfl

variable (hindexes : (s.collection className).indexes.Sorted)
  (hnamed : ∀ m ∈ (s.collection className).indexes, m.2.name = m.1)

include hr hstored hindexes hnamed

/-- Fields that can be deleted have been deleted. -/
theorem deletes (hd : Deletable className schema names s) :
    Deletes className schema names s t where
  loaded := by
    refine ⟨after, h.recorded_left, fun name => ?_, h.index_after hr hstored hnames hd.undotted⟩
    rw [h.fieldType?_after hr hstored hnames]
    split
    case isTrue hname => rw [hd.initial name hname]
    case isFalse => rfl
  index name index := by
    rw [h.index_left hindexes hnamed]
    refine and_congr_right fun hlookup => ⟨fun ⟨k, hk, hleft⟩ => ?_, fun ⟨k, hk, hleft⟩ => ?_⟩
    · by_contra hnone
      push Not at hnone
      refine hleft ((h.mem_keys_iff hnames _).2 ⟨?_, fun n hn hrelation heq => ?_⟩)
      · obtain ⟨n, hn, heq⟩ := hnone k hk
        exact ⟨n, hn, heq.symm⟩
      · exact hd.unindexed _ (Members.mem_of_lookup hlookup) hnone k hk n hn hrelation heq.symm
    · refine ⟨k, hk, fun hkey => ?_⟩
      obtain ⟨n, hn, heq⟩ := ((h.mem_keys_iff hnames _).1 hkey).1
      exact hleft n hn heq.symm
  record id := by
    rw [h.partway.record]
    cases hrecord : s.record? className id with
    | none => exact .none
    | some r =>
      refine .some fun key => ?_
      rw [h.lookup_left hnames]
      simp only [h.mem_keys_iff hnames]
      by_cases hkey : ∃ n ∈ names, Stored.keyPath schema n = key
      · rw [if_pos hkey]
        split
        · rfl
        · rename_i hother
          simp only [not_and, not_forall, not_not] at hother
          obtain ⟨n, hn, hrelation, rfl⟩ := hother hkey
          exact hd.unheld id r hrecord n hn hrelation
      · rw [if_neg hkey, if_neg fun hboth => hkey hboth.1]
  edges name hname hrelation := by rw [h.edges_left hname hrelation]

/-- Fields that have been deleted could be deleted. -/
theorem deletable_of_deletes (hd : Deletes className schema names s t) :
    Deletable className schema names s where
  initial name hname := by
    obtain ⟨read, hread, hfields, -⟩ := hd.loaded
    obtain rfl : after = read :=
      Option.some.inj (Except.ok.inj (h.recorded_left.symm.trans hread))
    have hleft := h.fieldType?_after hr hstored hnames name
    rw [hfields, if_pos hname, if_pos hname] at hleft
    exact hleft.symm
  undotted m hm hcovered hdot := by
    obtain ⟨read, hread, -, hleft⟩ := hd.loaded
    obtain rfl : after = read :=
      Option.some.inj (Except.ok.inj (h.recorded_left.symm.trans hread))
    have hsorted : schema.indexes.Sorted :=
      (h.readOn_before hr hstored).sorted_indexes List.Pairwise.nil
    obtain ⟨index, hindex⟩ := h.isSome_after_of_dotted hr hstored hnames hm hdot
    obtain ⟨hlookup, f, hf, hother⟩ := (hleft m.1 index).1 hindex
    obtain rfl := Option.some.inj (hlookup.symm.trans (hsorted.lookup_of_mem hm))
    exact hother (hcovered f hf)
  unheld id r hrecord name hname hrelation := by
    have hrel := hd.record id
    rw [h.partway.record, hrecord, Option.map_some] at hrel
    cases hrel with
    | some hleft =>
      have hkey := hleft name
      rw [if_pos ⟨name, hname, h.keyPath_relation hnames hname hrelation⟩,
        h.lookup_left hnames, if_neg] at hkey
      · exact hkey
      · exact fun hmem => ((h.mem_keys_iff hnames _).1 hmem).2 name hname hrelation rfl
  unindexed m hm hdeleted k hk name hname hrelation heq := by
    have hleft := (h.index_left hindexes hnamed m.1 m.2).2 ⟨hindexes.lookup_of_mem hm, k, hk,
      fun hmem => ((h.mem_keys_iff hnames _).1 hmem).2 name hname hrelation heq.symm⟩
    obtain ⟨-, k', hk', hother⟩ := (hd.index m.1 m.2).1 hleft
    obtain ⟨n, hn, hkey⟩ := hdeleted k' hk'
    exact hother n hn hkey

end Ran

/-- A run that succeeds has gone through, from the schema that was recorded. -/
theorem ran_of_runIn {w v : World} {cache cache' : SchemaCache} {answer : ClassSchema}
    (hkeyed : Catalog.Keyed w.store)
    (hschema : Catalog.recorded w.store className = .ok (some schema))
    (hnames : ∀ name ∈ names, isIdentifier name = true)
    (hrun : (deleteFields className names).runIn cache w = ((.ok answer, cache'), v)) :
    ∃ r keys, Ran className w.store names r schema keys answer v.store := by
  obtain ⟨-, r, read, keys, h⟩ :=
    (leaves_deleteFields_ran hkeyed fun _ _ name hname _ => hnames name hname).runIn hrun
  rw [Catalog.recorded_eq_loaded hkeyed] at hschema
  obtain ⟨r', hr', -, hread⟩ := Catalog.ofRecord_of_loaded hschema
  obtain rfl := Option.some.inj (h.record.symm.trans hr')
  obtain rfl := Except.ok.inj (h.before.symm.trans hread)
  exact ⟨r, keys, h⟩

/-- **Deleting fields deletes them** exactly if they can be deleted: so it is for every class, and
whatever else the store holds, where the run succeeds. -/
theorem deletes_iff_deletable {w v : World} {cache cache' : SchemaCache} {answer : ClassSchema}
    (hkeyed : Catalog.Keyed w.store)
    (hsorted : ∀ r, Catalog.record? w.store className = some r →
      Members.Sorted r ∧ (storedIndexes r).Sorted)
    (hindexes : (w.store.collection className).indexes.Sorted)
    (hnamed : ∀ m ∈ (w.store.collection className).indexes, m.2.name = m.1)
    (hschema : Catalog.recorded w.store className = .ok (some schema))
    (hnames : ∀ name ∈ names, isIdentifier name = true)
    (hrun : (deleteFields className names).runIn cache w = ((.ok answer, cache'), v)) :
    Deletes className schema names w.store v.store ↔
      Deletable className schema names w.store := by
  obtain ⟨r, keys, h⟩ := ran_of_runIn hkeyed hschema hnames hrun
  obtain ⟨hr, hstored⟩ := hsorted r h.record
  exact ⟨h.deletable_of_deletes hr hstored hnames hindexes hnamed,
    h.deletes hr hstored hnames hindexes hnamed⟩

/-- An object with an author. -/
def authoredObject : Record :=
  [("_id", .string "p"), ("_p_author", .string "N$n"), ("title", .string "t")]

/-- A world with that object, two indexes of its class and an edge. -/
def authored : World where
  store := { collections := [
    ("Post", { records := [("p", authoredObject)]
               indexes := [
        ("author_1", ⟨"author_1", [("_p_author", 1)], false, false, none⟩),
        ("author_1_title_1",
          ⟨"author_1_title_1", [("_p_author", 1), ("title", 1)], false, false, none⟩)] }),
    ("_Join:likes:Post", { records := [("e", [("_id", .string "e"), ("owningId", .string "p"),
      ("relatedId", .string "n")])] }),
    ("_SCHEMA", { records := [("Post", [("_id", .string "Post"),
      ("_metadata", .record [("indexes", .record [
        ("author_1", Catalog.indexToDatum (.single "author")),
        ("author_1_title_1", Catalog.indexToDatum
          { name := "author_1_title_1", fields := [("author", 1), ("title", 1)] })])]),
      ("author", .string "*N"), ("likes", .string "relation<N>"),
      ("title", .string "string")])] })] }

/-- The schema that is read of a class. -/
def schemaIn (w : World) (className : String) : ClassSchema :=
  ((Catalog.recorded w.store className).toOption.getD none).getD default

theorem recorded_of_isSome {w : World}
    (h : ((Catalog.recorded w.store className).toOption.getD none).isSome = true) :
    Catalog.recorded w.store className = .ok (some (schemaIn w className)) := by
  rw [schemaIn]
  cases hread : Catalog.recorded w.store className with
  | ok read =>
    cases read with
    | some schema => rfl
    | none =>
      rw [hread] at h
      exact absurd h (by simp [Except.toOption])
  | error e =>
    rw [hread] at h
    exact absurd h (by simp [Except.toOption])

/-- Schemas of which there is but one. -/
theorem keyed_of_one {r : Record}
    (hone : (s.collection Catalog.collection).records = [(className, r)])
    (hid : r.lookup Record.idKey = some (.string className)) : Catalog.Keyed s where
  sorted := hone ▸ List.pairwise_singleton _ _
  named := by
    intro id r' hm d hd
    obtain ⟨rfl, rfl⟩ := Prod.mk.inj (List.mem_singleton.1 (hone ▸ hm))
    exact Option.some.inj (hd.symm.trans hid)

theorem deletable_authored :
    Deletable "Post" (schemaIn authored "Post") ["author", "likes"] authored.store where
  initial := by decide +kernel
  undotted m hm _ := by
    have hall : ∀ m ∈ (schemaIn authored "Post").indexes, '.' ∉ m.1.toList := by decide +kernel
    exact hall m hm
  unheld id r hr name hname _ := by
    have hr : List.lookup id [("p", authoredObject)] = some r := hr
    obtain ⟨-, rfl⟩ := Prod.mk.inj (List.mem_singleton.1 (Members.mem_of_lookup hr))
    have hall : ∀ name ∈ ["author", "likes"], authoredObject.lookup name = none := by decide
    exact hall name hname
  unindexed m hm _ := by
    have hall : ∀ m ∈ (authored.store.collection "Post").indexes, ∀ k ∈ m.2.keys,
      ∀ name ∈ ["author", "likes"], Text.root k.1 ≠ name := by decide +kernel
    exact fun k hk name hname _ => hall m hm k hk name hname

theorem deletes_iff_deletable_authored : ∃ answer cache v,
    (deleteFields "Post" ["author", "likes"]).runIn { ttlMs := 5000 } authored =
      ((.ok answer, cache), v) ∧
    Deletes "Post" (schemaIn authored "Post") ["author", "likes"] authored.store v.store := by
  have hok : ((deleteFields "Post" ["author", "likes"]).runIn { ttlMs := 5000 }
      authored).1.1.isOk = true := by decide +kernel
  have hsorted : ∀ r, Catalog.record? authored.store "Post" = some r →
      Members.Sorted r ∧ (storedIndexes r).Sorted := fun r hr => by
    obtain rfl := Option.some.inj hr
    exact ⟨by decide, by decide⟩
  rcases hrun : (deleteFields "Post" ["author", "likes"]).runIn { ttlMs := 5000 } authored with
    ⟨⟨_ | answer, cache⟩, v⟩
  · rw [hrun] at hok
    exact absurd hok (by simp [Except.isOk, Except.toBool])
  · exact ⟨answer, cache, v, rfl, (deletes_iff_deletable (keyed_of_one rfl rfl) hsorted (by decide)
      (by decide) (recorded_of_isSome (by decide +kernel)) (by decide) hrun).2
      deletable_authored⟩

/-- A world with the class of users. -/
def populated : World where
  store := { collections := [("_SCHEMA", { records := [("_User", [("_id", .string "_User")])] })] }

/-- **The initial fields of a class cannot be deleted**: a run that deletes the addresses of users
succeeds, and the field is there when the schema is read again. -/
theorem not_deletes_address :
    ¬∀ (className : String) (schema : ClassSchema) (names : List String)
      (cache cache' : SchemaCache) (w v : World) (answer : ClassSchema), w.store.Quiet →
      Catalog.Keyed w.store →
      (∀ r, Catalog.record? w.store className = some r →
        Members.Sorted r ∧ (storedIndexes r).Sorted) →
      (w.store.collection className).indexes = [] →
      Catalog.recorded w.store className = .ok (some schema) → names ≠ [] →
      (∀ name ∈ names, isIdentifier name = true ∧ schema.hasField name = true) →
      (deleteFields className names).runIn cache w = ((.ok answer, cache'), v) →
      Deletes className schema names w.store v.store := by
  intro h
  have hok : ((deleteFields "_User" ["email"]).runIn { ttlMs := 5000 }
      populated).1.1.isOk = true := by decide +kernel
  have hsorted : ∀ r, Catalog.record? populated.store "_User" = some r →
      Members.Sorted r ∧ (storedIndexes r).Sorted := fun r hr => by
    obtain rfl := Option.some.inj hr
    exact ⟨by decide, by decide⟩
  have hkeyed : Catalog.Keyed populated.store := keyed_of_one rfl rfl
  have hschema : Catalog.recorded populated.store "_User" =
      .ok (some (schemaIn populated "_User")) := recorded_of_isSome (by decide +kernel)
  rcases hrun : (deleteFields "_User" ["email"]).runIn { ttlMs := 5000 } populated with
    ⟨⟨_ | answer, cache⟩, v⟩
  · rw [hrun] at hok
    exact absurd hok (by simp [Except.isOk, Except.toBool])
  · have hdeletes := h "_User" _ ["email"] _ _ _ _ _ (Store.quiet_of_nil rfl) hkeyed hsorted rfl
      hschema (by simp) (by decide +kernel) hrun
    obtain ⟨r, keys, hran⟩ := ran_of_runIn hkeyed hschema (by decide) hrun
    obtain ⟨hr, hstored⟩ := hsorted r hran.record
    have hinitial := (hran.deletable_of_deletes hr hstored (by decide) List.Pairwise.nil
      (List.forall_mem_nil _) hdeletes).initial "email" (List.mem_singleton_self _)
    exact absurd hinitial (by decide)

end Indexing

end ObjectEngine
