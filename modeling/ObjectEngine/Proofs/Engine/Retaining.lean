import ObjectEngine.Proofs.Engine.Deleted

/-!
# Schemas that lose fields

While the fields of a class are deleted, what the store has of its schema, what a cache holds of it
and what its indexes were made from may be three schemas. Each of them narrows the schema that the
class had at first (`ClassSchema.Narrows`): it has no field of another type, and it has all
pointers, if no pointer is deleted. That is all that the stored keys of indexes depend on
(`ClassSchema.Narrows.storeIndex_eq`).

`Catalog.Retains` says that the record of a class stores such a schema, with indexes that are on no
relation. It is kept where an index is recorded or forgotten and where fields are unset, and what is
read from it narrows the first schema again (`Catalog.Retains.exists_ofRecord`).
-/

namespace ObjectEngine

/-! ### Narrower schemas -/

/-- **A schema narrows another**: it has no field that the other has not, of the same type, and all
pointers of the other. -/
structure ClassSchema.Narrows (schema whole : ClassSchema) : Prop where
  declared (name : String) (ty : FieldType) :
    schema.fieldType? name = some ty → whole.fieldType? name = some ty
  pointer (name target : String) :
    whole.fieldType? name = some (.pointer target) → schema.fieldType? name = some (.pointer target)

namespace ClassSchema.Narrows

variable {schema whole : ClassSchema} (h : schema.Narrows whole)

include h

/-- **Stored keys are the same** in a narrower schema. -/
theorem rootKey_eq (root : String) : Stored.rootKey schema root = Stored.rootKey whole root := by
  unfold Stored.rootKey
  split
  case h_1 | h_2 | h_3 | h_4 => rfl
  case h_5 =>
    cases hty : schema.fieldType? root with
    | some ty => rw [h.declared root ty hty]
    | none =>
      cases hwhole : whole.fieldType? root with
      | none => rfl
      | some ty =>
        cases ty with
        | pointer target => exact absurd (hty.symm.trans (h.pointer root target hwhole)) (by simp)
        | _ => rfl

theorem keyPath_eq (path : String) : Stored.keyPath schema path = Stored.keyPath whole path := by
  rw [Stored.keyPath, Stored.keyPath]
  split <;> rw [h.rootKey_eq]

theorem storeIndex_eq (index : IndexDescriptor) :
    Indexing.storeIndex schema index = Indexing.storeIndex whole index := by
  simp only [Indexing.storeIndex, h.keyPath_eq]

end ClassSchema.Narrows

/-- The fields that are left. -/
theorem ClassSchema.lookup_removeAll (schema : ClassSchema) (names : List String) (key : String) :
    (schema.removeAll names).fields.lookup key =
      if key ∈ names then none else schema.fields.lookup key := by
  have hfilter :=
    Members.lookup_filter_key (fun name => decide (name ∉ names)) schema.fields key
  by_cases hkey : key ∈ names <;> simpa [removeAll, hkey] using hfilter

/-- No default field is a pointer. -/
theorem ClassSchema.Regular.ne_pointer_of_default {schema : ClassSchema} (h : schema.Regular)
    {name : String} (hname : name ∈ defaultFields) (target : String) :
    schema.fieldType? name ≠ some (.pointer target) := by
  have hdefault : ∀ name ∈ defaultFields, ∃ f ∈ [("objectId", FieldType.string),
      ("createdAt", .date), ("updatedAt", .date), ("ACL", .acl)], f.1 = name ∧
        f.2 ≠ .pointer target := by
    simp [defaultFields]
  obtain ⟨f, hf, rfl, hne⟩ := hdefault name hname
  have hbuilt : ClassSchema.Built _ := .create (if_pos h.valid)
  have hinitial := hbuilt.fieldType?_of_default f hf
  rw [fieldType?, h.storable.lookup_of_initial hinitial]
  exact fun heq => hne (Option.some.inj heq)

namespace Catalog

variable {r : Record} {whole stored : ClassSchema} {names : List String}

/-! ### Records of narrower schemas -/

/-- **Fields that are unset** are stored no more. -/
theorem Stores.unset_fields (h : Stores r stored)
    (hnames : ∀ name ∈ names, isIdentifier name = true) :
    Stores (Indexing.unsetAll (NameSet.ofList names) r) (stored.removeAll names) := by
  have hunset : ∀ name ∈ NameSet.ofList names, isIdentifier name = true :=
    fun name hname => hnames name (NameSet.mem_ofList.1 hname)
  have hlookup (key : String) :
      (Indexing.unsetAll (NameSet.ofList names) r).lookup key =
        if key ∈ names then none else r.lookup key := by
    rw [Indexing.lookup_unsetAll fun p hp => not_mem_of_isIdentifier (hunset p hp)]
    simp only [NameSet.mem_ofList]
  have hindexes := Indexing.storedIndexes_unsetAll hunset r
  have hplain {key : String} (hkey : ¬isIdentifier key = true) :
      (Indexing.unsetAll (NameSet.ofList names) r).lookup key = r.lookup key := by
    rw [hlookup, if_neg fun hmem => hkey (hnames key hmem)]
  obtain ⟨hsorted, -⟩ := Indexing.sorted_unsetAll h.sorted h.sorted_indexes (NameSet.ofList names)
  refine ⟨hsorted, hindexes ▸ h.sorted_indexes, ⟨?_, ?_⟩, ?_, fun key hid hmeta => ?_,
    fun name => ?_⟩
  · exact fun d hd => h.shaped.metadata d (hplain not_isIdentifier_metadataKey ▸ hd)
  · rw [Record.nested_congr (hplain not_isIdentifier_metadataKey)]
    exact h.shaped.indexes
  · rw [hplain not_isIdentifier_idKey]
    exact h.id
  · rw [hlookup, h.field key hid hmeta, ClassSchema.lookup_removeAll]
    split
    · split <;> rfl
    · rfl
  · rw [hindexes]
    exact h.index name

/-- **A class retains what its indexes are on**: the record of its schema stores fields of the whole
schema, all pointers among them, and indexes that are on no relation, under names without a full
stop. -/
structure Retains (whole : ClassSchema) (r : Record) (stored : ClassSchema) : Prop where
  stores : Stores r stored
  className : stored.className = whole.className
  declared (name : String) (ty : FieldType) :
    stored.fields.lookup name = some ty → whole.fieldType? name = some ty
  pointer (name target : String) : whole.fieldType? name = some (.pointer target) →
    stored.fields.lookup name = some (.pointer target)
  undotted (name : String) (index : IndexDescriptor) :
    stored.indexes.lookup name = some index → '.' ∉ name.toList
  unrelated (name : String) (index : IndexDescriptor) :
    stored.indexes.lookup name = some index →
      ∀ f ∈ index.fields, Indexing.isRelationField whole f.1 = false

namespace Retains

variable (h : Retains whole r stored)

include h

/-- What a member declares is so in the whole schema. -/
theorem fieldType?_of_declaredType? {key : String} {ty : FieldType}
    (hty : (r.lookup key).bind (declaredType? key) = some ty) : whole.fieldType? key = some ty := by
  obtain ⟨d, hd, hty⟩ := Option.bind_eq_some_iff.1 hty
  have hid : key ≠ Record.idKey := by
    rintro rfl
    cases d <;> simp [declaredType?] at hty
  have hmeta : key ≠ metadataKey := by
    rintro rfl
    obtain ⟨members, rfl⟩ := h.stores.shaped.metadata d hd
    exact absurd hty (by simp [declaredType?])
  have hfield := h.stores.field key hid hmeta
  rw [hd] at hfield
  split at hfield
  · exact absurd hfield (by simp)
  · obtain ⟨ty', hty', rfl⟩ := Option.map_eq_some_iff.1 hfield.symm
    simp only [declaredType?, hid, if_false, FieldType.ofStoredText_storedText, Except.toOption,
      Option.some.injEq] at hty
    exact h.declared key ty (hty ▸ hty')

/-- What is stored of a field is read. -/
theorem declaredType?_of_stored (hwhole : whole.Regular) {name : String} {ty : FieldType}
    (hty : stored.fields.lookup name = some ty) (hdefault : name ∉ defaultFields) :
    (r.lookup name).bind (declaredType? name) = some ty := by
  have hname := hwhole.identifier _ (Members.mem_of_lookup (h.declared name ty hty))
  have hid : name ≠ Record.idKey := fun he => not_isIdentifier_idKey (he ▸ hname)
  have hmeta : name ≠ metadataKey := fun he => not_isIdentifier_metadataKey (he ▸ hname)
  rw [h.stores.field name hid hmeta, if_neg hdefault, hty]
  simp [declaredType?, hid, FieldType.ofStoredText_storedText, Except.toOption]

/-- **What is read** is narrower than the whole schema, and has the indexes that are stored. -/
theorem exists_ofRecord (hwhole : whole.Regular) : ∃ schema, ofRecord r = .ok schema ∧
    schema.Narrows whole ∧ schema.indexes.Sorted ∧
    ∀ name, schema.indexes.lookup name = stored.indexes.lookup name := by
  obtain ⟨schema, hread, hon, hlookup⟩ := h.stores.exists_ofRecord (h.className ▸ hwhole.valid)
  refine ⟨schema, hread, ⟨fun name ty hty => ?_, fun name target hpointer => ?_⟩,
    hon.sorted_indexes List.Pairwise.nil, hlookup⟩
  · rw [ClassSchema.fieldType?, hon.field, Option.or_eq_some_iff] at hty
    rcases hty with hty | ⟨-, hty⟩
    · exact h.fieldType?_of_declaredType? hty
    · exact hwhole.storable.lookup_of_initial (h.className ▸ hty)
  · have hdefault : name ∉ defaultFields := fun hmem =>
      absurd hpointer (hwhole.ne_pointer_of_default hmem target)
    rw [ClassSchema.fieldType?, hon.field,
      h.declaredType?_of_stored hwhole (h.pointer name target hpointer) hdefault]
    rfl

/-- **A recorded index** is retained. -/
theorem insert_index {index : IndexDescriptor} (hname : '.' ∉ index.name.toList)
    (hunrelated : ∀ f ∈ index.fields, Indexing.isRelationField whole f.1 = false) :
    ∃ r', r.setPath (indexPath index.name) (indexToDatum index) = (.ok (), r') ∧
      Retains whole r'
        { stored with indexes := Members.insert index.name index stored.indexes } := by
  obtain ⟨r', hset, hstores⟩ := h.stores.insert_index hname
  have hlookup {name : String} {other : IndexDescriptor}
      (hother : (Members.insert index.name index stored.indexes).lookup name = some other) :
      name = index.name ∧ other = index ∨ stored.indexes.lookup name = some other := by
    rw [Members.lookup_insert] at hother
    split at hother
    · exact .inl ⟨‹_›, (Option.some.inj hother).symm⟩
    · exact .inr hother
  refine ⟨r', hset, hstores, h.className, h.declared, h.pointer, fun name other hother => ?_,
    fun name other hother => ?_⟩
  · rcases hlookup hother with ⟨rfl, -⟩ | hother
    · exact hname
    · exact h.undotted name other hother
  · rcases hlookup hother with ⟨-, rfl⟩ | hother
    · exact hunrelated
    · exact h.unrelated name other hother

/-- An index that is forgotten is not retained. -/
theorem erase_index {name : String} (hname : '.' ∉ name.toList) :
    Retains whole (r.unsetPath (indexPath name))
      { stored with indexes := Members.erase name stored.indexes } := by
  have hlookup {other : String} {index : IndexDescriptor}
      (hindex : (Members.erase name stored.indexes).lookup other = some index) :
      stored.indexes.lookup other = some index := by
    rw [Members.lookup_erase] at hindex
    split at hindex
    · exact absurd hindex (by simp)
    · exact hindex
  exact ⟨h.stores.erase_index hname, h.className, h.declared, h.pointer,
    fun other index hindex => h.undotted other index (hlookup hindex),
    fun other index hindex => h.unrelated other index (hlookup hindex)⟩

/-- **The indexes of deleted fields** are forgotten one by one. -/
theorem forgetCovered {forgotten : Members IndexDescriptor}
    (hforgotten : ∀ m ∈ forgotten, '.' ∉ m.1.toList) : ∃ stored',
    Retains whole (Indexing.forgetCovered names forgotten r) stored' ∧ ∀ name index,
      stored'.indexes.lookup name = some index ↔ stored.indexes.lookup name = some index ∧
        ∀ m ∈ forgotten, Indexing.Covered names m.2 → m.1 ≠ name := by
  unfold Indexing.forgetCovered
  induction forgotten generalizing r stored with
  | nil => exact ⟨stored, h, by simp⟩
  | cons m rest ih =>
    obtain ⟨hm, hrest⟩ := List.forall_mem_cons.1 hforgotten
    rw [List.foldl_cons]
    split
    case isTrue hcovered =>
      obtain ⟨stored', hstored', hlookup⟩ := ih (h.erase_index hm) hrest
      refine ⟨stored', hstored', fun name index => ?_⟩
      rw [hlookup, Members.lookup_erase, List.forall_mem_cons]
      by_cases hname : name = m.1
      · simp [hname, Indexing.covered_iff.1 hcovered]
      · simp [hname, Ne.symm hname]
    case isFalse hcovered =>
      obtain ⟨stored', hstored', hlookup⟩ := ih h hrest
      refine ⟨stored', hstored', fun name index => ?_⟩
      rw [hlookup, List.forall_mem_cons]
      simp [mt Indexing.covered_iff.2 hcovered]

/-- **Deleted fields** are not retained, and no pointer is among them. -/
theorem unset_fields (hnames : ∀ name ∈ names, isIdentifier name = true)
    (hpointers : ∀ name ∈ names, ∀ target, whole.fieldType? name ≠ some (.pointer target)) :
    Retains whole (Indexing.unsetAll (NameSet.ofList names) r) (stored.removeAll names) where
  stores := h.stores.unset_fields hnames
  className := h.className
  declared name ty hty := by
    rw [ClassSchema.lookup_removeAll] at hty
    split at hty
    · exact absurd hty (by simp)
    · exact h.declared name ty hty
  pointer name target hpointer := by
    rw [ClassSchema.lookup_removeAll, if_neg fun hmem => hpointers name hmem target hpointer]
    exact h.pointer name target hpointer
  undotted := h.undotted
  unrelated := h.unrelated

end Retains

/-- A record that stores the whole schema. -/
theorem Stores.retains (h : Stores r whole) (hwhole : whole.Regular)
    (hunrelated : ∀ m ∈ whole.indexes, ∀ f ∈ m.2.fields,
      Indexing.isRelationField whole f.1 = false) : Retains whole r whole where
  stores := h
  className := rfl
  declared _ _ hty := hty
  pointer _ _ hty := hty
  undotted _ _ hindex := hwhole.undotted _ (Members.mem_of_lookup hindex)
  unrelated _ _ hindex := hunrelated _ (Members.mem_of_lookup hindex)

end Catalog

end ObjectEngine
