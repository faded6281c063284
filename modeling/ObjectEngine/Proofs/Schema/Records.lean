import ObjectEngine.Engine.Catalog
import ObjectEngine.Members.Lemmas
import ObjectEngine.Proofs.Outcome
import ObjectEngine.Proofs.Store.Nesting
import ObjectEngine.Proofs.Stored.Layout
import ObjectEngine.Proofs.Text.Reading

/-!
# What a schema record says

A record of the schema collection is read member by member. A member with a text declares a field,
and the indexes stand two records deep (`Catalog.storedIndexes`); no two members speak of the same
field or index, so that what is read does not depend on their order
(`Catalog.of_foldlM_readMember`).

`Catalog.Stores` says that a record stores a schema, and `Catalog.Stores.ofRecord_eq` that it is
read as that schema. The record that is made of a schema stores it (`Catalog.stores_toRecord`), as
long as its fields have identifiers for names and the initial fields of the class are among them
(`ClassSchema.Storable`): the default fields are not stored, and reading adds all initial fields.
A schema that was built field by field is such a one, whatever indexes it is given
(`Catalog.record_round_trip`).
-/

namespace ObjectEngine

/-! ### Texts of types and stored indexes -/

/-- **A stored type** is read as that type. -/
theorem FieldType.ofStoredText_storedText (ty : FieldType) :
    ofStoredText ty.storedText = .ok ty := by
  cases ty with
  | pointer target => rw [storedText, ofStoredText, Text.afterStart?_append]
  | relation target =>
    have hstar : Text.afterStart? "*" ("relation<" ++ target ++ ">") = none := by
      rw [Text.afterStart?, String.append_assoc, String.toList_append]
      rfl
    have hending : Text.beforeEnding? ">" (target ++ ">") = some target := by
      have hreverse : (">" : String).toList.reverse = ['>'] := rfl
      rw [Text.beforeEnding?, Text.dropEnding?, String.toList_append, List.reverse_append,
        Text.dropStart?_append]
      simp
    rw [storedText, ofStoredText, hstar, String.append_assoc, Text.afterStart?_append]
    simp only [Option.bind_some, hending]
  | _ => rfl

/-- **What is read as a type** is the stored text of that type. -/
theorem FieldType.storedText_of_ofStoredText {text : String} {ty : FieldType}
    (h : ofStoredText text = .ok ty) : ty.storedText = text := by
  rw [ofStoredText] at h
  split at h
  · rename_i target hstart
    obtain rfl := Except.ok.inj h
    exact (Text.eq_append_of_afterStart? hstart).symm
  split at h
  · rename_i target hinner
    obtain rfl := Except.ok.inj h
    obtain ⟨rest, hstart, hending⟩ := Option.bind_eq_some_iff.1 hinner
    rw [storedText, Text.eq_append_of_afterStart? hstart, Text.eq_append_of_beforeEnding? hending,
      String.append_assoc]
  · have hplain := Outcome.ofOption_eq_ok.1 h
    unfold ofPlainText? at hplain
    split at hplain <;> cases hplain <;> rfl

namespace Catalog

open Record (nested)

/-- **A stored index** is read as that index, under its name. -/
theorem indexOfDatum_indexToDatum (index : IndexDescriptor) :
    indexOfDatum index.name (indexToDatum index) = .ok index := by
  have hfield (f : String × Int32) :
      indexField? (.array [.string f.1, .int (Int64.ofInt f.2.toInt)]) = some f := by
    rw [indexField?, Int64.ofInt_int32ToInt, Int32.toInt_toInt64, Words.int32?_eq_some_iff.2 rfl]
    rfl
  have hfields (fields : List (String × Int32)) :
      (fields.map fun f => Datum.array [.string f.1, .int (Int64.ofInt f.2.toInt)]).mapM
        indexField? = some fields := by
    induction fields with
    | nil => rfl
    | cons f rest ih => rw [List.map_cons, List.mapM_cons, hfield, ih]; rfl
  have hkeys {caseInsensitive keys unique : Datum} :
      List.lookup "keys" [("caseInsensitive", caseInsensitive), ("keys", keys),
        ("unique", unique)] = some keys := rfl
  rw [indexToDatum, indexOfDatum, hkeys]
  simp only [hfields]
  cases index with
  | mk name fields unique caseInsensitive => rfl

/-! ### Reading a record -/

/-- The stored indexes of a schema record. -/
def storedIndexes (r : Record) : Record := nested "indexes" (nested metadataKey r)

/-- The type that a member declares its field to have. -/
def declaredType? (key : String) : Datum → Option FieldType
  | .string text => if key = Record.idKey then none else (FieldType.ofStoredText text).toOption
  | _ => none

/-- What a stored index is read as. -/
def storedIndex? (indexes : Record) (name : String) : Option IndexDescriptor :=
  (indexes.lookup name).bind fun d => (indexOfDatum name d).toOption

/-- **A schema is read on** from members: it has the class of the schema before, and of each field
and each index what the members say of it, or else what the schema before said. -/
structure ReadOn (members : Record) (start schema : ClassSchema) : Prop where
  className : schema.className = start.className
  sorted : start.fields.Sorted → schema.fields.Sorted
  sorted_indexes : start.indexes.Sorted → schema.indexes.Sorted
  field (key : String) : schema.fields.lookup key =
    ((members.lookup key).bind (declaredType? key)).or (start.fields.lookup key)
  index (name : String) : schema.indexes.lookup name =
    (storedIndex? (storedIndexes members) name).or (start.indexes.lookup name)
  readable (name : String) (d : Datum) : (storedIndexes members).lookup name = some d →
    ∃ index, indexOfDatum name d = .ok index

/-- Only the metadata have indexes. -/
theorem storedIndexes_congr {r r' : Record} (h : r.lookup metadataKey = r'.lookup metadataKey) :
    storedIndexes r = storedIndexes r' :=
  congrArg (nested "indexes") (Record.nested_congr h)

theorem storedIndexes_of_none {r : Record} (h : r.lookup metadataKey = none) :
    storedIndexes r = [] :=
  (storedIndexes_congr h : storedIndexes r = storedIndexes [])

theorem storedIndexes_cons (key : String) (d : Datum) (rest : Record) :
    storedIndexes ((key, d) :: rest) =
      if key = metadataKey then storedIndexes [(key, d)] else storedIndexes rest := by
  split
  case isTrue hkey =>
    refine storedIndexes_congr ?_
    rw [Members.lookup_cons, Members.lookup_cons, if_pos hkey.symm, if_pos hkey.symm]
  case isFalse hkey =>
    exact storedIndexes_congr ((Members.lookup_cons ..).trans (if_neg (Ne.symm hkey)))

theorem storedIndexes_of_ne {key : String} (hkey : key ≠ metadataKey) (d : Datum) :
    storedIndexes [(key, d)] = [] :=
  storedIndexes_of_none ((Members.lookup_cons ..).trans (if_neg (Ne.symm hkey)))

/-- Stored indexes are read one by one. -/
theorem of_foldlM_indexes {indexes : Record} (hsorted : indexes.Sorted)
    {start schema : ClassSchema}
    (h : indexes.foldlM (fun schema m => do
      let index ← indexOfDatum m.1 m.2
      return { schema with indexes := Members.insert m.1 index schema.indexes }) start =
        .ok schema) :
    schema.className = start.className ∧ schema.fields = start.fields ∧
      (start.indexes.Sorted → schema.indexes.Sorted) ∧
      (∀ name, schema.indexes.lookup name =
        (storedIndex? indexes name).or (start.indexes.lookup name)) ∧
      ∀ name d, indexes.lookup name = some d → ∃ index, indexOfDatum name d = .ok index := by
  induction indexes generalizing start with
  | nil =>
    obtain rfl := Except.ok.inj h
    exact ⟨rfl, rfl, id, fun _ => rfl, fun _ _ h => absurd h (by simp)⟩
  | cons m rest ih =>
    obtain ⟨key, d⟩ := m
    obtain ⟨hfirst, hrest⟩ := List.pairwise_cons.1 hsorted
    obtain ⟨next, hnext, h⟩ := Outcome.bind_eq_ok.1 h
    obtain ⟨index, hindex, hnext⟩ := Outcome.bind_eq_ok.1 hnext
    obtain rfl := Except.ok.inj hnext
    obtain ⟨hclass, hfields, hindexes, hlookup, hreadable⟩ := ih hrest h
    refine ⟨hclass, hfields, fun hs => hindexes (Members.sorted_insert hs _ _), fun name => ?_,
      fun name d' hd' => ?_⟩
    · rw [hlookup, storedIndex?, storedIndex?, Members.lookup_insert, Members.lookup_cons]
      by_cases hname : name = key
      · subst hname
        have hnone : List.lookup name rest = none :=
          Members.lookup_eq_none fun m hm he => String.lt_irrefl _ (he ▸ hfirst m hm)
        simp [hnone, hindex, Except.toOption]
      · simp [hname]
    · rw [Members.lookup_cons] at hd'
      split at hd'
      case isTrue hname =>
        obtain rfl := Option.some.inj hd'
        exact ⟨index, hname ▸ hindex⟩
      case isFalse => exact hreadable name d' hd'

/-- A member that declares a field. -/
theorem ReadOn.of_type {start : ClassSchema} {key text : String} {ty : FieldType}
    (hkey : key ≠ Record.idKey) (hty : FieldType.ofStoredText text = .ok ty) :
    ReadOn [(key, .string text)] start
      { start with fields := Members.insert key ty start.fields } := by
  have hindexes : storedIndexes [(key, .string text)] = [] := by
    by_cases h : key = metadataKey
    · subst h; rfl
    · exact storedIndexes_of_ne h _
  refine ⟨rfl, fun hs => Members.sorted_insert hs _ _, id, fun k => ?_, fun name => ?_, ?_⟩
  · rw [Members.lookup_insert, Members.lookup_cons]
    by_cases hk : k = key
    · subst hk
      simp [declaredType?, hkey, hty, Except.toOption]
    · simp [hk]
  · rw [hindexes]; rfl
  · rw [hindexes]
    exact fun _ _ h => absurd h (by simp)

/-- **One member** is read on from. -/
theorem readOn_of_readMember {start schema : ClassSchema} {key : String} {d : Datum}
    (hsorted : (storedIndexes [(key, d)]).Sorted) (h : readMember start key d = .ok schema) :
    ReadOn [(key, d)] start schema := by
  have hsilent {d : Datum} (hty : declaredType? key d = none)
      (hindexes : storedIndexes [(key, d)] = []) : ReadOn [(key, d)] start start := by
    refine ⟨rfl, id, id, fun k => ?_, fun name => ?_, ?_⟩
    · rw [Members.lookup_cons]
      by_cases hk : k = key
      · subst hk; simp [hty]
      · simp [hk]
    · rw [hindexes]; rfl
    · rw [hindexes]
      exact fun _ _ h => absurd h (by simp)
  unfold readMember at h
  split at h
  case isTrue hkey =>
    obtain rfl := Except.ok.inj h
    subst hkey
    refine hsilent ?_ (storedIndexes_of_ne (by decide) _)
    cases d <;> rfl
  case isFalse hkey =>
    split at h
    · rename_i metadata
      split at h
      · rename_i indexes hindexes
        have hstored : storedIndexes [(metadataKey, .record metadata)] = indexes := by
          exact Record.nested_of_lookup hindexes
        obtain ⟨hclass, hfields, hsortedIndexes, hlookup, hreadable⟩ :=
          of_foldlM_indexes (hstored ▸ hsorted) h
        refine ⟨hclass, fun hs => hfields ▸ hs, hsortedIndexes, fun k => ?_, fun name => ?_, ?_⟩
        · rw [hfields, Members.lookup_cons]
          split <;> rfl
        · rw [hlookup]
          exact congrArg (fun i => (storedIndex? i name).or _) hstored.symm
        · exact fun name d hd => hreadable name d (hstored ▸ hd)
      · rename_i hindexes
        obtain rfl := Except.ok.inj h
        refine hsilent rfl ?_
        change nested "indexes" metadata = []
        rw [nested]
        cases hd : metadata.lookup "indexes" with
        | none => rfl
        | some d =>
          cases d with
          | record indexes => exact absurd hd (hindexes indexes)
          | _ => rfl
    · rename_i text _
      obtain ⟨ty, hty, h⟩ := Outcome.bind_eq_ok.1 h
      obtain rfl := Except.ok.inj h
      exact .of_type hkey hty
    · exact absurd h (by simp)

/-- Members of different keys are read on from one after another. -/
theorem ReadOn.cons {start next schema : ClassSchema} {key : String} {d : Datum} {rest : Record}
    (hkey : rest.lookup key = none) (hfirst : ReadOn [(key, d)] start next)
    (hrest : ReadOn rest next schema) : ReadOn ((key, d) :: rest) start schema where
  className := hrest.className.trans hfirst.className
  sorted hs := hrest.sorted (hfirst.sorted hs)
  sorted_indexes hs := hrest.sorted_indexes (hfirst.sorted_indexes hs)
  field k := by
    rw [hrest.field, hfirst.field, Members.lookup_cons, Members.lookup_cons]
    by_cases hk : k = key
    · subst hk
      simp [hkey]
    · simp [hk]
  index name := by
    rw [hrest.index, hfirst.index, storedIndexes_cons key d rest]
    by_cases h : key = metadataKey
    · subst h
      rw [storedIndexes_of_none hkey, if_pos rfl]
      rfl
    · rw [if_neg h, storedIndexes_of_ne h, storedIndex?, storedIndex?, List.lookup_nil,
        Option.bind_none, Option.none_or]
  readable name d' hd' := by
    rw [storedIndexes_cons] at hd'
    split at hd'
    · exact hfirst.readable name d' hd'
    · exact hrest.readable name d' hd'

/-- **What a record is read as**: nothing depends on the order of its members. -/
theorem of_foldlM_readMember {members : Record} (hsorted : members.Sorted)
    (hindexes : (storedIndexes members).Sorted) {start schema : ClassSchema}
    (h : members.foldlM (fun schema m => readMember schema m.1 m.2) start = .ok schema) :
    ReadOn members start schema := by
  induction members generalizing start with
  | nil =>
    obtain rfl := Except.ok.inj h
    exact ⟨rfl, id, id, fun _ => rfl, fun _ => rfl, fun _ _ h => absurd h (by simp [storedIndexes,
      nested])⟩
  | cons m rest ih =>
    obtain ⟨key, d⟩ := m
    obtain ⟨hfirst, hrest⟩ := List.pairwise_cons.1 hsorted
    have hkey : List.lookup key rest = none :=
      Members.lookup_eq_none fun m hm he => String.lt_irrefl _ (he ▸ hfirst m hm)
    obtain ⟨next, hnext, h⟩ := Outcome.bind_eq_ok.1 h
    rw [storedIndexes_cons] at hindexes
    by_cases hmeta : key = metadataKey
    · rw [if_pos hmeta] at hindexes
      have hnone : storedIndexes rest = [] := storedIndexes_of_none (hmeta ▸ hkey)
      exact (readOn_of_readMember hindexes hnext).cons hkey
        (ih hrest (hnone ▸ List.Pairwise.nil) h)
    · rw [if_neg hmeta] at hindexes
      have hnone : (storedIndexes [(key, d)]).Sorted := by
        rw [storedIndexes_of_ne hmeta]
        exact List.Pairwise.nil
      exact (readOn_of_readMember hnone hnext).cons hkey
        (ih hrest hindexes h)

/-- **A schema that is read** has the initial fields of its class, and what the record says. -/
theorem readOn_of_ofRecord {r : Record} (hsorted : r.Sorted) (hindexes : (storedIndexes r).Sorted)
    {schema : ClassSchema} (h : ofRecord r = .ok schema) :
    ReadOn r { className := schema.className
               fields := ClassSchema.initialFields schema.className
               indexes := [] } schema := by
  obtain ⟨className, -, h⟩ := Outcome.bind_eq_ok.1 h
  rw [ClassSchema.create] at h
  split at h
  · rename_i start hstart
    split at hstart
    · obtain rfl := Except.ok.inj hstart
      have hon := of_foldlM_readMember hsorted hindexes h
      obtain rfl : schema.className = className := hon.className
      exact hon
    · exact absurd hstart (by simp)
  · exact absurd h (by simp [bind, Except.bind, throw, throwThe, MonadExceptOf.throw])

end Catalog

/-! ### Schemas that records can store -/

/-- **A schema as a record can hold it**: it has a class, its fields have identifiers for names and
contain the initial fields of the class, and the indexes stand under their names. -/
structure ClassSchema.Storable (schema : ClassSchema) : Prop where
  valid : isClassName schema.className = true
  sorted : schema.fields.Sorted
  identifier (f : String × FieldType) : f ∈ schema.fields → isIdentifier f.1 = true
  initial (f : String × FieldType) : f ∈ initialFields schema.className →
    schema.fields.lookup f.1 = some f.2
  sorted_indexes : schema.indexes.Sorted
  name (m : String × IndexDescriptor) : m ∈ schema.indexes → m.2.name = m.1

/-- **A schema as a store keeps it**: one that a record can hold, and the names of the indexes have
no full stop. -/
structure ClassSchema.Regular (schema : ClassSchema) : Prop where
  valid : isClassName schema.className = true
  sorted : schema.fields.Sorted
  identifier (f : String × FieldType) : f ∈ schema.fields → isIdentifier f.1 = true
  initial (f : String × FieldType) : f ∈ initialFields schema.className →
    schema.fields.lookup f.1 = some f.2
  sorted_indexes : schema.indexes.Sorted
  name (m : String × IndexDescriptor) : m ∈ schema.indexes → m.2.name = m.1
  undotted (m : String × IndexDescriptor) : m ∈ schema.indexes → '.' ∉ m.1.toList

namespace ClassSchema

variable {schema next : ClassSchema} {className name key : String}

theorem isSome_lookup_initialFields (className : String) (h : key ∈ defaultFields) :
    ((initialFields className).lookup key).isSome := by
  rw [initialFields, Members.lookup_ofList, Option.isSome_iff_ne_none, Ne,
    List.lookup_eq_none_iff]
  intro hnone
  have hmem (f : String × FieldType) (hf : f ∈ [("objectId", FieldType.string),
      ("createdAt", .date), ("updatedAt", .date), ("ACL", .acl)]) : key ≠ f.1 := by
    simpa using hnone f (List.mem_reverse.2 (List.mem_append_left _ hf))
  revert h
  simpa [defaultFields] using hmem

namespace Storable

theorem lookup_eq_none (h : schema.Storable) (hkey : ¬isIdentifier key = true) :
    schema.fields.lookup key = none :=
  Members.lookup_eq_none fun f hf he => hkey (he ▸ h.identifier f hf)

/-- The initial fields of the class have no other types. -/
theorem lookup_of_initial (h : schema.Storable) {ty : FieldType}
    (hinitial : (initialFields schema.className).lookup key = some ty) :
    schema.fields.lookup key = some ty :=
  h.initial _ (Members.mem_of_lookup hinitial)

theorem lookup_or_initial (h : schema.Storable) (key : String) :
    (schema.fields.lookup key).or ((initialFields schema.className).lookup key) =
      schema.fields.lookup key := by
  cases hinitial : (initialFields schema.className).lookup key with
  | none => rw [Option.or_none]
  | some ty => rw [h.lookup_of_initial hinitial, Option.some_or]

end Storable

/-- Indexes may have any names in a schema that a record holds. -/
theorem Storable.with_indexes (h : schema.Storable) {indexes : Members IndexDescriptor}
    (hsorted : indexes.Sorted) (hname : ∀ m ∈ indexes, m.2.name = m.1) :
    Storable { schema with indexes } :=
  ⟨h.valid, h.sorted, h.identifier, h.initial, hsorted, hname⟩

theorem Regular.storable (h : schema.Regular) : schema.Storable :=
  ⟨h.valid, h.sorted, h.identifier, h.initial, h.sorted_indexes, h.name⟩

/-- **A new class** has the initial fields and nothing else. -/
theorem regular_create (h : create className = .ok schema) : schema.Regular := by
  rw [create] at h
  split at h
  case isTrue hvalid =>
    obtain rfl := Except.ok.inj h
    exact ⟨hvalid, Members.sorted_ofList _, isIdentifier_of_initialFields,
      fun f hf => (Members.sorted_ofList _).lookup_of_mem hf, List.Pairwise.nil,
      fun _ hm => absurd hm (by simp), fun _ hm => absurd hm (by simp)⟩
  case isFalse => exact absurd h (by simp)

/-- **A declared field** has an identifier for a name, and is not there before with another type. -/
theorem addField_eq_ok {ty : FieldType} (h : schema.addField name ty = .ok next) :
    isIdentifier name = true ∧ ((schema.fieldType? name = some ty ∧ next = schema) ∨
      (schema.fieldType? name = none ∧
        next = { schema with fields := Members.insert name ty schema.fields })) := by
  unfold addField at h
  split at h
  · exact absurd h (by simp)
  rename_i hname
  refine ⟨by simpa [isFieldName] using hname, ?_⟩
  split at h
  · rename_i existing hexisting
    split at h
    case isTrue hty => exact .inl ⟨hty ▸ hexisting, (Except.ok.inj h).symm⟩
    case isFalse => exact absurd h (by simp)
  · rename_i hnone
    exact .inr ⟨hnone, (Except.ok.inj h).symm⟩

theorem Regular.insert_field (h : schema.Regular) (hidentifier : isIdentifier name = true)
    (hname : schema.fieldType? name = none) (ty : FieldType) :
    Regular { schema with fields := Members.insert name ty schema.fields } where
  valid := h.valid
  sorted := Members.sorted_insert h.sorted _ _
  identifier f hf := by
    rcases Members.mem_insert hf with rfl | hf
    · exact hidentifier
    · exact h.identifier f hf
  initial f hf := by
    have hne : f.1 ≠ name := fun he => by
      have hsome : schema.fieldType? f.1 = some f.2 := h.initial f hf
      rw [he, hname] at hsome
      exact absurd hsome (by simp)
    rw [Members.lookup_insert, if_neg hne]
    exact h.initial f hf
  sorted_indexes := h.sorted_indexes
  name := h.name
  undotted := h.undotted

/-- A schema that was built field by field is one that a store can keep. -/
theorem Built.regular (hs : schema.Built) : schema.Regular := by
  induction hs with
  | create h => exact regular_create h
  | addField _ h ih =>
    obtain ⟨hidentifier, ⟨-, rfl⟩ | ⟨hname, rfl⟩⟩ := addField_eq_ok h
    · exact ih
    · exact ih.insert_field hidentifier hname _

end ClassSchema

namespace Catalog

open Record (nested)

variable {r : Record} {schema : ClassSchema}

theorem not_isIdentifier_idKey : ¬isIdentifier Record.idKey = true := by decide

theorem not_isIdentifier_metadataKey : ¬isIdentifier metadataKey = true := by decide

/-- The metadata and the indexes in them are records, if they are there. -/
structure Shaped (r : Record) : Prop where
  metadata : r.Nests metadataKey
  indexes : (nested metadataKey r).Nests "indexes"

/-- **A record stores a schema.** -/
structure Stores (r : Record) (schema : ClassSchema) : Prop where
  sorted : Members.Sorted r
  sorted_indexes : (storedIndexes r).Sorted
  shaped : Shaped r
  id : r.lookup Record.idKey = some (.string schema.className)
  field (key : String) : key ≠ Record.idKey → key ≠ metadataKey → r.lookup key =
    if key ∈ defaultFields then none
    else (schema.fields.lookup key).map fun ty => .string ty.storedText
  index (name : String) : ((storedIndexes r).lookup name).map (indexOfDatum name) =
    (schema.indexes.lookup name).map .ok

theorem Stores.id_ne_none (h : Stores r schema) : r.lookup Record.idKey ≠ none := by
  rw [h.id]
  simp

/-- Every member of a record that stores a schema can be read. -/
theorem Stores.readable (h : Stores r schema) {key : String} {d : Datum} (hd : (key, d) ∈ r)
    (start : ClassSchema) : ∃ next, readMember start key d = .ok next := by
  have hlookup : r.lookup key = some d := h.sorted.lookup_of_mem hd
  by_cases hid : key = Record.idKey
  · exact ⟨start, if_pos hid⟩
  by_cases hmeta : key = metadataKey
  · subst hmeta
    obtain ⟨metadata, rfl⟩ := h.shaped.metadata d hlookup
    have hnested : nested metadataKey r = metadata := Record.nested_of_lookup hlookup
    cases hd : metadata.lookup "indexes" with
    | none =>
      refine ⟨start, ?_⟩
      unfold readMember
      rw [if_neg hid]
      simp only [metadataKey, hd]
    | some d =>
      obtain ⟨indexes, rfl⟩ := h.shaped.indexes d (hnested ▸ hd)
      have hstored : storedIndexes r = indexes := by
        rw [storedIndexes, hnested, Record.nested_of_lookup hd]
      have hsorted : Members.Sorted indexes := hstored ▸ h.sorted_indexes
      unfold readMember
      rw [if_neg hid]
      simp only [metadataKey, hd]
      refine Outcome.exists_foldlM fun m hm next => ?_
      have hindex := h.index m.1
      rw [hstored, hsorted.lookup_of_mem hm, Option.map_some] at hindex
      obtain ⟨index, -, hindex⟩ := Option.map_eq_some_iff.1 hindex.symm
      exact ⟨_, Outcome.bind_eq_ok.2 ⟨index, hindex.symm, rfl⟩⟩
  · have hfield := h.field key hid hmeta
    rw [hlookup] at hfield
    split at hfield
    · exact absurd hfield (by simp)
    · obtain ⟨ty, -, rfl⟩ := Option.map_eq_some_iff.1 hfield.symm
      rw [readMember, if_neg hid]
      exact ⟨_, Outcome.bind_eq_ok.2 ⟨ty, FieldType.ofStoredText_storedText ty, rfl⟩⟩

/-- What a member of a record that stores a schema declares is so in the schema. -/
theorem Stores.declaredType? (h : Stores r schema) (hschema : schema.Storable) (key : String) :
    ((r.lookup key).bind (Catalog.declaredType? key)).or
      ((ClassSchema.initialFields schema.className).lookup key) = schema.fields.lookup key := by
  rw [← hschema.lookup_or_initial]
  by_cases hid : key = Record.idKey
  · subst hid
    rw [h.id, hschema.lookup_eq_none not_isIdentifier_idKey]
    rfl
  by_cases hmeta : key = metadataKey
  · subst hmeta
    rw [hschema.lookup_eq_none not_isIdentifier_metadataKey]
    cases hlookup : r.lookup metadataKey with
    | none => rfl
    | some d =>
      obtain ⟨members, rfl⟩ := h.shaped.metadata d hlookup
      rfl
  rw [h.field key hid hmeta]
  split
  case isTrue hdefault =>
    obtain ⟨ty, hty⟩ := Option.isSome_iff_exists.1
      (ClassSchema.isSome_lookup_initialFields schema.className hdefault)
    rw [hty, hschema.lookup_of_initial hty]
    rfl
  case isFalse =>
    cases schema.fields.lookup key with
    | none => rfl
    | some ty =>
      simp [Catalog.declaredType?, hid, FieldType.ofStoredText_storedText, Except.toOption]

/-- **A record that stores a schema** can be read, and has the indexes of the schema. -/
theorem Stores.exists_ofRecord (h : Stores r schema) (hvalid : isClassName schema.className = true) :
    ∃ read, ofRecord r = .ok read ∧
      ReadOn r { className := schema.className
                 fields := ClassSchema.initialFields schema.className
                 indexes := [] } read ∧
      ∀ name, read.indexes.lookup name = schema.indexes.lookup name := by
  let start : ClassSchema :=
    { className := schema.className, fields := ClassSchema.initialFields schema.className,
      indexes := [] }
  have hid : r.id? = some schema.className := by rw [Record.id?, Record.string?, h.id]; rfl
  have hcreate : ClassSchema.create schema.className = .ok start := if_pos hvalid
  obtain ⟨read, hread⟩ : ∃ read,
      r.foldlM (fun schema m => readMember schema m.1 m.2) start = .ok read :=
    Outcome.exists_foldlM fun m hm next => h.readable hm next
  have hon := of_foldlM_readMember h.sorted h.sorted_indexes hread
  refine ⟨read, Outcome.bind_eq_ok.2 ⟨schema.className, Outcome.ofOption_eq_ok.2 hid, ?_⟩, hon,
    fun name => ?_⟩
  · rw [hcreate]
    exact hread
  · have hindex := h.index name
    rw [hon.index, storedIndex?]
    cases hstored : (storedIndexes r).lookup name with
    | none =>
      rw [hstored] at hindex
      exact (Option.map_eq_none_iff.1 hindex.symm).symm
    | some d =>
      rw [hstored] at hindex
      obtain ⟨index, hlookup, hd⟩ := Option.map_eq_some_iff.1 hindex.symm
      simp [hlookup, ← hd, Except.toOption]

/-- **A record that stores a schema is read as that schema.** -/
theorem Stores.ofRecord_eq (h : Stores r schema) (hschema : schema.Storable) :
    ofRecord r = .ok schema := by
  obtain ⟨read, hread, hon, hlookup⟩ := h.exists_ofRecord hschema.valid
  have hfields : read.fields = schema.fields := by
    refine Members.Sorted.ext (hon.sorted (Members.sorted_ofList _)) hschema.sorted fun key => ?_
    rw [hon.field]
    exact h.declaredType? hschema key
  have hindexes : read.indexes = schema.indexes :=
    Members.Sorted.ext (hon.sorted_indexes List.Pairwise.nil) hschema.sorted_indexes hlookup
  have hsame : read = schema := by
    cases read
    cases schema
    obtain rfl : _ = _ := hon.className
    obtain rfl : _ = _ := hfields
    obtain rfl : _ = _ := hindexes
    rfl
  rw [hread, hsame]

/-! ### Storing a schema -/

theorem lookup_toRecord (hschema : schema.Storable) {key : String} (hmeta : key ≠ metadataKey) :
    (toRecord schema).lookup key =
      if key = Record.idKey then some (.string schema.className)
      else if key ∈ defaultFields then none
      else (schema.fields.lookup key).map fun ty => .string ty.storedText := by
  have hfilter : (schema.fields.filter fun f => !defaultFields.contains f.1).lookup key =
      if key ∈ defaultFields then none else schema.fields.lookup key := by
    induction schema.fields with
    | nil => simp
    | cons f rest ih =>
      rw [List.filter_cons, Members.lookup_cons]
      by_cases hf : f.1 ∈ defaultFields
      · rw [if_neg (by simpa using hf), ih]
        split
        case isTrue => rfl
        case isFalse hkey => rw [if_neg fun he : key = f.1 => hkey (he ▸ hf)]
      · rw [if_pos (by simpa using hf), Members.lookup_cons, ih]
        by_cases hkey : key = f.1
        · rw [if_pos hkey, if_pos hkey, if_neg (hkey ▸ hf)]
        · rw [if_neg hkey, if_neg hkey]
  have hsorted : Members.Sorted (Members.mapValues (fun ty => Datum.string ty.storedText)
      (schema.fields.filter fun f => !defaultFields.contains f.1)) :=
    Members.sorted_mapValues (List.Pairwise.filter _ hschema.sorted) _
  rw [toRecord, Members.lookup_insert, if_neg hmeta, Members.lookup_insertAll,
    hsorted.lookup_reverse, Members.lookup_mapValues, hfilter, Members.lookup_cons]
  by_cases hid : key = Record.idKey
  · subst hid
    rw [hschema.lookup_eq_none not_isIdentifier_idKey]
    simp
  · simp [hid, apply_ite (Option.map _)]

/-- **The record made of a schema** stores it. -/
theorem stores_toRecord (hschema : schema.Storable) : Stores (toRecord schema) schema := by
  have hnested : nested metadataKey (toRecord schema) =
      [("indexes", .record (Members.mapValues indexToDatum schema.indexes))] :=
    (Record.nested_insert ..).trans (if_pos rfl)
  have hstored : storedIndexes (toRecord schema) =
      Members.mapValues indexToDatum schema.indexes := by
    rw [storedIndexes, hnested]
    rfl
  refine ⟨?_, ?_, ⟨fun d hd => ?_, fun d hd => ?_⟩, ?_, fun key hid hmeta => ?_, fun name => ?_⟩
  · exact Members.sorted_insert (Members.sorted_insertAll (List.pairwise_singleton _ _) _) _ _
  · exact hstored ▸ Members.sorted_mapValues hschema.sorted_indexes _
  · rw [toRecord, Members.lookup_insert, if_pos rfl] at hd
    exact ⟨_, (Option.some.inj hd).symm⟩
  · rw [hnested, Members.lookup_cons, if_pos rfl] at hd
    exact ⟨_, (Option.some.inj hd).symm⟩
  · rw [lookup_toRecord hschema (by decide), if_pos rfl]
  · rw [lookup_toRecord hschema hmeta, if_neg hid]
  · rw [hstored, Members.lookup_mapValues]
    cases hlookup : schema.indexes.lookup name with
    | none => rfl
    | some index =>
      have hname : index.name = name := hschema.name _ (Members.mem_of_lookup hlookup)
      simp only [Option.map_some]
      rw [← hname, indexOfDatum_indexToDatum]

/-- **Storing and reading a schema**: what is stored of a schema that was built field by field, with
any indexes under their names, is read as that schema again; and so is what is stored of a type,
which no other text is read as. -/
theorem record_round_trip (hs : schema.Built) {indexes : Members IndexDescriptor}
    (hsorted : indexes.Sorted) (hname : ∀ m ∈ indexes, m.2.name = m.1) :
    ofRecord (toRecord { schema with indexes }) = .ok { schema with indexes } ∧
      (∀ ty : FieldType, FieldType.ofStoredText ty.storedText = .ok ty) ∧
      ∀ (text : String) (ty : FieldType), FieldType.ofStoredText text = .ok ty →
        ty.storedText = text := by
  have hstorable := hs.regular.storable.with_indexes hsorted hname
  exact ⟨(stores_toRecord hstorable).ofRecord_eq hstorable, FieldType.ofStoredText_storedText,
    fun _ _ => FieldType.storedText_of_ofStoredText⟩

/-- Roles that are ranked below another. -/
def rankedRole : ClassSchema :=
  { className := "_Role"
    fields := [("ACL", .acl), ("above", .pointer "_Role"), ("createdAt", .date), ("name", .string),
      ("objectId", .string), ("rank", .number), ("roles", .relation "_Role"),
      ("updatedAt", .date), ("users", .relation "_User")]
    indexes := [] }

theorem built_rankedRole : rankedRole.Built :=
  .of_withFields "_Role" [("rank", .number), ("above", .pointer "_Role")] rfl

theorem record_round_trip_rankedRole :
    let indexes : Members IndexDescriptor :=
      [("", { name := "", fields := [], unique := true }),
       ("_id", { name := "_id", fields := [("above.rank", -1), ("rank", 7)] })]
    ofRecord (toRecord { rankedRole with indexes }) = .ok { rankedRole with indexes } :=
  (record_round_trip built_rankedRole (by decide) (by decide)).1

end Catalog

end ObjectEngine
