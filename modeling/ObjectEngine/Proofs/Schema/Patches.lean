import ObjectEngine.Proofs.Schema.Records

/-!
# Updates of schema records

The operations on a class change its record by updates at single paths. A path that is removed
takes away what stands there and below, so a record stores its schema no longer if the path leads
to, or above, a place that the schema needs (`Catalog.Needed`): the class itself, the fields of an
index, and its flags that are on. Any other path is harmless (`Catalog.Stores.unsetPath`), and what
is lost is not restored by removing more (`Record.Missing.unsetPath`).

The path of an index is put together from its name, so that it leads to the index only if the name
has no full stop (`Catalog.setPath_indexPath`).
-/

namespace ObjectEngine

namespace Catalog

open Record (nested Missing)

variable {r : Record} {schema : ClassSchema} {path name : String}

/-! ### What a schema needs -/

/-- **What the record of an index needs**: its fields, and the flags that are on. -/
inductive Needs (index : IndexDescriptor) : String → Prop
  | keys : Needs index "keys"
  | unique : index.unique = true → Needs index "unique"
  | caseInsensitive : index.caseInsensitive = true → Needs index "caseInsensitive"

/-- **The places of a schema record** that its schema needs, but for the fields. -/
inductive Needed (schema : ClassSchema) : List String → Prop
  | id : Needed schema [Record.idKey]
  | index {m : String × IndexDescriptor} {key : String} : m ∈ schema.indexes → Needs m.2 key →
    Needed schema [metadataKey, "indexes", m.1, key]

/-- The fields are not among these places. -/
theorem Needed.congr {schema' : ClassSchema} {place : List String} (h : Needed schema place)
    (hindexes : schema'.indexes = schema.indexes) : Needed schema' place := by
  cases h with
  | id => exact .id
  | index hm hkey => exact .index (hindexes ▸ hm) hkey

/-- **What is read as an index** has all that the index needs. -/
theorem lookup_of_needs {d : Datum} {index : IndexDescriptor} {key : String}
    (h : indexOfDatum name d = .ok index) (hkey : Needs index key) :
    d.members.lookup key ≠ none := by
  cases d with
  | record members =>
    change members.lookup key ≠ none
    simp only [indexOfDatum] at h
    split at h
    · rename_i keys hkeys
      split at h
      · obtain rfl := Except.ok.inj h
        have hflag {key : String} (h : flag key members = true) : members.lookup key ≠ none := by
          intro hnone
          rw [flag, hnone] at h
          exact absurd h (by simp)
        cases hkey with
        | keys => rw [hkeys]; simp
        | unique h => exact hflag h
        | caseInsensitive h => exact hflag h
      · exact absurd h (by simp)
    · exact absurd h (by simp)
  | _ => exact absurd h (by simp [indexOfDatum])

/-- An index is read the same without anything that it does not need. -/
theorem indexOfDatum_without {d : Datum} {index : IndexDescriptor} {segments : List String}
    (h : indexOfDatum name d = .ok index) (hsegments : ∀ key, Needs index key → segments ≠ [key]) :
    indexOfDatum name (d.without segments) = .ok index := by
  cases d with
  | record members =>
    cases segments with
    | nil => exact h
    | cons s rest =>
      -- an array and a flag have nothing below them
      have hflag {key : String} (hneeds : flag key members = true → Needs index key) :
          flag key (Record.unsetAlong (s :: rest) members) = flag key members := by
        unfold flag
        rw [Record.lookup_unsetAlong_cons]
        by_cases hkey : key = s
        · subst hkey
          rw [if_pos rfl]
          by_cases hrest : rest = []
          · subst hrest
            rw [if_pos rfl]
            cases hon : flag key members with
            | true => exact absurd rfl (hsegments key (hneeds hon))
            | false => exact hon.symm
          · rw [if_neg hrest]
            cases members.lookup key with
            | none => rfl
            | some d => cases d <;> rfl
        · rw [if_neg hkey]
      simp only [indexOfDatum] at h
      split at h
      · rename_i keys hkeys
        split at h
        · rename_i fields hfields
          obtain rfl := Except.ok.inj h
          have hlookup : (Record.unsetAlong (s :: rest) members).lookup "keys" =
              some (.array keys) := by
            rw [Record.lookup_unsetAlong_cons, hkeys]
            split
            case isTrue hs =>
              rw [if_neg fun hrest => hsegments "keys" .keys (by rw [hs, hrest])]
              rfl
            case isFalse => rfl
          simp only [Datum.without, indexOfDatum, hlookup, hfields]
          rw [hflag fun h => .unique h, hflag fun h => .caseInsensitive h]
        · exact absurd h (by simp)
      · exact absurd h (by simp)
  | _ => exact absurd h (by simp [indexOfDatum])

/-! ### Removing what is not needed -/

/-- **A path that is removed** leaves the stored indexes, takes them all away, or removes something
in them. -/
theorem storedIndexes_unsetAlong {segments : List String} (hne : segments ≠ []) (r : Record) :
    storedIndexes (Record.unsetAlong segments r) = storedIndexes r ∨
    (segments <+: [metadataKey, "indexes"] ∧
      storedIndexes (Record.unsetAlong segments r) = []) ∨
    ∃ s rest, segments = metadataKey :: "indexes" :: s :: rest ∧
      storedIndexes (Record.unsetAlong segments r) =
        Record.unsetAlong (s :: rest) (storedIndexes r) := by
  cases segments with
  | nil => exact absurd rfl hne
  | cons s rest =>
    unfold storedIndexes
    rw [Record.nested_unsetAlong_cons]
    by_cases hs : metadataKey = s
    · subst hs
      rw [if_pos rfl]
      cases rest with
      | nil => exact .inr (.inl ⟨⟨["indexes"], rfl⟩, rfl⟩)
      | cons s rest =>
        rw [if_neg (by simp), Record.nested_unsetAlong_cons]
        by_cases hs : "indexes" = s
        · subst hs
          rw [if_pos rfl]
          cases rest with
          | nil => exact .inr (.inl ⟨⟨[], rfl⟩, rfl⟩)
          | cons s rest => exact .inr (.inr ⟨s, rest, rfl, if_neg (by simp)⟩)
        · rw [if_neg hs]
          exact .inl rfl
    · rw [if_neg hs]
      exact .inl rfl

theorem Shaped.unsetAlong (h : Shaped r) (segments : List String) :
    Shaped (Record.unsetAlong segments r) := by
  refine ⟨h.metadata.unsetAlong _, ?_⟩
  cases segments with
  | nil => exact h.indexes
  | cons s rest =>
    rw [Record.nested_unsetAlong_cons]
    split
    · split
      · exact fun d hd => absurd hd (by simp)
      · exact h.indexes.unsetAlong _
    · exact h.indexes

theorem sorted_storedIndexes_unsetAlong (h : (storedIndexes r).Sorted) (segments : List String) :
    (storedIndexes (Record.unsetAlong segments r)).Sorted := by
  by_cases hne : segments = []
  · exact hne ▸ h
  rcases storedIndexes_unsetAlong hne r with heq | ⟨-, heq⟩ | ⟨s, rest, -, heq⟩
  · exact heq ▸ h
  · exact heq ▸ List.Pairwise.nil
  · exact heq ▸ Record.sorted_unsetAlong h _

/-- **The indexes are read the same** after nothing has been removed that they need. -/
theorem Stores.index_unsetAlong (h : Stores r schema) {segments : List String}
    (hne : segments ≠ []) (hneeded : ∀ place, Needed schema place → ¬segments <+: place)
    (name : String) :
    ((storedIndexes (Record.unsetAlong segments r)).lookup name).map (indexOfDatum name) =
      (schema.indexes.lookup name).map .ok := by
  -- a path to an index or above it would remove its fields
  have hnone (hbelow : segments <+: [metadataKey, "indexes", name]) :
      schema.indexes.lookup name = none := by
    refine Option.eq_none_iff_forall_ne_some.2 fun index hindex => ?_
    exact hneeded _ (.index (Members.mem_of_lookup hindex) .keys)
      (hbelow.trans (List.prefix_append [metadataKey, "indexes", name] ["keys"]))
  rcases storedIndexes_unsetAlong hne r with heq | ⟨hbelow, heq⟩ | ⟨s, rest, rfl, heq⟩
  · rw [heq, h.index]
  · rw [heq, hnone (hbelow.trans (List.prefix_append [metadataKey, "indexes"] [name]))]
    rfl
  · rw [heq, Record.lookup_unsetAlong_cons]
    by_cases hs : name = s
    · subst hs
      rw [if_pos rfl]
      by_cases hrest : rest = []
      · rw [if_pos hrest, hnone (hrest ▸ List.prefix_refl _)]
        rfl
      · rw [if_neg hrest]
        have hindex := h.index name
        cases hd : (storedIndexes r).lookup name with
        | none =>
          rw [hd] at hindex
          exact hindex
        | some d =>
          rw [hd] at hindex
          obtain ⟨index, hlookup, hread⟩ := Option.map_eq_some_iff.1 hindex.symm
          rw [hlookup, Option.map_some, Option.map_some, Option.map_some,
            indexOfDatum_without hread.symm fun key hkey hrest => ?_]
          exact hneeded _ (.index (Members.mem_of_lookup hlookup) hkey)
            (hrest ▸ List.prefix_refl _)
    · rw [if_neg hs, h.index]

/-- **To remove what is not needed** removes a field. -/
theorem Stores.unsetPath (h : Stores r schema) (hschema : schema.Regular)
    (hpath : path ∉ defaultFields)
    (hneeded : ∀ place, Needed schema place → ¬Text.split '.' path <+: place) :
    Stores (r.unsetPath path) { schema with fields := Members.erase path schema.fields } := by
  unfold Record.unsetPath
  obtain ⟨s, rest, hsplit⟩ := List.exists_cons_of_ne_nil (Text.split_ne_nil path)
  have hwhole : rest = [] → path = s := fun hrest =>
    (Text.eq_of_split (hrest ▸ hsplit)).1
  refine ⟨Record.sorted_unsetAlong h.sorted _, sorted_storedIndexes_unsetAlong h.sorted_indexes _,
    h.shaped.unsetAlong _, ?_, fun key hid hmeta => ?_,
    h.index_unsetAlong (Text.split_ne_nil path) hneeded⟩
  · rw [hsplit, Record.lookup_unsetAlong_cons, h.id]
    split
    case isTrue hs =>
      subst hs
      have hrest : rest ≠ [] := fun hrest =>
        hneeded _ .id ((hsplit.trans (congrArg _ hrest)).symm ▸ List.prefix_refl _)
      rw [if_neg hrest]
      rfl
    case isFalse => rfl
  · rw [hsplit, Record.lookup_unsetAlong_cons, h.field key hid hmeta, Members.lookup_erase]
    by_cases hkey : key = path
    · subst hkey
      rw [if_neg hpath, if_pos rfl]
      by_cases hrest : rest = []
      · rw [if_pos (hwhole hrest), if_pos hrest, if_neg hpath]
        rfl
      · -- a path of several pieces is no name of a field
        have hdot : ¬isIdentifier key = true := fun hname => by
          have hone := Text.split_of_not_mem (not_mem_of_isIdentifier hname)
          exact hrest (List.cons_eq_cons.1 (hsplit.symm.trans hone)).2
        rw [hschema.storable.lookup_eq_none hdot]
        split <;> simp
    · rw [if_neg hkey]
      split
      case isTrue hs =>
        rw [if_neg fun hrest => hkey (hs.trans (hwhole hrest).symm)]
        split
        · rfl
        · cases schema.fields.lookup key <;> rfl
      case isFalse => rfl

/-- No field has a name with a full stop. -/
theorem Stores.unset_dotted (h : Stores r schema) (hschema : schema.Regular)
    (hdot : '.' ∈ path.toList)
    (hneeded : ∀ place, Needed schema place → ¬Text.split '.' path <+: place) :
    Stores (r.unsetPath path) schema := by
  have hdefault : ∀ name ∈ defaultFields, '.' ∉ name.toList := by decide
  have hfields : Members.erase path schema.fields = schema.fields :=
    Members.erase_eq_self fun f hf he =>
      not_mem_of_isIdentifier (hschema.identifier f hf) (he ▸ hdot)
  have hnext := h.unsetPath hschema (fun hmem => hdefault path hmem hdot) hneeded
  rwa [hfields] at hnext

end Catalog

namespace ClassSchema

variable {schema : ClassSchema}

/-- The schema without some fields. -/
def removeAll (schema : ClassSchema) (names : List String) : ClassSchema :=
  { schema with fields := schema.fields.filter fun f => f.1 ∉ names }

theorem removeAll_cons (schema : ClassSchema) (name : String) (names : List String) :
    schema.removeAll (name :: names) =
      removeAll { schema with fields := Members.erase name schema.fields } names := by
  unfold removeAll Members.erase
  rw [List.filter_filter]
  simp [Bool.and_comm]

/-- **Fields are removed one by one**, unless one of them is a default field. -/
theorem foldlM_removeField (schema : ClassSchema) (names : List String) :
    names.foldlM removeField schema =
      match names.find? (defaultFields.contains ·) with
      | some name => .error (.schemaViolation s!"cannot remove default field {name}")
      | none => .ok (schema.removeAll names) := by
  induction names generalizing schema with
  | nil => simp [removeAll, pure, Except.pure]
  | cons name names ih =>
    rw [List.foldlM_cons, List.find?_cons, removeField]
    cases hdefault : defaultFields.contains name with
    | true => rfl
    | false =>
      rw [if_neg (by simp), removeAll_cons]
      exact ih _

theorem Regular.removeAll (h : schema.Regular) {names : List String}
    (hnames : ∀ name ∈ names, ∀ f ∈ initialFields schema.className, f.1 ≠ name) :
    (schema.removeAll names).Regular where
  valid := h.valid
  sorted := List.Pairwise.filter _ h.sorted
  identifier f hf := h.identifier f (List.mem_filter.1 hf).1
  initial f hf := by
    have hsorted : Members.Sorted (schema.removeAll names).fields :=
      List.Pairwise.filter _ h.sorted
    refine hsorted.lookup_of_mem (List.mem_filter.2 ⟨Members.mem_of_lookup (h.initial f hf), ?_⟩)
    simpa using fun hmem => hnames _ hmem f hf rfl
  sorted_indexes := h.sorted_indexes
  name := h.name
  undotted := h.undotted

end ClassSchema

namespace Catalog

open Record (nested Missing)

variable {r : Record} {schema : ClassSchema} {path name : String}

/-- **To remove several paths that are not needed** removes fields. -/
theorem Stores.unsetAll {paths : List String} (h : Stores r schema) (hschema : schema.Regular)
    (hinitial : ∀ path ∈ paths, ∀ f ∈ ClassSchema.initialFields schema.className, f.1 ≠ path)
    (hneeded : ∀ path ∈ paths, ∀ place, Needed schema place →
      ¬Text.split '.' path <+: place) :
    Stores (paths.foldl (fun r p => r.unsetPath p) r) (schema.removeAll paths) := by
  induction paths generalizing r schema with
  | nil => simpa [ClassSchema.removeAll] using h
  | cons path rest ih =>
    have hpath : path ∉ defaultFields := fun hmem => by
      obtain ⟨ty, hty⟩ := Option.isSome_iff_exists.1
        (ClassSchema.isSome_lookup_initialFields schema.className hmem)
      exact hinitial path List.mem_cons_self _ (Members.mem_of_lookup hty) rfl
    have hnext : ClassSchema.Regular
        { schema with fields := Members.erase path schema.fields } := by
      have hone : (schema.removeAll [path]).Regular := hschema.removeAll fun name hname =>
        hinitial name (List.mem_singleton.1 hname ▸ List.mem_cons_self)
      rw [ClassSchema.removeAll_cons] at hone
      simpa [ClassSchema.removeAll] using hone
    rw [List.foldl_cons, ClassSchema.removeAll_cons]
    refine ih (h.unsetPath hschema hpath (hneeded path List.mem_cons_self)) hnext
      (fun p hp => hinitial p (List.mem_cons_of_mem _ hp)) fun p hp place hplace =>
        hneeded p (List.mem_cons_of_mem _ hp) place (hplace.congr rfl)

/-! ### Fields and indexes that are set -/

/-- **A declared field** is stored with its type. -/
theorem Stores.insert_field (h : Stores r schema) (hname : isIdentifier name = true)
    (hdefault : name ∉ defaultFields) (ty : FieldType) :
    Stores (Members.insert name (.string ty.storedText) r)
      { schema with fields := Members.insert name ty schema.fields } := by
  have hid : name ≠ Record.idKey := fun he => not_isIdentifier_idKey (he ▸ hname)
  have hmeta : name ≠ metadataKey := fun he => not_isIdentifier_metadataKey (he ▸ hname)
  have hsame {key : String} (hkey : key ≠ name) :
      (Members.insert name (.string ty.storedText) r).lookup key = r.lookup key :=
    (Members.lookup_insert ..).trans (if_neg hkey)
  have hnested := Record.nested_congr (hsame (Ne.symm hmeta))
  have hstored := storedIndexes_congr (hsame (Ne.symm hmeta))
  refine ⟨Members.sorted_insert h.sorted _ _, hstored ▸ h.sorted_indexes, ⟨?_, ?_⟩, ?_,
    fun key hkey hkey' => ?_, fun name => ?_⟩
  · exact fun d hd => h.shaped.metadata d (hsame (Ne.symm hmeta) ▸ hd)
  · exact hnested ▸ h.shaped.indexes
  · rw [hsame (Ne.symm hid), h.id]
  · rw [Members.lookup_insert, Members.lookup_insert, h.field key hkey hkey']
    by_cases hk : key = name
    · subst hk
      rw [if_pos rfl, if_neg hdefault, if_pos rfl]
      rfl
    · rw [if_neg hk, if_neg hk]
  · rw [hstored, h.index]

theorem split_indexPath (name : String) :
    Text.split '.' (indexPath name) = metadataKey :: "indexes" :: Text.split '.' name := by
  have hpath : indexPath name = metadataKey ++ "." ++ ("indexes" ++ "." ++ name) := by
    rw [← String.toList_inj]
    simp [indexPath]
    rfl
  rw [hpath, Text.split_append (by decide), Text.split_append (by decide)]

theorem dotted_indexPath (name : String) : '.' ∈ (indexPath name).toList := by
  by_contra hdot
  have hsplit := split_indexPath name
  rw [Text.split_of_not_mem hdot] at hsplit
  exact absurd (List.cons_eq_cons.1 hsplit).2 (by simp)

/-- **A value put at the path of an index** is put among the stored indexes. -/
theorem setPath_indexPath (h : Shaped r) (name : String) (d : Datum) :
    ∃ outcome indexes, Record.alterAlong (indexPath name) (fun _ => .ok d)
        (Text.split '.' name) (storedIndexes r) = (outcome, indexes) ∧
      r.setPath (indexPath name) d = (outcome, Members.insert metadataKey
        (.record (Members.insert "indexes" (.record indexes) (nested metadataKey r))) r) := by
  refine ⟨_, _, rfl, ?_⟩
  rw [Record.setPath, split_indexPath, Record.alterAlong_cons (by simp) h.metadata,
    Record.alterAlong_cons (Text.split_ne_nil name) h.indexes]
  rfl

theorem storedIndexes_insert (indexes : Record) (r : Record) :
    storedIndexes (Members.insert metadataKey
      (.record (Members.insert "indexes" (.record indexes) (nested metadataKey r))) r) =
      indexes := by
  rw [storedIndexes, Record.nested_insert, if_pos rfl, Record.nested_insert, if_pos rfl]

/-- **A recorded index** is stored under its name, if that has no full stop. -/
theorem Stores.insert_index (h : Stores r schema) {index : IndexDescriptor}
    (hname : '.' ∉ index.name.toList) :
    ∃ r', r.setPath (indexPath index.name) (indexToDatum index) = (.ok (), r') ∧
      Stores r'
        { schema with indexes := Members.insert index.name index schema.indexes } := by
  obtain ⟨outcome, indexes, halter, hset⟩ :=
    setPath_indexPath h.shaped index.name (indexToDatum index)
  rw [Text.split_of_not_mem hname] at halter
  obtain ⟨rfl, rfl⟩ := Prod.mk.inj halter
  refine ⟨_, hset, Members.sorted_insert h.sorted _ _, ?_, ⟨fun d hd => ?_, fun d hd => ?_⟩, ?_,
    fun key hid hmeta => ?_, fun name => ?_⟩
  · rw [storedIndexes_insert]
    exact Members.sorted_insert h.sorted_indexes _ _
  · rw [Members.lookup_insert, if_pos rfl] at hd
    exact ⟨_, (Option.some.inj hd).symm⟩
  · rw [Record.nested_insert, if_pos rfl, Members.lookup_insert, if_pos rfl] at hd
    exact ⟨_, (Option.some.inj hd).symm⟩
  · rw [Members.lookup_insert, if_neg (by decide), h.id]
  · rw [Members.lookup_insert, if_neg hmeta, h.field key hid hmeta]
  · rw [storedIndexes_insert, Members.lookup_insert, Members.lookup_insert]
    by_cases hk : name = index.name
    · subst hk
      rw [if_pos rfl, if_pos rfl, Option.map_some, Option.map_some, indexOfDatum_indexToDatum]
    · rw [if_neg hk, if_neg hk, h.index]

/-- **What is removed at the path of an index** is removed among the stored indexes. -/
theorem storedIndexes_unset_indexPath (name : String) (r : Record) :
    storedIndexes (r.unsetPath (indexPath name)) =
      Record.unsetAlong (Text.split '.' name) (storedIndexes r) := by
  rw [Record.unsetPath, split_indexPath, storedIndexes, Record.nested_unsetAlong_cons,
    if_pos rfl, if_neg (by simp), Record.nested_unsetAlong_cons, if_pos rfl,
    if_neg (Text.split_ne_nil name)]
  rfl

/-- **An index that is forgotten** is stored no more, if its name has no full stop. -/
theorem Stores.erase_index (h : Stores r schema) (hname : '.' ∉ name.toList) :
    Stores (r.unsetPath (indexPath name))
      { schema with indexes := Members.erase name schema.indexes } := by
  have hstored : storedIndexes (r.unsetPath (indexPath name)) =
      Members.erase name (storedIndexes r) := by
    rw [storedIndexes_unset_indexPath, Text.split_of_not_mem hname]
    rfl
  have hsame {key : String} (hkey : key ≠ metadataKey) :
      (r.unsetPath (indexPath name)).lookup key = r.lookup key := by
    rw [Record.unsetPath, split_indexPath, Record.lookup_unsetAlong_cons, if_neg hkey]
  refine ⟨Record.sorted_unsetAlong h.sorted _, ?_, h.shaped.unsetAlong _, ?_,
    fun key hid hmeta => ?_, fun other => ?_⟩
  · exact hstored ▸ Members.sorted_erase h.sorted_indexes _
  · rw [hsame (by decide), h.id]
  · rw [hsame hmeta, h.field key hid hmeta]
  · rw [hstored, Members.lookup_erase, Members.lookup_erase]
    by_cases ho : other = name
    · rw [if_pos ho, if_pos ho]
      rfl
    · rw [if_neg ho, if_neg ho, h.index]

/-! ### Records that are read as something else -/

/-- **What is needed is missed**: without it, the record is not read as the schema. -/
theorem ofRecord_ne_of_missing (hsorted : Members.Sorted r) (hindexes : (storedIndexes r).Sorted)
    (hid : r.lookup Record.idKey ≠ none) (hs : schema.indexes.Sorted) {place : List String}
    (hneeded : Needed schema place) (hmissing : Missing place r) : ofRecord r ≠ .ok schema := by
  intro hread
  cases hneeded with
  | id => exact hid hmissing
  | @index m key hm hkey =>
    have hon : schema.indexes.lookup m.1 = (storedIndex? (storedIndexes r) m.1).or none :=
      (readOn_of_ofRecord hsorted hindexes hread).index m.1
    rw [hs.lookup_of_mem hm, Option.or_none] at hon
    obtain ⟨d, hd, hindex⟩ := Option.bind_eq_some_iff.1 hon.symm
    have hnested : nested m.1 (storedIndexes r) = d.members := by rw [nested, hd]; rfl
    have hnone : (nested m.1 (storedIndexes r)).lookup key = none := hmissing
    exact lookup_of_needs (Outcome.toOption_eq_some.1 hindex) hkey (hnested ▸ hnone)

/-- **The initial fields of a class** are always read. -/
theorem ofRecord_ne_of_initial (hsorted : Members.Sorted r) (hindexes : (storedIndexes r).Sorted)
    {f : String × FieldType} (hf : f ∈ ClassSchema.initialFields schema.className)
    (hnone : schema.fields.lookup f.1 = none) : ofRecord r ≠ .ok schema := by
  intro hread
  have hon := (readOn_of_ofRecord hsorted hindexes hread).field f.1
  have hinitial : (ClassSchema.initialFields schema.className).lookup f.1 = some f.2 :=
    (Members.sorted_ofList _).lookup_of_mem hf
  rw [hnone, hinitial] at hon
  exact absurd (Option.or_eq_none_iff.1 hon.symm).2 (by simp)

/-- **An index recorded under a name with a full stop** is not read. -/
theorem lookup_eq_none_of_dotted (h : Stores r schema) (hschema : schema.Regular)
    (hname : '.' ∈ name.toList) {d : Datum} {r' : Record}
    (hset : r.setPath (indexPath name) d = (.ok (), r')) {read : ClassSchema}
    (hread : ofRecord r' = .ok read) : read.indexes.lookup name = none := by
  obtain ⟨outcome, indexes, halter, hset'⟩ := setPath_indexPath h.shaped name d
  obtain ⟨-, rfl⟩ := Prod.mk.inj (hset.symm.trans hset')
  have hindexes : indexes = (Record.alterAlong (indexPath name) (fun _ => .ok d)
      (Text.split '.' name) (storedIndexes r)).2 := by rw [halter]
  -- the first piece of the name is another index
  have hhead : (Text.split '.' name).head? ≠ some name := fun hhead =>
    Text.not_mem_of_mem_split (List.mem_of_mem_head? hhead) hname
  have hnone : indexes.lookup name = none := by
    have hindex := h.index name
    rw [Members.lookup_eq_none fun m hm he => hschema.undotted m hm (he ▸ hname)] at hindex
    rw [hindexes, Record.lookup_alterAlong hhead]
    exact Option.map_eq_none_iff.1 hindex
  have hsorted : indexes.Sorted := hindexes ▸ Record.sorted_alterAlong h.sorted_indexes _
  rw [(readOn_of_ofRecord (Members.sorted_insert h.sorted _ _)
    (by rw [storedIndexes_insert]; exact hsorted) hread).index, storedIndexes_insert, storedIndex?,
    hnone]
  rfl

end Catalog

end ObjectEngine
