import Mathlib.Logic.Function.Basic
import ObjectEngine.Proofs.Engine.Catalog

/-!
# The catalog refines plain schemas

A plain model of the catalog is a schema for each class that exists (`Catalog.Schemas`), and each
operation changes the schema of its class (`Catalog.Operation.apply`). The store follows the model
(`Catalog.Follows`) if the calls that succeed are those of the model, with the same answers, and
every class is loaded as the schema that the model has for it, at the start and after each call.

Some calls spoil the class that they succeed on (`Catalog.Operation.Spoils`): the names of fields
and indexes are taken for paths, so that an index is not recorded under a name with a full stop, and
to forget one, or to remove fields, can remove the id of the class or the fields of another index;
and a field that the class has from the start is back when the class is loaded. These are the only
ones: the store follows the model along just those calls that spoil nothing
(`Catalog.follows_iff_harmless`). One call is a step between records that store their schemas
(`Catalog.Fits`, `Catalog.Operation.does_work`).
-/

namespace ObjectEngine

/-! ### Single updates -/

namespace Edit

variable {r r' : Record} {path : String} {d : Datum}

theorem apply_set_ok (h : r.setPath path d = (.ok (), r')) :
    apply { set := [(path, d)] } false r = .ok r' := by
  simp [apply, applyFrom, andThen, setAll, applySteps, h]

theorem apply_set_error {e : EngineError} (h : r.setPath path d = (.error e, r')) :
    apply { set := [(path, d)] } false r = .error e := by
  simp [apply, applyFrom, andThen, setAll, applySteps, h]

theorem apply_unset (paths : NameSet) (r : Record) :
    apply { unset := paths } false r = .ok (paths.foldl (fun r p => r.unsetPath p) r) := by
  simp [apply, applyFrom, andThen, setAll, applySteps]

end Edit

/-! ### Plain schemas -/

namespace ClassSchema

variable {schema next : ClassSchema} {className name : String}

/-- The schema with an index under its name. -/
def record (schema : ClassSchema) (index : IndexDescriptor) : ClassSchema :=
  { schema with indexes := Members.insert index.name index schema.indexes }

/-- The schema without the index of a name. -/
def forget (schema : ClassSchema) (name : String) : ClassSchema :=
  { schema with indexes := Members.erase name schema.indexes }

namespace Regular

/-- A class that has a field of the name with the type is not changed. -/
theorem addField_of_some (h : schema.Regular) {ty : FieldType}
    (hname : schema.fieldType? name = some ty) : schema.addField name ty = .ok schema := by
  have hidentifier : isFieldName name = true :=
    h.identifier _ (Members.mem_of_lookup (v := ty) hname)
  simp [addField, hidentifier, hname]

theorem not_mem_defaultFields (h : schema.Regular) (hname : schema.fieldType? name = none) :
    name ∉ defaultFields := fun hmem => by
  obtain ⟨ty, hty⟩ := Option.isSome_iff_exists.1
    (isSome_lookup_initialFields schema.className hmem)
  have hsome : schema.fieldType? name = some ty := h.storable.lookup_of_initial hty
  rw [hname] at hsome
  exact absurd hsome (by simp)

theorem record (h : schema.Regular) {index : IndexDescriptor}
    (hname : '.' ∉ index.name.toList) : (schema.record index).Regular where
  valid := h.valid
  sorted := h.sorted
  identifier := h.identifier
  initial := h.initial
  sorted_indexes := Members.sorted_insert h.sorted_indexes _ _
  name m hm := by
    rcases Members.mem_insert hm with rfl | hm
    · rfl
    · exact h.name m hm
  undotted m hm := by
    rcases Members.mem_insert hm with rfl | hm
    · exact hname
    · exact h.undotted m hm

theorem forget (h : schema.Regular) (name : String) : (schema.forget name).Regular where
  valid := h.valid
  sorted := h.sorted
  identifier := h.identifier
  initial := h.initial
  sorted_indexes := Members.sorted_erase h.sorted_indexes _
  name m hm := h.name m (List.mem_filter.1 hm).1
  undotted m hm := h.undotted m (List.mem_filter.1 hm).1

/-- The names of indexes have no full stop. -/
theorem forget_of_dotted (h : schema.Regular) (hname : '.' ∈ name.toList) :
    schema.forget name = schema := by
  have hsame : Members.erase name schema.indexes = schema.indexes :=
    Members.erase_eq_self fun m hm he => h.undotted m hm (he ▸ hname)
  rw [ClassSchema.forget, hsame]

end Regular

end ClassSchema

namespace Catalog

open Store (Touches)

/-! ### Operations on the model -/

/-- A call on a class of the catalog. -/
inductive Operation where
  | create (schema : ClassSchema)
  | addField (className name : String) (ty : FieldType)
  | removeFields (className : String) (names : List String)
  | recordIndex (className : String) (index : IndexDescriptor)
  | forgetIndex (className name : String)
  | delete (className : String)

/-- What a call answers if it succeeds. -/
inductive Answer where
  | done
  | schema (schema : ClassSchema)
  | existed (b : Bool)

namespace Operation

/-- The class that a call is on. -/
def className : Operation → String
  | create schema => schema.className
  | addField className _ _ | removeFields className _ | recordIndex className _
  | forgetIndex className _ | delete className => className

/-- The call on a store. -/
def work : Operation → StoreAction Answer
  | create schema => do createClass schema; return .done
  | addField className name ty => return .schema (← Catalog.addField className name ty)
  | removeFields className names => return .schema (← Catalog.removeFields className names)
  | recordIndex className index => do Catalog.recordIndex className index; return .done
  | forgetIndex className name => do Catalog.forgetIndex className name; return .done
  | delete className => return .existed (← deleteClass className)

/-- **The call on the plain model**: what it answers, and the schema that the class has after it. -/
def apply : Operation → Option ClassSchema → Outcome (Answer × Option ClassSchema)
  | create schema, none => .ok (.done, some schema)
  | create schema, some _ => .error (.duplicate s!"Class {schema.className} already exists.")
  | addField className _ _, none | removeFields className _, none =>
    .error (.classNotFound className)
  | addField _ name ty, some schema =>
    (schema.addField name ty).map fun next => (.schema next, some next)
  | removeFields _ names, some schema =>
    (names.foldlM ClassSchema.removeField schema).map fun next => (.schema next, some next)
  | recordIndex _ index, schema? => .ok (.done, schema?.map (·.record index))
  | forgetIndex _ name, schema? => .ok (.done, schema?.map (·.forget name))
  | delete _, schema? => .ok (.existed schema?.isSome, none)

/-- The classes that are created have schemas that a store can keep. -/
def Regular : Operation → Prop
  | create schema => schema.Regular
  | _ => True

/-- **A call that spoils** a class when it succeeds on it: one that records an index under a name
with a full stop, forgets one and takes away what another index needs, or removes fields and takes
away what the class or an index needs, or a field that the class has from the start. -/
def Spoils : Operation → Option ClassSchema → Prop
  | recordIndex _ index, some _ => '.' ∈ index.name.toList
  | forgetIndex _ name, some schema => '.' ∈ name.toList ∧
    ∃ place, Needed schema place ∧ Text.split '.' (indexPath name) <+: place
  | removeFields _ names, some schema => ∃ name ∈ names,
    (∃ f ∈ ClassSchema.initialFields schema.className, f.1 = name) ∨
      ∃ place, Needed schema place ∧ Text.split '.' name <+: place
  | _, _ => False

end Operation

/-! ### One call on a record -/

/-- **The record of a class** stores the schema that the class has. -/
inductive Fits (className : String) : Option Record → Option ClassSchema → Prop
  | absent : Fits className none none
  | present {r : Record} {schema : ClassSchema} : schema.className = className →
    schema.Regular → Stores r schema → Fits className (some r) (some schema)

/-- The record of a class, if it is read at all, is not read as the schema that the class has. -/
def Misread (r? : Option Record) (schema? : Option ClassSchema) : Prop :=
  ∃ r schema, r? = some r ∧ schema? = some schema ∧
    (r.lookup Record.idKey ≠ none → ofRecord r ≠ .ok schema)

/-- **What a call makes of a class**: one that fails leaves the record, and one that succeeds is a
call on the model, and leaves a record that stores the schema of the model unless it spoils it. -/
inductive Operation.Makes (op : Operation) (r? : Option Record) (schema? : Option ClassSchema) :
    Outcome Answer → Option Record → Prop
  | fails (e : EngineError) : Makes op r? schema? (.error e) r?
  | follows {answer : Answer} {next : Option ClassSchema} {r'? : Option Record} :
    op.apply schema? = .ok (answer, next) → ¬op.Spoils schema? → Fits op.className r'? next →
    Makes op r? schema? (.ok answer) r'?
  | spoils {answer : Answer} {next : Option ClassSchema} {r'? : Option Record} :
    op.apply schema? = .ok (answer, next) → op.Spoils schema? →
    (∀ r, r'? = some r → BelongsTo op.className r) → Misread r'? next →
    Makes op r? schema? (.ok answer) r'?

variable {r : Record} {w : World} {className name : String} {schema next : ClassSchema}
  {r? r'? : Option Record} {schema? : Option ClassSchema}

theorem Stores.belongsTo (h : Stores r schema) : BelongsTo schema.className r := fun _ hd =>
  Option.some.inj (hd.symm.trans h.id)

theorem Fits.belongsTo (h : Fits className r? schema?) :
    ∀ r, r? = some r → BelongsTo className r := by
  rintro r rfl
  cases h with
  | present hclass _ hstores => exact hclass ▸ hstores.belongsTo

theorem Fits.loaded_eq {s : Store} (h : Fits className (record? s className) schema?) :
    loaded s className = .ok schema? := by
  generalize hr : record? s className = r? at h
  cases h with
  | absent => exact loaded_of_none hr
  | present _ hschema hstores => exact loaded_of_stores hr hstores hschema

theorem Misread.loaded_ne {s : Store} (h : Misread (record? s className) schema?) :
    loaded s className ≠ .ok schema? := by
  obtain ⟨r, schema, hr, rfl, hread⟩ := h
  intro hloaded
  obtain ⟨r', hr', hid, hread'⟩ := ofRecord_of_loaded hloaded
  obtain rfl := Option.some.inj (hr.symm.trans hr')
  exact hread hid hread'

/-- What is removed from a record gives it no other id. -/
theorem BelongsTo.unsetPath {r : Record} (h : BelongsTo className r) (path : String) :
    BelongsTo className (r.unsetPath path) := by
  intro d hd
  obtain ⟨s, rest, hsplit⟩ := List.exists_cons_of_ne_nil (Text.split_ne_nil path)
  rw [Record.unsetPath, hsplit, Record.lookup_unsetAlong_cons] at hd
  split at hd
  · split at hd
    · exact absurd hd (by simp)
    · obtain ⟨d', hd', rfl⟩ := Option.map_eq_some_iff.1 hd
      obtain rfl := h d' hd'
      rfl
  · exact h d hd

/-- What is left of the record of a class when paths have been removed. -/
structure Remains (className : String) (r : Record) : Prop where
  sorted : Members.Sorted r
  sorted_indexes : (storedIndexes r).Sorted
  belongsTo : BelongsTo className r

theorem Stores.remains (h : Stores r schema) : Remains schema.className r :=
  ⟨h.sorted, h.sorted_indexes, h.belongsTo⟩

theorem Remains.unsetPath (h : Remains className r) (path : String) :
    Remains className (r.unsetPath path) where
  sorted := Record.sorted_unsetAlong h.sorted _
  sorted_indexes := sorted_storedIndexes_unsetAlong h.sorted_indexes _
  belongsTo := h.belongsTo.unsetPath path

theorem Remains.unsetAll (h : Remains className r) (paths : List String) :
    Remains className (paths.foldl (fun r p => r.unsetPath p) r) :=
  List.foldlRecOn paths _ h fun _ hr p _ => hr.unsetPath p

/-- **A record that misses what is needed** is misread. -/
theorem Remains.misread (h : Remains className r) {place : List String}
    (hs : schema.indexes.Sorted) (hneeded : Needed schema place)
    (hmissing : Record.Missing place r) : Misread (some r) (some schema) :=
  ⟨r, schema, rfl, rfl, fun hid =>
    ofRecord_ne_of_missing h.sorted h.sorted_indexes hid hs hneeded hmissing⟩

namespace Operation

/-- A call whose answer is made of what some work answers. -/
theorem does_map {α : Type} {work : StoreAction α} {x : Outcome α} (f : α → Answer)
    (h : Does work w className x r?) :
    Does (do return f (← work)) w className (x.map f) r? := by
  cases x with
  | error e => exact h.bind_error
  | ok a =>
    refine h.bind fun v ht => ?_
    have hpure := Does.pure (f a) v className
    rwa [record?, ht.record?] at hpure

/-- **To create a class** that is there fails, and otherwise adds its record. -/
theorem does_create (h : Orderly w.store) (hschema : schema.Regular)
    (hfits : Fits schema.className (record? w.store schema.className) schema?) :
    ∃ x r'?, Does (create schema).work w schema.className x r'? ∧
      (create schema).Makes (record? w.store schema.className) schema? x r'? := by
  generalize hr : record? w.store schema.className = r? at hfits
  cases hfits with
  | absent =>
    exact ⟨_, _, does_map (fun _ => .done) (does_createClass_none h hschema hr),
      .follows rfl id (.present rfl hschema (stores_toRecord hschema.storable))⟩
  | present =>
    exact ⟨_, _, does_map (fun _ => .done) (does_createClass_some h hschema hr), .fails _⟩

/-- Work that leaves the record of a class, and what follows it. -/
theorem does_bind_same {α β : Type} {work : StoreAction α} {f : α → StoreAction β} {a : α}
    {x : Outcome β} (h : Orderly w.store) (hr : BelongsTo className r)
    (hwork : Does work w className (.ok a) (some r))
    (hf : ∀ v, Orderly v.store → record? v.store className = some r →
      Does (f a) v className x r'?) : Does (work >>= f) w className x r'? :=
  hwork.bind fun v ht =>
    hf v (h.touches ht fun _ hsome => Option.some.inj hsome ▸ hr) ht.record?

/-- Work that must come to something without a call. -/
theorem does_liftM {α : Type} (hr : record? w.store className = r?) {x y : Outcome α} (hx : x = y) :
    Does (liftM x : StoreAction α) w className y r? :=
  hr ▸ hx ▸ Does.of_outcome x w className

/-- An update of the record of a class, and an answer after it. -/
theorem does_edit_return {α : Type} (h : Orderly w.store)
    (hr : record? w.store className = some r) (hid : r.lookup Record.idKey ≠ none) {e : Edit}
    {r' : Record} (hedit : e.apply false r = .ok r') (a : α) :
    Does (do edit className e; return a) w className (.ok a) (some r') :=
  (does_edit_ok h hr hid hedit).bind fun _ ht => does_liftM ht.record? (x := .ok a) rfl

/-- **To declare a field** adds it to the record, unless it is there. -/
theorem does_addField (h : Orderly w.store) (name : String) (ty : FieldType)
    (hfits : Fits className (record? w.store className) schema?) :
    ∃ x r'?, Does (addField className name ty).work w className x r'? ∧
      (addField className name ty).Makes (record? w.store className) schema? x r'? := by
  generalize hr : record? w.store className = r? at hfits
  cases hfits with
  | absent => exact ⟨_, _, does_map .schema (does_require_none h hr).bind_error, .fails _⟩
  | @present r schema hclass hschema hstores =>
    subst hclass
    have hrequire := does_require_some h hr hstores hschema
    by_cases hname : schema.fieldType? name = some ty
    · have happly : (addField schema.className name ty).apply (some schema) =
          .ok (.schema schema, some schema) :=
        congrArg (Except.map _) (hschema.addField_of_some hname)
      refine ⟨.ok (.schema schema), _, does_map .schema (x := .ok schema)
        (does_bind_same h hstores.belongsTo hrequire fun v _ hv => ?_),
        .follows happly id (.present rfl hschema hstores)⟩
      rw [if_pos hname]
      exact does_liftM hv (x := .ok schema) rfl
    cases hadd : schema.addField name ty with
    | error e =>
      refine ⟨.error e, _, does_map .schema (x := .error e)
        (does_bind_same h hstores.belongsTo hrequire fun v _ hv => ?_), .fails _⟩
      rw [if_neg hname]
      exact (does_liftM hv hadd).bind_error
    | ok next =>
      obtain ⟨hidentifier, ⟨hsome, -⟩ | ⟨hnone, rfl⟩⟩ := ClassSchema.addField_eq_ok hadd
      · exact absurd hsome hname
      have hnext := hstores.insert_field hidentifier (hschema.not_mem_defaultFields hnone) ty
      have hset : r.setPath name (.string ty.storedText) =
          (.ok (), Members.insert name (.string ty.storedText) r) :=
        Record.setPath_key (Text.split_of_not_mem (not_mem_of_isIdentifier hidentifier)) _ _
      have happly : (addField schema.className name ty).apply (some schema) = _ :=
        congrArg (Except.map fun next => (Answer.schema next, some next)) hadd
      refine ⟨.ok (.schema _), _, does_map .schema (x := .ok _)
        (does_bind_same h hstores.belongsTo hrequire fun _ hv hrv => ?_),
        .follows happly id (.present rfl (hschema.insert_field hidentifier hnone ty) hnext)⟩
      rw [if_neg hname]
      exact does_bind_same hv hstores.belongsTo (does_liftM hrv hadd) fun _ hu hru =>
        does_edit_return hu hru hstores.id_ne_none (Edit.apply_set_ok hset) _

/-- **To remove fields** takes away all that stands at their names and below. -/
theorem does_removeFields (h : Orderly w.store) (names : List String)
    (hfits : Fits className (record? w.store className) schema?) :
    ∃ x r'?, Does (removeFields className names).work w className x r'? ∧
      (removeFields className names).Makes (record? w.store className) schema? x r'? := by
  generalize hr : record? w.store className = r? at hfits
  cases hfits with
  | absent => exact ⟨_, _, does_map .schema (does_require_none h hr).bind_error, .fails _⟩
  | @present r schema hclass hschema hstores =>
    subst hclass
    have hrequire := does_require_some h hr hstores hschema
    cases hremove : names.foldlM ClassSchema.removeField schema with
    | error e =>
      refine ⟨.error e, _, does_map .schema (x := .error e)
        (does_bind_same h hstores.belongsTo hrequire fun _ _ hv => ?_), .fails _⟩
      exact (does_liftM hv hremove).bind_error
    | ok next =>
      have hnext : next = schema.removeAll names := by
        rw [ClassSchema.foldlM_removeField] at hremove
        split at hremove
        · exact absurd hremove (by simp)
        · exact (Except.ok.inj hremove).symm
      subst hnext
      have hdoes : Does (removeFields schema.className names).work w schema.className
          (.ok (.schema (schema.removeAll names)))
          (some ((NameSet.ofList names).foldl (fun r p => r.unsetPath p) r)) :=
        does_map .schema (x := .ok _)
          (does_bind_same h hstores.belongsTo hrequire fun _ hv hrv =>
            does_bind_same hv hstores.belongsTo (does_liftM hrv hremove) fun _ hu hru =>
              does_edit_return hu hru hstores.id_ne_none (Edit.apply_unset _ _) _)
      have happly : (removeFields schema.className names).apply (some schema) =
          .ok (.schema (schema.removeAll names), some (schema.removeAll names)) :=
        congrArg (Except.map _) hremove
      by_cases hspoils : (removeFields schema.className names).Spoils (some schema)
      · have hremains := hstores.remains.unsetAll (NameSet.ofList names)
        refine ⟨_, _, hdoes, .spoils happly hspoils (fun _ hr => ?_) ?_⟩
        · exact Option.some.inj hr ▸ hremains.belongsTo
        obtain ⟨name, hname, ⟨f, hf, rfl⟩ | ⟨place, hplace, hbelow⟩⟩ := hspoils
        · refine ⟨_, _, rfl, rfl, fun _ => ?_⟩
          refine ofRecord_ne_of_initial hremains.sorted hremains.sorted_indexes hf ?_
          exact Members.lookup_eq_none fun m hm he =>
            absurd (List.mem_filter.1 hm).2 (by simpa [he] using hname)
        · exact hremains.misread hschema.sorted_indexes (hplace.congr rfl)
            (Record.missing_foldl_unsetPath (NameSet.mem_ofList.2 hname) hbelow r)
      · refine ⟨_, _, hdoes, .follows happly hspoils (.present rfl ?_ ?_)⟩
        · exact hschema.removeAll fun name hname f hf he =>
            hspoils ⟨name, hname, .inl ⟨f, hf, he⟩⟩
        · have hsame : schema.removeAll names = schema.removeAll (NameSet.ofList names) := by
            simp [ClassSchema.removeAll, NameSet.mem_ofList]
          rw [hsame]
          refine hstores.unsetAll hschema (fun name hname f hf he => ?_)
            fun name hname place hplace hbelow => ?_
          · exact hspoils ⟨name, NameSet.mem_ofList.1 hname, .inl ⟨f, hf, he⟩⟩
          · exact hspoils ⟨name, NameSet.mem_ofList.1 hname, .inr ⟨place, hplace, hbelow⟩⟩

/-- **To record an index** puts it at its path. -/
theorem does_recordIndex (h : Orderly w.store) (index : IndexDescriptor)
    (hfits : Fits className (record? w.store className) schema?) :
    ∃ x r'?, Does (recordIndex className index).work w className x r'? ∧
      (recordIndex className index).Makes (record? w.store className) schema? x r'? := by
  generalize hr : record? w.store className = r? at hfits
  cases hfits with
  | absent =>
    exact ⟨_, _, does_map (fun _ => .done) (does_edit_none h hr _), .follows rfl id .absent⟩
  | @present r schema hclass hschema hstores =>
    subst hclass
    cases hset : r.setPath (indexPath index.name) (indexToDatum index) with
    | mk outcome r' =>
    cases outcome with
    | error e =>
      exact ⟨_, _, does_map (fun _ => .done)
        (does_edit_error h hr hstores.id_ne_none (Edit.apply_set_error hset)), .fails _⟩
    | ok _ =>
      have hdoes := does_map (fun _ => .done)
        (does_edit_ok h hr hstores.id_ne_none (Edit.apply_set_ok hset))
      have happly : (recordIndex schema.className index).apply (some schema) =
          .ok (.done, some (schema.record index)) := rfl
      by_cases hname : '.' ∈ index.name.toList
      · refine ⟨_, _, hdoes, .spoils happly hname (fun _ hr d hd => ?_)
          ⟨_, _, rfl, rfl, fun _ hread => ?_⟩⟩
        · obtain rfl := Option.some.inj hr
          obtain ⟨_, _, -, hset'⟩ := setPath_indexPath hstores.shaped index.name
            (indexToDatum index)
          obtain ⟨-, rfl⟩ := Prod.mk.inj (hset.symm.trans hset')
          rw [Members.lookup_insert, if_neg (by decide)] at hd
          exact hstores.belongsTo d hd
        · have hnone := lookup_eq_none_of_dotted hstores hschema hname hset hread
          rw [ClassSchema.record, Members.lookup_insert, if_pos rfl] at hnone
          exact absurd hnone (by simp)
      · obtain ⟨r'', hset', hnext⟩ := hstores.insert_index hname
        obtain ⟨-, rfl⟩ := Prod.mk.inj (hset.symm.trans hset')
        exact ⟨_, _, hdoes, .follows happly hname (.present rfl (hschema.record hname) hnext)⟩

/-- **To forget an index** removes what stands at its path. -/
theorem does_forgetIndex (h : Orderly w.store) (name : String)
    (hfits : Fits className (record? w.store className) schema?) :
    ∃ x r'?, Does (forgetIndex className name).work w className x r'? ∧
      (forgetIndex className name).Makes (record? w.store className) schema? x r'? := by
  generalize hr : record? w.store className = r? at hfits
  cases hfits with
  | absent =>
    exact ⟨_, _, does_map (fun _ => .done) (does_edit_none h hr _), .follows rfl id .absent⟩
  | @present r schema hclass hschema hstores =>
    subst hclass
    have hdoes := does_map (fun _ => .done)
      (does_edit_ok h hr hstores.id_ne_none (Edit.apply_unset [indexPath name] r))
    have happly : (forgetIndex schema.className name).apply (some schema) =
        .ok (.done, some (schema.forget name)) := rfl
    by_cases hname : '.' ∈ name.toList
    · -- the model has no index of such a name
      rw [hschema.forget_of_dotted hname] at happly
      by_cases hspoils : (forgetIndex schema.className name).Spoils (some schema)
      · have hremains := hstores.remains.unsetPath (indexPath name)
        refine ⟨_, _, hdoes, .spoils happly hspoils (fun _ hr => ?_) ?_⟩
        · exact Option.some.inj hr ▸ hremains.belongsTo
        obtain ⟨-, place, hplace, hbelow⟩ := hspoils
        exact hremains.misread hschema.sorted_indexes hplace
          (Record.missing_unsetPath hbelow r)
      · refine ⟨_, _, hdoes, .follows happly hspoils (.present rfl hschema ?_)⟩
        exact hstores.unset_dotted hschema (dotted_indexPath name)
          fun place hplace hbelow => hspoils ⟨hname, place, hplace, hbelow⟩
    · exact ⟨_, _, hdoes, .follows happly (fun hspoils => hname hspoils.1)
        (.present rfl (hschema.forget name) (hstores.erase_index hname))⟩

/-- **To delete a class** removes its record, if it is there. -/
theorem does_delete (h : Orderly w.store)
    (hfits : Fits className (record? w.store className) schema?) :
    ∃ x r'?, Does (delete className).work w className x r'? ∧
      (delete className).Makes (record? w.store className) schema? x r'? := by
  have hid : ∀ r, record? w.store className = some r → r.lookup Record.idKey ≠ none := by
    intro r hr
    rw [hr] at hfits
    cases hfits with
    | present _ _ hstores => exact hstores.id_ne_none
  have hdoes := does_map .existed (does_deleteClass h hid)
  generalize record? w.store className = r? at hfits hdoes ⊢
  cases hfits with
  | absent => exact ⟨_, _, hdoes, .follows rfl id .absent⟩
  | present => exact ⟨_, _, hdoes, .follows rfl id .absent⟩

/-- **A call on a class** whose record stores the schema of the model. -/
theorem does_work {op : Operation} (h : Orderly w.store) (hop : op.Regular)
    (hfits : Fits op.className (record? w.store op.className) schema?) :
    ∃ x r'?, Does op.work w op.className x r'? ∧
      op.Makes (record? w.store op.className) schema? x r'? := by
  cases op with
  | create schema => exact does_create h hop hfits
  | addField className name ty => exact does_addField h name ty hfits
  | removeFields className names => exact does_removeFields h names hfits
  | recordIndex className index => exact does_recordIndex h index hfits
  | forgetIndex className name => exact does_forgetIndex h name hfits
  | delete className => exact does_delete h hfits

end Operation

/-! ### Calls one after another -/

/-- **The plain model** of the catalog: the schemas of the classes that exist. -/
abbrev Schemas : Type := String → Option ClassSchema

/-- The model after a call. -/
def Schemas.after (m : Schemas) (op : Operation) : Schemas :=
  match op.apply (m op.className) with
  | .ok (_, next) => Function.update m op.className next
  | .error _ => m

/-- **Every class is loaded** as the schema that the model has for it. -/
def Refines (w : World) (m : Schemas) : Prop :=
  ∀ className, (load className).outcomeIn w = .ok (m className)

/-- **The store follows the model** along calls: before and after each of them it refines the model,
on which just the calls that succeed are carried out, with the same answers. -/
def Follows : List Operation → World → Schemas → Prop
  | [], w, m => Refines w m
  | op :: ops, w, m => Refines w m ∧
    match op.work.run.run w with
    | (.ok answer, v) =>
      (op.apply (m op.className)).map Prod.fst = .ok answer ∧ Follows ops v (m.after op)
    | (.error _, v) => Follows ops v m

/-- No call that succeeds spoils its class. -/
def Harmless : List Operation → World → Schemas → Prop
  | [], _, _ => True
  | op :: ops, w, m =>
    match op.work.run.run w with
    | (.ok _, v) => ¬op.Spoils (m op.className) ∧ Harmless ops v (m.after op)
    | (.error _, v) => Harmless ops v m

/-- **The invariant of the calls**: the records of a store in order store the schemas of the
model. -/
structure Holds (s : Store) (m : Schemas) : Prop where
  orderly : Orderly s
  fits (className : String) : Fits className (record? s className) (m className)

variable {m : Schemas} {op : Operation} {v : World}

theorem outcomeIn_load (h : Orderly w.store) (className : String) :
    (load className).outcomeIn w = loaded w.store className :=
  (does_load h.quiet h.keyed className).outcomeIn.1

theorem Holds.refines (h : Holds w.store m) : Refines w m := fun className =>
  (outcomeIn_load h.orderly className).trans (h.fits className).loaded_eq

theorem Follows.refines {ops : List Operation} (h : Follows ops w m) : Refines w m := by
  cases ops with
  | nil => exact h
  | cons op ops => exact h.1

/-- A call that does not change the model for its class. -/
theorem Holds.unchanged (h : Holds w.store m)
    (ht : Touches collection className w.store (record? w.store className) v.store) :
    Holds v.store m where
  orderly := h.orderly.touches ht (h.fits className).belongsTo
  fits other := by
    by_cases hother : other = className
    · subst hother
      have hsame : record? v.store other = record? w.store other := ht.record?
      exact hsame ▸ h.fits other
    · have hsame : record? v.store other = record? w.store other := ht.others other hother
      exact hsame ▸ h.fits other

theorem Holds.updated (h : Holds w.store m) (hfits : Fits className r'? schema?)
    (ht : Touches collection className w.store r'? v.store) :
    Holds v.store (Function.update m className schema?) where
  orderly := h.orderly.touches ht hfits.belongsTo
  fits other := by
    by_cases hother : other = className
    · subst hother
      have hrecord : record? v.store other = r'? := ht.record?
      rw [hrecord, Function.update_self]
      exact hfits
    · have hsame : record? v.store other = record? w.store other := ht.others other hother
      rw [hsame, Function.update_of_ne hother]
      exact h.fits other

/-- **A run of calls** from a store that holds the model. -/
theorem Holds.follows_iff {ops : List Operation} (h : Holds w.store m)
    (hops : ∀ op ∈ ops, op.Regular) : Follows ops w m ↔ Harmless ops w m := by
  induction ops generalizing w m with
  | nil => exact iff_of_true h.refines trivial
  | cons op ops ih =>
    have hrest : ∀ op ∈ ops, op.Regular := fun op hop => hops op (List.mem_cons_of_mem _ hop)
    obtain ⟨x, r'?, ⟨v, hrun, ht⟩, hmakes⟩ :=
      Operation.does_work h.orderly (hops op List.mem_cons_self) (h.fits op.className)
    rw [Follows, Harmless, hrun]
    cases hmakes with
    | fails e => exact (and_iff_right h.refines).trans (ih (h.unchanged ht) hrest)
    | @follows answer next _ happly hspoils hfits =>
      have hafter : m.after op = Function.update m op.className next := by
        rw [Schemas.after, happly]
      have hiff := ih (h.updated hfits ht) hrest
      rw [← hafter] at hiff
      simp only [happly, Except.map, h.refines, hspoils, hiff, true_and, not_false_eq_true]
    | @spoils answer next _ happly hspoils hbelongs hmisread =>
      have hafter : m.after op op.className = next := by
        rw [Schemas.after, happly]
        exact Function.update_self ..
      refine iff_of_false (fun hfollows => ?_) fun hharmless => hharmless.1 hspoils
      have hloaded := hfollows.2.2.refines op.className
      rw [outcomeIn_load (h.orderly.touches ht hbelongs), hafter] at hloaded
      have hrecord : record? v.store op.className = r'? := ht.record?
      exact (hrecord ▸ hmisread).loaded_ne hloaded

/-- **The catalog refines plain schemas**: from a store without classes, in which no fault is due
and no index restricts the collection of the schemas, the store follows the model along calls if
and only if no call that succeeds spoils its class. -/
theorem follows_iff_harmless {w : World} (hquiet : w.store.Quiet)
    (hempty : (w.store.collection collection).records = [])
    (hindexes : Store.Unrestricted (w.store.collection collection)) {ops : List Operation}
    (hops : ∀ op ∈ ops, op.Regular) :
    Follows ops w (fun _ => none) ↔ Harmless ops w fun _ => none := by
  refine Holds.follows_iff ⟨⟨hquiet, hindexes, ?_, ?_⟩, fun className => ?_⟩ hops
  · rw [hempty]
    exact List.Pairwise.nil
  · rw [hempty]
    exact fun _ _ hmem => absurd hmem List.not_mem_nil
  · rw [record?, Store.record?, hempty]
    exact .absent

/-- Calls that cannot spoil a class are harmless. -/
theorem harmless_of_forall {ops : List Operation}
    (h : ∀ op ∈ ops, ∀ schema?, ¬op.Spoils schema?) (w : World) (m : Schemas) :
    Harmless ops w m := by
  induction ops generalizing w m with
  | nil => trivial
  | cons op ops ih =>
    obtain ⟨hop, hops⟩ := List.forall_mem_cons.1 h
    rw [Harmless]
    split
    · exact ⟨hop _, ih hops _ _⟩
    · exact ih hops _ _

/-- A new class without further fields. -/
def note : ClassSchema :=
  { className := "N", fields := ClassSchema.initialFields "N", indexes := [] }

theorem regular_note : note.Regular :=
  ClassSchema.regular_create (if_pos (by decide) : ClassSchema.create "N" = .ok note)

/-- A class is created and indexed, and its index is forgotten. -/
def indexing : List Operation :=
  [.create note, .create note, .addField "N" "name" .string,
    .recordIndex "N" (.single "name"), .addField "N" "name" .date, .forgetIndex "N" "name_1",
    .delete "N", .delete "N"]

theorem follows_indexing : Follows indexing {} fun _ => none := by
  have hregular : ∀ op ∈ indexing, op.Regular := by
    simp [indexing, Operation.Regular, regular_note]
  have hrecorded : '.' ∉ (IndexDescriptor.single "name").name.toList := by decide
  have hspoils : ∀ op ∈ indexing, ∀ schema?, ¬op.Spoils schema? := by
    rintro op hop (_ | schema)
    · cases op <;> exact id
    · revert op
      simp [indexing, Operation.Spoils, hrecorded]
  exact (follows_iff_harmless (Store.quiet_of_nil rfl) rfl
    (fun _ hi => absurd hi List.not_mem_nil) hregular).2 (harmless_of_forall hspoils _ _)

/-- An index is recorded under the path of the field it is on. -/
def dotted : List Operation :=
  [.create note, .recordIndex "N" { IndexDescriptor.single "name" with name := "by.name" }]

/-- The world after calls. -/
def ran (ops : List Operation) (w : World) : World :=
  ops.foldl (fun w op => (op.work.run.run w).2) w

/-- Where the store follows the model, every class is loaded at the end. -/
theorem Follows.refines_ran {ops : List Operation} (h : Follows ops w m) :
    ∃ m, Refines (ran ops w) m := by
  induction ops generalizing w m with
  | nil => exact ⟨m, h⟩
  | cons op ops ih =>
    obtain ⟨-, h⟩ := h
    rw [ran, List.foldl_cons]
    split at h
    · rename_i hrun
      rw [hrun]
      exact ih h.2
    · rename_i hrun
      rw [hrun]
      exact ih h

theorem not_follows_dotted :
    ¬∀ (ops : List Operation) (w : World), w.store.Quiet →
      (w.store.collection collection).records = [] →
      Store.Unrestricted (w.store.collection collection) → (∀ op ∈ ops, op.Regular) →
      Follows ops w fun _ => none := by
  intro h
  have hregular : ∀ op ∈ dotted, op.Regular := by
    simp [dotted, Operation.Regular, regular_note]
  obtain ⟨m, hrefines⟩ := (h dotted {} (Store.quiet_of_nil rfl) rfl
    (fun _ hi => absurd hi List.not_mem_nil) hregular).refines_ran
  have hload : ((load "N").outcomeIn (ran dotted {})).toOption.isNone = true := by
    decide +kernel
  rw [hrefines "N"] at hload
  exact absurd hload (by simp [Except.toOption])

end Catalog

end ObjectEngine
