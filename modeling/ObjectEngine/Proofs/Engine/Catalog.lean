import ObjectEngine.Proofs.Engine.Lockstep
import ObjectEngine.Proofs.Schema.Patches
import ObjectEngine.Proofs.Store.Single

/-!
# The catalog in a quiet store

Each operation on a class looks its record up by the id, and changes that record alone
(`Catalog.Does`). The lemmas of this file run the operations where the schema collection is in order
(`Catalog.Orderly`): no fault is due, no index restricts what is stored, and every record has its id
for a member if it has one at all. Only removing `_id` leaves a record without it, and then nothing
finds the record any more.
-/

namespace ObjectEngine

namespace Catalog

open Store (Touches Named named?)

variable {α β : Type} {s t : Store} {w v : World} {className : String} {r : Record}
  {r? r'? : Option Record}

/-! ### The schema collection -/

/-- The record of a class. -/
def record? (s : Store) (className : String) : Option Record := s.record? collection className

/-- **The schema collection is in order.** -/
structure Orderly (s : Store) : Prop where
  quiet : s.Quiet
  unrestricted : Store.Unrestricted (s.collection collection)
  sorted : (s.collection collection).records.Sorted
  named : Named (s.collection collection).records

/-- **Records of schemas under their names**: in order, and each with the name under which it is for
its id, if it has one. -/
structure Keyed (s : Store) : Prop where
  sorted : (s.collection collection).records.Sorted
  named : Named (s.collection collection).records

theorem Orderly.keyed (h : Orderly s) : Keyed s := ⟨h.sorted, h.named⟩

/-- A record that belongs to a class: it has the name of the class for its id, if any. -/
def BelongsTo (className : String) (r : Record) : Prop :=
  ∀ d, r.lookup Record.idKey = some d → d = .string className

theorem Orderly.belongsTo (h : Orderly s) (hr : record? s className = some r) :
    BelongsTo className r :=
  h.named _ _ (Members.mem_of_lookup hr)

theorem Orderly.touches (h : Orderly s) (ht : Touches collection className s r? t)
    (hr : ∀ r, r? = some r → BelongsTo className r) : Orderly t where
  quiet := h.quiet.of_faults ht.faults
  unrestricted := by
    unfold Store.Unrestricted
    rw [ht.indexes]
    exact h.unrestricted
  sorted := ht.sorted h.sorted
  named id r hmem := by
    have hlookup : t.record? collection id = some r :=
      (ht.sorted h.sorted).lookup_of_mem hmem
    by_cases hid : id = className
    · subst hid
      exact hr r (ht.record?.symm.trans hlookup)
    · rw [ht.others id hid] at hlookup
      exact h.named id r (Members.mem_of_lookup hlookup)

/-- **The schema that a store has** of a class: what a load answers where no fault is due. -/
def recorded (s : Store) (className : String) : Outcome (Option ClassSchema) :=
  (load className).outcomeIn { store := { s with faults := [] } }

/-! ### Work on one class -/

/-- **What work does** in a world: what it comes to, and what it leaves under the name of a
class. -/
def Does (work : StoreAction α) (w : World) (className : String) (x : Outcome α)
    (r? : Option Record) : Prop :=
  ∃ v, work.run.run w = (x, v) ∧ Touches collection className w.store r? v.store

theorem Does.bind {work : StoreAction α} {f : α → StoreAction β} {a : α} {y : Outcome β}
    (h : Does work w className (.ok a) r?)
    (hf : ∀ v, Touches collection className w.store r? v.store → Does (f a) v className y r'?) :
    Does (work >>= f) w className y r'? := by
  obtain ⟨v, hrun, ht⟩ := h
  obtain ⟨u, hrun', ht'⟩ := hf v ht
  refine ⟨u, ?_, ht.trans ht'⟩
  rw [StoreAction.run_bind, hrun]
  exact hrun'

theorem Does.bind_error {work : StoreAction α} {f : α → StoreAction β} {e : EngineError}
    (h : Does work w className (.error e) r?) :
    Does (work >>= f) w className (.error e) r? := by
  obtain ⟨v, hrun, ht⟩ := h
  refine ⟨v, ?_, ht⟩
  rw [StoreAction.run_bind, hrun]

theorem Does.tryCatch_ok {work : StoreAction α} {handler : EngineError → StoreAction α} {a : α}
    (h : Does work w className (.ok a) r?) :
    Does (tryCatch work handler) w className (.ok a) r? := by
  obtain ⟨v, hrun, ht⟩ := h
  refine ⟨v, (Program.run_bind work.run _ w).trans ?_, ht⟩
  rw [hrun]
  rfl

theorem Does.tryCatch_error {work : StoreAction α} {handler : EngineError → StoreAction α}
    {e : EngineError} {x : Outcome α} (h : Does work w className (.error e) r?)
    (hhandler : ∀ v, Touches collection className w.store r? v.store →
      Does (handler e) v className x r'?) :
    Does (tryCatch work handler) w className x r'? := by
  obtain ⟨v, hrun, ht⟩ := h
  obtain ⟨u, hrun', ht'⟩ := hhandler v ht
  refine ⟨u, (Program.run_bind work.run _ w).trans ?_, ht.trans ht'⟩
  rw [hrun]
  exact hrun'

/-- Work that does nothing. -/
theorem Does.of_outcome (x : Outcome α) (w : World) (className : String) :
    Does (liftM x : StoreAction α) w className x (record? w.store className) :=
  ⟨w, by cases x <;> rfl, .of_collection rfl (fun _ => rfl) _ _⟩

theorem Does.pure (a : α) (w : World) (className : String) :
    Does (Pure.pure a : StoreAction α) w className (.ok a) (record? w.store className) :=
  .of_outcome (.ok a) w className

theorem Does.throw (e : EngineError) (w : World) (className : String) :
    Does (throw e : StoreAction α) w className (.error e) (record? w.store className) :=
  ⟨w, rfl, .of_collection rfl (fun _ => rfl) _ _⟩

/-- A single call. -/
theorem Does.call {c : Store.Call} {x : Outcome c.Answer}
    (h : (w.store.run c).outcome = x ∧
      Touches collection className w.store r? (w.store.run c).store) :
    Does (Program.call c) w className x r? :=
  ⟨_, Prod.ext h.1 rfl, h.2⟩

/-- What work comes to and leaves. -/
theorem Does.outcomeIn {work : StoreAction α} {x : Outcome α} (h : Does work w className x r?) :
    work.outcomeIn w = x ∧ Touches collection className w.store r? (work.run.run w).2.store := by
  obtain ⟨v, hrun, ht⟩ := h
  rw [StoreAction.outcomeIn, hrun]
  exact ⟨rfl, ht⟩

/-! ### Reading a class -/

/-- **What a load comes to.** -/
def loaded (s : Store) (className : String) : Outcome (Option ClassSchema) :=
  match named? (s.collection collection).records className with
  | none => .ok none
  | some r => (ofRecord r).map some

theorem does_load (hquiet : w.store.Quiet) (h : Keyed w.store) (className : String) :
    Does (load className) w className (loaded w.store className)
      (record? w.store className) := by
  obtain ⟨houtcome, hrests⟩ := hquiet.run_find_byId h.sorted h.named className
  have hfind : Does (Program.call
      (.find collection { filter := .byId className, limit := some 1 } none)) w className
      (.ok (named? (w.store.collection collection).records className).toList)
      (record? w.store className) :=
    .call ⟨houtcome, .of_collection hrests.faults hrests.collection _ _⟩
  refine hfind.bind fun v ht => ?_
  have hsame : record? v.store className = record? w.store className := ht.record?
  rw [← hsame, loaded]
  cases named? (w.store.collection collection).records className with
  | none => exact .pure none v className
  | some r =>
    change Does ((liftM (ofRecord r) : StoreAction ClassSchema) >>= fun schema =>
      Pure.pure (some schema)) v className ((ofRecord r).map some) _
    have hread := Does.of_outcome (ofRecord r) v className
    revert hread
    cases ofRecord r with
    | error e => exact fun hread => hread.bind_error
    | ok schema =>
      refine fun hread => hread.bind fun u hu => ?_
      have hpure := Does.pure (some schema) u className
      rwa [record?, hu.record?] at hpure

/-- The schema that a store has of a class is what a load comes to. -/
theorem recorded_eq_loaded (h : Keyed s) (className : String) :
    recorded s className = loaded s className :=
  (does_load (w := { store := { s with faults := [] } }) (Store.quiet_of_nil rfl) ⟨h.sorted, h.named⟩
    className).outcomeIn.1

/-- A class is loaded from its record, if that has an id. -/
theorem loaded_of_record (hr : record? s className = some r) (hid : r.lookup Record.idKey ≠ none) :
    loaded s className = (ofRecord r).map some := by
  have hlookup : (s.collection collection).records.lookup className = some r := hr
  have hnamed : named? (s.collection collection).records className = some r := by
    rw [named?, hlookup, Option.filter_some, if_pos (Option.isSome_iff_ne_none.2 hid)]
  rw [loaded, hnamed]

/-- A class whose record stores a schema is loaded as that schema. -/
theorem loaded_of_stores {schema : ClassSchema} (hr : record? s className = some r)
    (hstores : Stores r schema) (hschema : schema.Regular) :
    loaded s className = .ok (some schema) := by
  rw [loaded_of_record hr hstores.id_ne_none, hstores.ofRecord_eq hschema.storable]
  rfl

theorem loaded_of_none (hr : record? s className = none) : loaded s className = .ok none := by
  have hlookup : (s.collection collection).records.lookup className = none := hr
  rw [loaded, named?, hlookup]
  rfl

/-- A schema that is loaded was read from the record of the class, which has its id. -/
theorem ofRecord_of_loaded {schema : ClassSchema}
    (h : loaded s className = .ok (some schema)) :
    ∃ r, record? s className = some r ∧ r.lookup Record.idKey ≠ none ∧
      ofRecord r = .ok schema := by
  unfold loaded at h
  split at h
  · exact absurd h (by simp)
  · rename_i r hr
    obtain ⟨hlookup, hid⟩ := Option.filter_eq_some_iff.1 hr
    obtain ⟨read, hread, hsome⟩ := Outcome.map_eq_ok.1 h
    exact ⟨r, hlookup, Option.isSome_iff_ne_none.1 hid, Option.some.inj hsome ▸ hread⟩

theorem does_require_none (h : Orderly w.store) (hr : record? w.store className = none) :
    Does (require className) w className (.error (.classNotFound className)) none := by
  have hload := does_load h.quiet h.keyed className
  rw [loaded_of_none hr, hr] at hload
  refine hload.bind fun v ht => ?_
  have hthrow := Does.throw (α := ClassSchema) (.classNotFound className) v className
  rwa [record?, ht.record?] at hthrow

theorem does_require_some (h : Orderly w.store) {schema : ClassSchema}
    (hr : record? w.store className = some r) (hstores : Stores r schema)
    (hschema : schema.Regular) :
    Does (require className) w className (.ok schema) (some r) := by
  have hload := does_load h.quiet h.keyed className
  rw [loaded_of_stores hr hstores hschema, hr] at hload
  refine hload.bind fun v ht => ?_
  have hpure := Does.pure schema v className
  rwa [record?, ht.record?] at hpure

/-! ### Changing a class -/

/-- The records that an operation on a class is about. -/
theorem matchingIds_of_none (h : Orderly s) (hr : record? s className = none) :
    Store.matchingIds false (.byId className) (s.collection collection).records = .ok [] := by
  have hlookup : (s.collection collection).records.lookup className = none := hr
  rw [Store.matchingIds_byId h.sorted h.named, named?, hlookup]
  rfl

theorem matchingIds_of_some (h : Orderly s) (hr : record? s className = some r)
    (hid : r.lookup Record.idKey ≠ none) :
    Store.matchingIds false (.byId className) (s.collection collection).records =
      .ok [className] := by
  have hlookup : (s.collection collection).records.lookup className = some r := hr
  rw [Store.matchingIds_byId h.sorted h.named, named?, hlookup, Option.filter_some,
    if_pos (Option.isSome_iff_ne_none.2 hid)]
  rfl

theorem does_edit_none (h : Orderly w.store) (hr : record? w.store className = none)
    (e : Edit) : Does (edit className e) w className (.ok ()) none := by
  have hupdate : Does (Program.call (.update collection (.byId className) e none)) w className
      (.ok (0 : Nat)) (w.store.record? collection className) :=
    .call (h.quiet.run_update_none (matchingIds_of_none h hr) className)
  refine hupdate.bind fun v ht => ?_
  have hpure := Does.pure () v className
  rwa [record?, ht.record?, show w.store.record? collection className = none from hr] at hpure

/-- **An update that fits** the record of a class. -/
theorem does_edit_ok (h : Orderly w.store) (hr : record? w.store className = some r)
    (hid : r.lookup Record.idKey ≠ none) {e : Edit} {r' : Record}
    (hedit : e.apply false r = .ok r') :
    Does (edit className e) w className (.ok ()) (some r') := by
  have hupdate : Does (Program.call (.update collection (.byId className) e none)) w className
      (.ok (1 : Nat)) (some r') :=
    .call (h.quiet.run_update_one h.unrestricted (matchingIds_of_some h hr hid) hr hedit)
  refine hupdate.bind fun v ht => ?_
  have hpure := Does.pure () v className
  rwa [record?, ht.record?] at hpure

theorem does_edit_error (h : Orderly w.store) (hr : record? w.store className = some r)
    (hid : r.lookup Record.idKey ≠ none) {e : Edit} {err : EngineError}
    (hedit : e.apply false r = .error err) :
    Does (edit className e) w className (.error err) (some r) := by
  have hupdate : Does (Program.call (.update collection (.byId className) e none)) w className
      (Except.error err : Outcome Nat) (some r) :=
    .call (h.quiet.run_update_error (matchingIds_of_some h hr hid) hr hedit)
  exact hupdate.bind_error

/-- **A class is added** once. -/
theorem does_createClass_none (h : Orderly w.store) {schema : ClassSchema}
    (hschema : schema.Regular) (hr : record? w.store schema.className = none) :
    Does (createClass schema) w schema.className (.ok ()) (some (toRecord schema)) := by
  have hid : (toRecord schema).id? = some schema.className := by
    rw [Record.id?, Record.string?, (stores_toRecord hschema.storable).id]
    rfl
  exact Does.tryCatch_ok (.call (h.quiet.run_insert_free h.unrestricted hid hr))

theorem does_createClass_some (h : Orderly w.store) {schema : ClassSchema}
    (hschema : schema.Regular) (hr : record? w.store schema.className = some r) :
    Does (createClass schema) w schema.className
      (.error (.duplicate s!"Class {schema.className} already exists.")) (some r) := by
  have hid : (toRecord schema).id? = some schema.className := by
    rw [Record.id?, Record.string?, (stores_toRecord hschema.storable).id]
    rfl
  refine Does.tryCatch_error (.call (h.quiet.run_insert_taken hid hr)) fun v ht => ?_
  have hthrow := Does.throw (α := Unit)
    (.duplicate s!"Class {schema.className} already exists.") v schema.className
  rw [record?, ht.record?] at hthrow
  exact hthrow

/-- **A class is removed**, if it is there. -/
theorem does_deleteClass (h : Orderly w.store)
    (hid : ∀ r, record? w.store className = some r → r.lookup Record.idKey ≠ none) :
    Does (deleteClass className) w className (.ok (record? w.store className).isSome) none := by
  cases hr : record? w.store className with
  | none =>
    have hdelete : Does (Program.call (.delete collection (.byId className) none)) w className
        (.ok (0 : Nat)) (w.store.record? collection className) :=
      .call (h.quiet.run_delete_none (matchingIds_of_none h hr) className)
    refine hdelete.bind fun v ht => ?_
    have hpure := Does.pure false v className
    rwa [record?, ht.record?, show w.store.record? collection className = none from hr] at hpure
  | some r =>
    have hdelete : Does (Program.call (.delete collection (.byId className) none)) w className
        (.ok (1 : Nat)) none :=
      .call (h.quiet.run_delete_one (matchingIds_of_some h hr (hid r hr)) hr)
    refine hdelete.bind fun v ht => ?_
    have hpure := Does.pure true v className
    rwa [record?, ht.record?] at hpure

end Catalog

end ObjectEngine
