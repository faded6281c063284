import ObjectEngine.Proofs.Engine.Leaving
import ObjectEngine.Proofs.Engine.Lockstep
import ObjectEngine.Proofs.Schema.Refinement
import ObjectEngine.Proofs.Store.Identity

/-!
# The records of schemas while classes are changed

What work on classes does to the records of schemas, whatever calls fail on the way. Most calls
leave them alone (`Catalog.Still`). To add a class puts a record under a name that was free
(`Catalog.Grows`), and every other change is about the record of one class (`Catalog.Alters`), by a
single call: it is done, or nothing is.

All of this is about the records alone, so that it holds of a store with a fault set up as of one
without (`Catalog.OfRecords`).
-/

namespace ObjectEngine

namespace Catalog

open Store (Named SameContent Done)

variable {s t u : Store} {className other : String} {schema : ClassSchema}

/-! ### Stores with related records -/

/-- **The records of schemas are the same.** -/
def Still (s t : Store) : Prop :=
  (t.collection collection).records = (s.collection collection).records

theorem Still.refl (s : Store) : Still s s := rfl

theorem Still.trans (h : Still s t) (h' : Still t u) : Still s u := Eq.trans h' h

theorem still_of_sameContent (h : SameContent s t) : Still s t := by rw [Still, h.collection]

theorem Still.keyed (h : Still s t) (hs : Keyed s) : Keyed t where
  sorted := Eq.symm h ▸ hs.sorted
  named := Eq.symm h ▸ hs.named

theorem Still.loaded_eq (h : Still s t) (className : String) :
    loaded t className = loaded s className := by
  rw [loaded, loaded, h]

/-- **Only the record of one class** may differ. -/
structure Alters (className : String) (s t : Store) : Prop where
  keyed : Keyed t
  others (other : String) : other ≠ className → record? t other = record? s other

theorem Still.alters (h : Still s t) (hs : Keyed s) (className : String) :
    Alters className s t where
  keyed := h.keyed hs
  others _ _ := by rw [record?, Store.record?, h, record?, Store.record?]

theorem Alters.trans (h : Alters className s t) (h' : Alters className t u) :
    Alters className s u where
  keyed := h'.keyed
  others other hne := (h'.others other hne).trans (h.others other hne)

theorem loaded_congr (h : record? t other = record? s other) :
    loaded t other = loaded s other := by
  have hlookup : (t.collection collection).records.lookup other =
      (s.collection collection).records.lookup other := h
  rw [loaded, loaded, Store.named?, Store.named?, hlookup]

theorem Alters.loaded_eq (h : Alters className s t) (hne : other ≠ className) :
    loaded t other = loaded s other :=
  loaded_congr (h.others other hne)

/-- **Records are added** and none is changed. -/
structure Grows (s t : Store) : Prop where
  keyed : Keyed t
  kept (className : String) (r : Record) :
    record? s className = some r → record? t className = some r

theorem Still.grows (h : Still s t) (hs : Keyed s) : Grows s t where
  keyed := h.keyed hs
  kept className r hr := by
    rw [record?, Store.record?, h]
    exact hr

theorem Grows.trans (h : Grows s t) (h' : Grows t u) : Grows s u where
  keyed := h'.keyed
  kept className r hr := h'.kept className r (h.kept className r hr)

/-- A class that has been loaded is loaded again. -/
theorem Grows.loaded_eq (h : Grows s t) (hloaded : loaded s className = .ok (some schema)) :
    loaded t className = .ok (some schema) := by
  obtain ⟨r, hr, -, -⟩ := ofRecord_of_loaded hloaded
  rw [← hloaded]
  exact loaded_congr ((h.kept className r hr).trans hr.symm)

/-- **An invariant of the records of schemas.** -/
def OfRecords (I : Store → Prop) : Prop := ∀ s t, Still s t → I s → I t

theorem OfRecords.stable {I : Store → Prop} (hI : OfRecords I) : Store.Stable I :=
  fun s t hsame => hI s t (still_of_sameContent hsame)

theorem ofRecords_still (s : Store) : OfRecords (Still s) := fun _ _ h' h => h.trans h'

theorem ofRecords_alters (className : String) (s : Store) : OfRecords (Alters className s) :=
  fun _ _ h' h => h.trans (h'.alters h.keyed className)

theorem ofRecords_grows (s : Store) : OfRecords (Grows s) :=
  fun _ _ h' h => h.trans (h'.grows h.keyed)

/-! ### Calls -/

/-- **A call that leaves the records of schemas alone**: it reads, is about indexes, or is about
another collection. -/
def Spared : Store.Call → Prop
  | .find .. | .count .. | .createIndex .. | .dropIndex .. | .listIndexes _ => True
  | .update name .. | .drop name => collection ≠ name
  | _ => False

theorem still_of_spared {c : Store.Call} {a : c.Answer} (hc : Spared c) (h : Done s c a t) :
    Still s t := by
  rw [Still, h.collection]
  cases c with
  | find | count | listIndexes =>
    simp only [Store.collectionAfter, Store.changes, Store.ite_changed_nil]
  | createIndex name index | dropIndex name index =>
    simp only [Store.collectionAfter]
    split <;> rfl
  | update name filter edit session =>
    have hname : collection ≠ name := hc
    exact congrArg Collection.records (if_neg hname)
  | drop name =>
    have hname : collection ≠ name := hc
    exact congrArg Collection.records (if_neg hname)
  | _ => exact absurd hc not_false

theorem ensures_spared {I : Store → Prop} (hI : OfRecords I) {c : Store.Call} (hc : Spared c) :
    StoreAction.Ensures I (fun _ => True) (Program.call c) :=
  StoreAction.ensures_of_done hI.stable fun s _ t hs hdone =>
    ⟨hI s t (still_of_spared hc hdone) hs, trivial⟩

section

variable {c : Store.Call} {a : c.Answer} (hs : Keyed s) (h : Done s c a t)
  (hafter : ∀ name, s.collectionAfter c name =
    if name = c.collection then Store.changed (s.changes c) (s.collection name)
    else s.collection name)
  (hname : c.collection = collection)
  (hchanges : ∀ w ∈ s.changes c, ∀ r, w.after = some r → BelongsTo w.id r)

include h hafter hname in
/-- A record without a change stays. -/
theorem record?_of_changes_ne (hne : ∀ w ∈ s.changes c, w.id ≠ other) :
    record? t other = record? s other := by
  rw [record?, Store.record?, h.collection, hafter, if_pos hname.symm]
  exact Store.lookup_applyChanges_of_ne hne _

include hs h hafter hname hchanges

/-- **Changes of records that keep their names** leave all records under their names. -/
theorem keyed_of_changes : Keyed t := by
  have hsorted : (t.collection collection).records.Sorted := by
    rw [h.collection]
    exact Store.sorted_collectionAfter s c hs.sorted
  refine ⟨hsorted, fun id r hmem => ?_⟩
  have hlookup := hsorted.lookup_of_mem hmem
  rw [h.collection, hafter, if_pos hname.symm] at hlookup
  by_cases hchanged : ∃ w ∈ s.changes c, w.id = id
  · obtain ⟨w, hw, rfl⟩ := hchanged
    refine hchanges w hw r (Eq.trans (Eq.symm ?_) hlookup)
    exact Store.lookup_applyChanges (fun w hw w' hw' => Store.changes_agree hw hw') hw _
  · have hsame := Store.lookup_applyChanges_of_ne (k := id)
      (fun w hw he => hchanged ⟨w, hw, he⟩) (s.collection collection).records
    exact hs.named id r (Members.mem_of_lookup (hsame.symm.trans hlookup))

theorem alters_of_changes (hids : ∀ w ∈ s.changes c, w.id = className) :
    Alters className s t where
  keyed := keyed_of_changes hs h hafter hname hchanges
  others _ hne :=
    record?_of_changes_ne h hafter hname fun w hw he => hne (he.symm.trans (hids w hw))

end

/-- A record that is found by the name of a class is that of the class, and has its name. -/
theorem lookup_of_byId (hs : Keyed s) {id : String} {r : Record}
    (hmem : (id, r) ∈ (s.collection collection).records)
    (hp : ((Predicate.byId className).eval none r).1 = .ok true) :
    id = className ∧ r.lookup Record.idKey = some (.string className) := by
  have hnamed := hs.named id r hmem
  rw [Store.eval_byId hnamed, Except.ok.injEq, decide_eq_true_eq] at hp
  obtain ⟨rfl, hsome⟩ := hp
  obtain ⟨d, hd⟩ := Option.isSome_iff_exists.1 hsome
  rw [hd, hnamed d hd]
  exact ⟨rfl, rfl⟩

/-- An update of the record of a class that does not give it another name. -/
def KeepsName (className : String) (e : Edit) : Prop :=
  ∀ r r' : Record, r.lookup Record.idKey = some (.string className) → e.apply false r = .ok r' →
    BelongsTo className r'

theorem keepsName_of_spares {e : Edit} (h : e.Spares className) : KeepsName className e := by
  intro r r' hr happly d hd
  have hname := h.lookup_of_apply hr happly
  exact Option.some.inj (hd.symm.trans hname)

/-- What is removed from a record gives it no other name. -/
theorem keepsName_unset (className : String) (paths : NameSet) :
    KeepsName className { unset := paths } := by
  intro r r' hr happly
  rw [Edit.apply_unset] at happly
  obtain rfl := Except.ok.inj happly
  exact List.foldlRecOn paths _ (motive := BelongsTo className)
    (fun d hd => Option.some.inj (hd.symm.trans hr)) fun _ h path _ => h.unsetPath path

/-- **An update of the record of a class.** -/
theorem alters_of_edit {e : Edit} (he : KeepsName className e) (hs : Keyed s) {a : Nat}
    (h : Done s (.update collection (.byId className) e none) a t) : Alters className s t := by
  have hrewrites {w : Store.Change}
      (hw : w ∈ s.changes (.update collection (.byId className) e none)) :
      w.id = className ∧ ∀ r, w.after = some r → BelongsTo className r := by
    obtain ⟨current, next, hchange, hcurrent, ⟨found, hfound, hp⟩, happly, -⟩ :=
      Store.mem_rewrites hw
    obtain rfl : found = current :=
      Option.some.inj ((hs.sorted.lookup_of_mem hfound).symm.trans hcurrent)
    obtain ⟨hid, hlookup⟩ := lookup_of_byId hs hfound hp
    refine ⟨hid, fun r hafter => ?_⟩
    obtain rfl : next = r := by
      rw [hchange] at hafter
      exact Option.some.inj hafter
    exact he found next hlookup happly
  refine alters_of_changes hs h (fun _ => rfl) rfl (fun w hw r hafter => ?_)
    fun w hw => (hrewrites hw).1
  rw [(hrewrites hw).1]
  exact (hrewrites hw).2 r hafter

/-- **The removal of a class.** -/
theorem alters_of_delete (hs : Keyed s) {a : Nat}
    (h : Done s (.delete collection (.byId className) none) a t) : Alters className s t := by
  have hremovals {w : Store.Change}
      (hw : w ∈ s.changes (.delete collection (.byId className) none)) :
      w.id = className ∧ w.after = none := by
    simp only [Store.changes] at hw
    split at hw
    · rename_i ids hids
      obtain ⟨v, hv, rfl⟩ := List.mem_map.1 hw
      obtain ⟨id, hid, hv⟩ := List.mem_filterMap.1 hv
      obtain ⟨r, -, rfl⟩ := Option.map_eq_some_iff.1 hv
      obtain ⟨found, hmem, hp⟩ := Store.mem_matchingIds hids hid
      exact ⟨(lookup_of_byId hs hmem hp).1, rfl⟩
    · exact absurd hw List.not_mem_nil
  refine alters_of_changes hs h (fun _ => rfl) rfl (fun w hw r hafter => ?_)
    fun w hw => (hremovals hw).1
  exact absurd ((hremovals hw).2.symm.trans hafter) (by simp)

/-- **A new class** is put under a name that was free. -/
theorem grows_of_insert (hs : Keyed s) {record : Record} {a : Unit}
    (h : Done s (.insert collection record none) a t) : Grows s t := by
  have hinsertion {w : Store.Change} (hw : w ∈ s.changes (.insert collection record none)) :
      record.id? = some w.id ∧ w.before = none ∧ w.after = some record := by
    obtain ⟨id, hid, rfl⟩ := Option.map_eq_some_iff.1 (Option.mem_toList.1 hw)
    exact ⟨hid, rfl, rfl⟩
  refine ⟨keyed_of_changes hs h (fun _ => rfl) rfl fun w hw r hafter d hd => ?_,
    fun className r hr => ?_⟩
  · obtain ⟨hid, -, hrecord⟩ := hinsertion hw
    obtain rfl := Option.some.inj (hrecord.symm.trans hafter)
    exact Option.some.inj (hd.symm.trans (Record.lookup_of_string? hid))
  · refine (record?_of_changes_ne h (fun _ => rfl) rfl fun w hw he => ?_).trans hr
    have hfree := (h.admitted w hw).before
    rw [he, (hinsertion hw).2.1] at hfree
    exact absurd (hr.symm.trans hfree) (by simp)

/-! ### Operations -/

/-- **A load** comes to what the records say, if it is known what they say all along. -/
theorem ensures_load_of {I : Store → Prop} (hI : Store.Stable I) {x : Outcome (Option ClassSchema)}
    (h : ∀ t, I t → Keyed t ∧ loaded t className = x) :
    (load className).Ensures I fun schema? => x = .ok schema? := by
  refine .bind (StoreAction.ensures_find hI _ _ _) fun rs hrs => ?_
  obtain ⟨t, ht, hquery⟩ := hrs
  obtain ⟨hkeyed, rfl⟩ := h t ht
  rw [Store.query_byId hkeyed.sorted hkeyed.named] at hquery
  obtain rfl := Except.ok.inj hquery
  rw [loaded]
  cases Store.named? (t.collection collection).records className with
  | none => exact .pure rfl
  | some r =>
    refine .bind (StoreAction.Ensures.outcome fun schema hschema => hschema) fun schema hread => ?_
    exact .pure (congrArg (Except.map some) hread)

theorem ensures_load (hs : Keyed s) (className : String) :
    (load className).Ensures (Still s) fun schema? => loaded s className = .ok schema? :=
  ensures_load_of (ofRecords_still s).stable fun _ ht => ⟨ht.keyed hs, ht.loaded_eq className⟩

/-- A class is loaded as a schema of its own, and has a valid name. -/
theorem className_of_loaded (hs : Keyed s) (h : loaded s className = .ok (some schema)) :
    schema.className = className ∧ isClassName className = true := by
  obtain ⟨r, hr, -, hread⟩ := ofRecord_of_loaded h
  obtain ⟨hid, hvalid⟩ := ofRecord_className hread
  have hname := hs.named className r (Members.mem_of_lookup hr) _ (Record.lookup_of_string? hid)
  obtain rfl : schema.className = className := Datum.string.inj hname
  exact ⟨rfl, hvalid⟩

theorem ensures_require_of {I : Store → Prop} (hI : Store.Stable I)
    {x : Outcome (Option ClassSchema)} (h : ∀ t, I t → Keyed t ∧ loaded t className = x) :
    (require className).Ensures I fun schema => x = .ok (some schema) := by
  refine .bind (ensures_load_of hI h) fun schema? hschema => ?_
  cases schema? with
  | none => exact .throw
  | some schema => exact .pure hschema

theorem ensures_require_loaded (hs : Keyed s) (className : String) :
    (require className).Ensures (Still s) fun schema => loaded s className = .ok (some schema) :=
  ensures_require_of (ofRecords_still s).stable fun _ ht => ⟨ht.keyed hs, ht.loaded_eq className⟩

/-- **A change of one class** is done, or nothing is. -/
def Changes (className : String) {α : Type} (work : StoreAction α) : Prop :=
  ∀ s, Keyed s → work.Leaves (fun _ => Alters className s) (Still s) s

theorem changes_edit {e : Edit} (he : KeepsName className e) :
    Changes className (edit className e) := fun _ hs =>
  .bind (.call (fun _ _ _ hsame hdone =>
      have hstill := still_of_sameContent hsame
      (hstill.alters hs className).trans (alters_of_edit he (hstill.keyed hs) hdone))
    fun _ hsame => still_of_sameContent hsame)

theorem changes_forgetIndex (className name : String) :
    Changes className (forgetIndex className name) :=
  changes_edit (keepsName_unset className _)

/-- The record of an index has no name of a class. -/
theorem keepsName_recordIndex (className : String) (index : IndexDescriptor) :
    KeepsName className { set := [(indexPath index.name, indexToDatum index)] } := by
  refine keepsName_of_spares ⟨fun m hm hkey => ?_, List.not_mem_nil⟩
  obtain rfl := List.mem_singleton.1 hm
  -- the path of an index has a full stop, and the name of a class is not under one
  have hdot : '.' ∈ Record.idKey.toList := hkey ▸ dotted_indexPath index.name
  exact absurd hdot (by decide)

theorem changes_recordIndex (className : String) (index : IndexDescriptor) :
    Changes className (recordIndex className index) :=
  changes_edit (keepsName_recordIndex className index)

theorem changes_deleteClass (className : String) : Changes className (deleteClass className) :=
  fun _ hs => .bind (.call (fun _ _ _ hsame hdone =>
      have hstill := still_of_sameContent hsame
      (hstill.alters hs className).trans (alters_of_delete (hstill.keyed hs) hdone))
    fun _ hsame => still_of_sameContent hsame)

theorem changes_addField (className name : String) (ty : FieldType) :
    Changes className (addField className name ty) := by
  intro s hs
  refine .ensures_bind (ofRecords_still s).stable (ensures_require_loaded hs className) (.refl s)
    (fun _ h => h) fun schema t _ ht => .ite (fun _ => .pure (ht.alters hs className)) fun _ => ?_
  refine .outcome_bind ht fun next hnext => .bind ?_
  have hfield : isFieldName name = true := by
    cases hname : isFieldName name with
    | true => rfl
    | false => simp [ClassSchema.addField, hname] at hnext
  refine (changes_edit (keepsName_of_spares ⟨fun m hm hkey => ?_, List.not_mem_nil⟩) t
    (ht.keyed hs)).mono (fun _ u hu => .pure ((ht.alters hs className).trans hu))
      fun _ hu => ht.trans hu
  obtain rfl := List.mem_singleton.1 hm
  exact absurd (hkey ▸ hfield) not_isIdentifier_idKey

/-- An update of the record of a class, among others. -/
theorem ensures_edit {e : Edit} (he : KeepsName className e) (s : Store) :
    (edit className e).Ensures (Alters className s) fun _ => True := by
  refine .bind (Q := fun _ => True) ?_ fun _ _ => .pure trivial
  exact StoreAction.ensures_of_done (ofRecords_alters className s).stable fun t _ u ht hdone =>
    ⟨ht.trans (alters_of_edit he ht.keyed hdone), trivial⟩

theorem ensures_removeFields (className : String) (names : List String) (s : Store) :
    (removeFields className names).Ensures (Alters className s) fun _ => True := by
  refine .bind (ensures_require (ofRecords_alters className s).stable className) fun schema _ => ?_
  refine .bind (StoreAction.Ensures.outcome (Q := fun _ => True) fun _ _ => trivial) fun _ _ => ?_
  exact .bind (ensures_edit (keepsName_unset className _) s) fun _ _ => .pure trivial

theorem ensures_createClass (schema : ClassSchema) (s : Store) :
    (createClass schema).Ensures (Grows s) fun _ => True := by
  refine Program.Ensures.bind (StoreAction.ensures_of_done (ofRecords_grows s).stable
    fun t _ u ht hdone => ⟨ht.trans (grows_of_insert ht.keyed hdone), trivial⟩) fun r _ => ?_
  cases r with
  | ok a => exact fun _ _ => trivial
  | error e => cases e <;> exact fun _ _ => trivial

end Catalog

end ObjectEngine
