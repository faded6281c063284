import ObjectEngine.Proofs.Engine.Recording
import ObjectEngine.Proofs.Engine.Together
import ObjectEngine.Proofs.Store.Succeeding

/-!
# Fields that are declared at once

To declare a field is two calls to the store (`Catalog.run_addField`): the record of the class is
looked up, and the type is stored where none was found. Others may go on between the two, so any
number of declarations take turns here (`Catalog.declarers`). `Catalog.Course` is what holds as long
as no two declarations of one field with different types cross; each turn keeps it
(`Catalog.Course.step`). The store keeps nobody from overwriting a type, so where two of them do
cross, both return: declarations are settled exactly if none cross
(`Catalog.settled_iff_not_crossing`).
-/

namespace ObjectEngine

namespace Outcome

variable {α β : Type}

/-- A fold that succeeds has taken each of its items. -/
theorem exists_of_foldlM {f : β → α → Outcome β} {xs : List α} {b b' : β}
    (h : xs.foldlM f b = .ok b') {x : α} (hx : x ∈ xs) : ∃ c c', f c x = .ok c' := by
  induction xs generalizing b with
  | nil => exact absurd hx List.not_mem_nil
  | cons a rest ih =>
    rw [List.foldlM_cons] at h
    obtain ⟨next, hnext, h⟩ := bind_eq_ok.1 h
    rcases List.mem_cons.1 hx with rfl | hx
    · exact ⟨b, next, hnext⟩
    · exact ih h hx

end Outcome

namespace Catalog

open Store (SameContent)

variable {r : Record} {s t : Store} {className name key : String} {ty : FieldType}
  {schema next : ClassSchema}

/-! ### A field in the record of a class -/

/-- Whether a member can be read does not depend on what was read before. -/
theorem exists_readMember {start : ClassSchema} {d : Datum} (h : readMember start key d = .ok next)
    (start' : ClassSchema) : ∃ next', readMember start' key d = .ok next' := by
  unfold readMember at h ⊢
  by_cases hid : key = Record.idKey
  · exact ⟨start', if_pos hid⟩
  rw [if_neg hid] at h ⊢
  split at h
  · split at h
    · refine Outcome.exists_foldlM fun m hm b => ?_
      obtain ⟨c, c', hm⟩ := Outcome.exists_of_foldlM h hm
      obtain ⟨index, hindex, -⟩ := Outcome.bind_eq_ok.1 hm
      exact ⟨_, Outcome.bind_eq_ok.2 ⟨index, hindex, rfl⟩⟩
    · exact ⟨start', rfl⟩
  · obtain ⟨ty, hty, -⟩ := Outcome.bind_eq_ok.1 h
    exact ⟨_, Outcome.bind_eq_ok.2 ⟨ty, hty, rfl⟩⟩
  · exact absurd h (by simp)

/-- A record that is read is read member by member. -/
theorem exists_foldlM_of_ofRecord (h : ofRecord r = .ok schema) :
    ∃ start, r.foldlM (fun schema m => readMember schema m.1 m.2) start = .ok schema := by
  obtain ⟨className, -, h⟩ := Outcome.bind_eq_ok.1 h
  cases hcreate : ClassSchema.create className with
  | error e => exact absurd h (by simp [hcreate, bind, Except.bind, throw, throwThe,
      MonadExceptOf.throw])
  | ok start =>
    rw [hcreate] at h
    exact ⟨start, h⟩

/-- **A record with one more field** can be read. -/
theorem exists_ofRecord_insert (h : ofRecord r = .ok schema) (hname : isIdentifier name = true)
    (ty : FieldType) :
    ∃ next, ofRecord (Members.insert name (.string ty.storedText) r) = .ok next := by
  have hid : name ≠ Record.idKey := fun he => not_isIdentifier_idKey (he ▸ hname)
  obtain ⟨hrecord, hvalid⟩ := ofRecord_className h
  have hsame : Record.id? (Members.insert name (.string ty.storedText) r) = r.id? := by
    rw [Record.id?, Record.string?, Members.lookup_insert, if_neg (Ne.symm hid), Record.id?,
      Record.string?]
  obtain ⟨start, hcreate⟩ : ∃ start, ClassSchema.create schema.className = .ok start :=
    ⟨_, if_pos hvalid⟩
  obtain ⟨_, h⟩ := exists_foldlM_of_ofRecord h
  have hmembers : ∀ m ∈ Members.insert name (.string ty.storedText) r, ∀ start,
      ∃ next, readMember start m.1 m.2 = .ok next := by
    intro m hm start
    rcases Members.mem_insert hm with rfl | hm
    · rw [readMember, if_neg hid]
      exact ⟨_, Outcome.bind_eq_ok.2 ⟨ty, FieldType.ofStoredText_storedText ty, rfl⟩⟩
    · obtain ⟨c, c', hc⟩ := Outcome.exists_of_foldlM h hm
      exact exists_readMember hc start
  obtain ⟨next, hnext⟩ := Outcome.exists_foldlM (b := start) hmembers
  refine ⟨next, Outcome.bind_eq_ok.2 ⟨schema.className, Outcome.ofOption_eq_ok.2
    (hsame.trans hrecord), ?_⟩⟩
  rw [hcreate]
  exact hnext

/-- **The fields after one is put in**: it has the type, and the others have the types they had. -/
theorem fieldType?_insert (hsorted : Members.Sorted r) (hindexes : (storedIndexes r).Sorted)
    (hname : isIdentifier name = true) (h : ofRecord r = .ok schema)
    (hnext : ofRecord (Members.insert name (.string ty.storedText) r) = .ok next) (key : String) :
    next.fieldType? key = if key = name then some ty else schema.fieldType? key := by
  have hid : name ≠ Record.idKey := fun he => not_isIdentifier_idKey (he ▸ hname)
  have hmeta : metadataKey ≠ name := fun he => not_isIdentifier_metadataKey (he ▸ hname)
  have hstored : storedIndexes (Members.insert name (.string ty.storedText) r) = storedIndexes r :=
    storedIndexes_congr ((Members.lookup_insert ..).trans (if_neg hmeta))
  have hclass : next.className = schema.className := by
    have hsame := (ofRecord_className hnext).1
    rw [Record.id?, Record.string?, Members.lookup_insert, if_neg (Ne.symm hid)] at hsame
    exact Option.some.inj (hsame.symm.trans (ofRecord_className h).1)
  have hread := readOn_of_ofRecord hsorted hindexes h
  have hread' := readOn_of_ofRecord (Members.sorted_insert hsorted _ _) (hstored ▸ hindexes) hnext
  rw [ClassSchema.fieldType?, ClassSchema.fieldType?, hread.field, hread'.field,
    Members.lookup_insert, hclass]
  by_cases hkey : key = name
  · subst hkey
    simp [declaredType?, hid, FieldType.ofStoredText_storedText, Except.toOption]
  · simp [hkey]

/-! ### The calls of one declaration -/

/-- **The record of a class can be told by its name**, and its maps are in order. -/
structure Tidy (className : String) (s : Store) : Prop where
  keyed : Keyed s
  sorted (r : Record) : record? s className = some r →
    Members.Sorted r ∧ (storedIndexes r).Sorted

theorem tidy_of_stores (h : Keyed s) (hr : record? s className = some r)
    (hstores : Stores r schema) : Tidy className s where
  keyed := h
  sorted r' hr' := by
    obtain rfl := Option.some.inj (hr.symm.trans hr')
    exact ⟨hstores.sorted, hstores.sorted_indexes⟩

theorem Tidy.of_still (h : Tidy className s) (hstill : Still s t) : Tidy className t where
  keyed := hstill.keyed h.keyed
  sorted r hr := h.sorted r (by rwa [record?, Store.record?, hstill] at hr)

/-- **A look-up** finds the record from which the class is loaded. -/
theorem loaded_of_find (h : Tidy className s) {records : List Record}
    (hfind : (s.run (.find collection { filter := .byId className, limit := some 1 }
      none)).outcome = .ok records) :
    records = [] ∧ loaded s className = .ok none ∨
      ∃ r, records = [r] ∧ loaded s className = (ofRecord r).map some := by
  have hquery := (Store.run_ok hfind).answers
  have hrecords : records = (Store.named? (s.collection collection).records className).toList :=
    Except.ok.inj (hquery.symm.trans (Store.query_byId h.keyed.sorted h.keyed.named className))
  rw [loaded, hrecords]
  cases Store.named? (s.collection collection).records className with
  | none => exact .inl ⟨rfl, rfl⟩
  | some r => exact .inr ⟨r, rfl, rfl⟩

/-- The update that stores the type of a field. -/
def typeEdit (name : String) (ty : FieldType) : Edit := { set := [(name, .string ty.storedText)] }

/-- **A type that is stored** is that of the field from then on, and no other field changes. -/
theorem tidy_of_update (h : Tidy className s) (hname : isIdentifier name = true)
    (hloaded : loaded s className = .ok (some schema)) {n : Nat}
    (hupdate : (s.run (.update collection (.byId className) (typeEdit name ty) none)).outcome =
      .ok n) :
    let t := (s.run (.update collection (.byId className) (typeEdit name ty) none)).store
    Tidy className t ∧ ∃ next, loaded t className = .ok (some next) ∧
      ∀ key, next.fieldType? key = if key = name then some ty else schema.fieldType? key := by
  intro t
  obtain ⟨r, hr, hid, hread⟩ := ofRecord_of_loaded hloaded
  obtain ⟨hsorted, hindexes⟩ := h.sorted r hr
  have hne : Record.idKey ≠ name := fun he => not_isIdentifier_idKey (he ▸ hname)
  have hmeta : metadataKey ≠ name := fun he => not_isIdentifier_metadataKey (he ▸ hname)
  have hmatches : ((Predicate.byId className).eval none r).1 = .ok true := by
    rw [Store.eval_byId (h.keyed.named className r (Members.mem_of_lookup hr))]
    simp [Option.isSome_iff_ne_none.2 hid]
  obtain ⟨r', hedit, hr'⟩ := Store.record?_run_update hupdate hr hmatches
  obtain rfl : Members.insert name (.string ty.storedText) r = r' := by
    rw [typeEdit, Edit.apply_set_ok
      (Record.setPath_key (Text.split_of_not_mem (not_mem_of_isIdentifier hname)) _ _)] at hedit
    exact Except.ok.inj hedit
  have hspares : (typeEdit name ty).Spares className := by
    refine ⟨fun m hm hkey => ?_, List.not_mem_nil⟩
    obtain rfl := List.mem_singleton.1 hm
    exact absurd hkey.symm hne
  have halters := alters_of_edit (keepsName_of_spares hspares) h.keyed (Store.run_ok hupdate)
  obtain ⟨next, hnext⟩ := exists_ofRecord_insert hread hname ty
  refine ⟨⟨halters.keyed, fun r'' hr'' => ?_⟩, next, ?_,
    fieldType?_insert hsorted hindexes hname hread hnext⟩
  · obtain rfl := Option.some.inj (hr'.symm.trans hr'')
    refine ⟨Members.sorted_insert hsorted _ _, ?_⟩
    rwa [storedIndexes_congr ((Members.lookup_insert ..).trans (if_neg hmeta))]
  · rw [loaded_of_record hr' (by rwa [Members.lookup_insert, if_neg hne]), hnext]
    rfl

/-- A declaration that is about to store its type. -/
def storing (className name : String) (ty : FieldType) (next : ClassSchema) :
    Program (Outcome ClassSchema) :=
  .ask (.store (.update collection (.byId className) (typeEdit name ty) none)) fun answer =>
    .done (answer.map fun _ => next)

/-- What a declaration makes of the record of the class. -/
def declaring (className name : String) (ty : FieldType) :
    Outcome (List Record) → Program (Outcome ClassSchema)
  | .error e => .done (.error e)
  | .ok [] => .done (.error (.classNotFound className))
  | .ok (r :: _) =>
    match ofRecord r with
    | .error e => .done (.error e)
    | .ok schema =>
      if schema.fieldType? name = some ty then .done (.ok schema)
      else match schema.addField name ty with
        | .error e => .done (.error e)
        | .ok next => storing className name ty next

/-- **A declaration** looks the record of the class up, and stores the type unless it finds it
there. -/
theorem run_addField (className name : String) (ty : FieldType) :
    (addField className name ty).run =
      .ask (.store (.find collection { filter := .byId className, limit := some 1 } none))
        (declaring className name ty) := by
  refine congrArg (Program.ask _) (funext fun answer => ?_)
  cases answer with
  | error e => rfl
  | ok records =>
    cases records with
    | nil => rfl
    | cons r rest =>
      dsimp only [declaring, addField, require, load, Program.call, Program.request, ExceptT.run,
        bind, ExceptT.bind, ExceptT.bindCont, ExceptT.mk, Program.bind, liftM, monadLift,
        MonadLift.monadLift, pure, ExceptT.pure]
      cases ofRecord r with
      | error e => rfl
      | ok schema =>
        dsimp only [Program.bind, ExceptT.bindCont]
        split
        · rfl
        · cases schema.addField name ty with
          | error e => rfl
          | ok next =>
            refine congrArg (Program.ask _) (funext fun answer => ?_)
            cases answer <;> rfl

/-! ### Declarations that take turns -/

/-- A field that is to have a type. -/
structure Declaration where
  field : String
  ty : FieldType

/-- Declarations on one class, over one world. -/
def declarers {ι : Type} (className : String) (d : ι → Declaration) (w : World) :
    Turns ι (Outcome ClassSchema) where
  world := w
  program i := (addField className (d i).field (d i).ty).run

/-- A declaration has returned a schema. -/
def Returned {ι : Type} (t : Turns ι (Outcome ClassSchema)) (i : ι) : Prop :=
  ∃ schema, t.program i = .done (.ok schema)

instance {ι : Type} (t : Turns ι (Outcome ClassSchema)) (i : ι) : Decidable (Returned t i) :=
  match h : t.program i with
  | .done (.ok schema) => .isTrue ⟨schema, h⟩
  | .done (.error _) => .isFalse fun ⟨_, hdone⟩ => nomatch h.symm.trans hdone
  | .ask _ _ => .isFalse fun ⟨_, hdone⟩ => nomatch h.symm.trans hdone

/-- **The stored type** of a field: a load of the class gives a schema with it. -/
def StoredType (s : Store) (className name : String) (ty? : Option FieldType) : Prop :=
  ∃ schema, recorded s className = .ok (some schema) ∧ schema.fieldType? name = ty?

section

variable {ι : Type} [DecidableEq ι] (className : String) (d : ι → Declaration) (w : World)

/-- **Declarations are settled**: once one has returned, no declaration of the field with another
type has returned at any time, and the stored type of the field is the declared one from then
on. -/
def Settled (schedule : List ι) : Prop :=
  ∀ earlier later, earlier ++ later <+: schedule →
    ∀ i, Returned ((declarers className d w).run earlier) i →
      (∀ j, (d j).field = (d i).field → (d j).ty ≠ (d i).ty →
        ¬Returned ((declarers className d w).run (earlier ++ later)) j) ∧
      StoredType ((declarers className d w).run (earlier ++ later)).world.store className
        (d i).field (some (d i).ty)

/-- **Declarations cross**: two of them declare one field with different types, are underway at the
same time, so that each has looked for the field before the other has stored its type, and both
return. -/
def Crossing (schedule : List ι) : Prop :=
  ∃ i j, (d i).field = (d j).field ∧ (d i).ty ≠ (d j).ty ∧
    (declarers className d w).Meet schedule i j ∧
    Returned ((declarers className d w).run schedule) i ∧
    Returned ((declarers className d w).run schedule) j

/-- **What holds as long as no declarations cross.** The fields of declarations that have returned
have their types, and a declaration that is about to store its type either finds the field free or
has met one that has taken it. -/
structure Course (schedule : List ι) : Prop where
  tidy : Tidy className ((declarers className d w).run schedule).world.store
  returned (i : ι) : Returned ((declarers className d w).run schedule) i →
    StoredType ((declarers className d w).run schedule).world.store className (d i).field
      (some (d i).ty)
  underway (i : ι) : (declarers className d w).Underway schedule i →
    isIdentifier (d i).field = true ∧
      (∃ next, ((declarers className d w).run schedule).program i =
        storing className (d i).field (d i).ty next) ∧
      (StoredType ((declarers className d w).run schedule).world.store className (d i).field none ∨
        ∃ j, (d j).field = (d i).field ∧ (declarers className d w).Meet schedule i j ∧
          Returned ((declarers className d w).run schedule) j)

end

section

variable {ι : Type} [DecidableEq ι] {d : ι → Declaration} {w : World} {schedule later : List ι}
  {i j k : ι} {ty? : Option FieldType}

theorem StoredType.of_still (htidy : Tidy className s) (hstill : Still s t)
    (h : StoredType s className name ty?) : StoredType t className name ty? := by
  rwa [StoredType, recorded_eq_loaded (hstill.keyed htidy.keyed), hstill.loaded_eq,
    ← recorded_eq_loaded htidy.keyed]

theorem Returned.run {t : Turns ι (Outcome ClassSchema)} (h : Returned t i) (schedule : List ι) :
    Returned (t.run schedule) i := by
  obtain ⟨schema, hdone⟩ := h
  exact ⟨schema, Turns.program_run_of_done hdone⟩

theorem Returned.append (h : Returned ((declarers className d w).run schedule) i)
    (later : List ι) : Returned ((declarers className d w).run (schedule ++ later)) i := by
  rw [Turns.run_append]
  exact h.run later

theorem returned_of_concat (hne : j ≠ i)
    (h : Returned ((declarers className d w).run (schedule ++ [i])) j) :
    Returned ((declarers className d w).run schedule) j := by
  obtain ⟨schema, hdone⟩ := h
  rw [Turns.run_concat, Turns.program_step_of_ne hne] at hdone
  exact ⟨schema, hdone⟩

theorem Crossing.append (h : Crossing className d w schedule) (later : List ι) :
    Crossing className d w (schedule ++ later) := by
  obtain ⟨i, j, hfield, hty, hmeet, hi, hj⟩ := h
  exact ⟨i, j, hfield, hty, hmeet.append later, hi.append later, hj.append later⟩

/-- A declaration that has had no turn looks for the class first. -/
theorem program_of_notMem (h : i ∉ schedule) :
    ((declarers className d w).run schedule).program i =
      .ask (.store (.find collection { filter := .byId className, limit := some 1 } none))
        (declaring className (d i).field (d i).ty) :=
  (Turns.program_run_of_notMem h).trans (run_addField ..)

theorem course_nil (htidy : Tidy className w.store) : Course className d w [] where
  tidy := htidy
  returned i h := by
    obtain ⟨schema, hdone⟩ := h
    rw [program_of_notMem List.not_mem_nil] at hdone
    exact nomatch hdone
  underway _ h := absurd h.1 List.not_mem_nil

/-- A turn that leaves the records of schemas alone. -/
theorem Course.of_still (h : Course className d w schedule)
    (hstill : Still ((declarers className d w).run schedule).world.store
      ((declarers className d w).run (schedule ++ [i])).world.store)
    (hreturned : Returned ((declarers className d w).run (schedule ++ [i])) i →
      StoredType ((declarers className d w).run schedule).world.store className (d i).field
        (some (d i).ty))
    (hunderway : (declarers className d w).Underway (schedule ++ [i]) i →
      isIdentifier (d i).field = true ∧
        (∃ next, ((declarers className d w).run (schedule ++ [i])).program i =
          storing className (d i).field (d i).ty next) ∧
        StoredType ((declarers className d w).run schedule).world.store className (d i).field
          none) :
    Course className d w (schedule ++ [i]) where
  tidy := h.tidy.of_still hstill
  returned j hj := by
    by_cases hji : j = i
    · subst hji
      exact (hreturned hj).of_still h.tidy hstill
    · exact (h.returned j (returned_of_concat hji hj)).of_still h.tidy hstill
  underway j hj := by
    by_cases hji : j = i
    · subst hji
      obtain ⟨hname, hstoring, hfree⟩ := hunderway hj
      exact ⟨hname, hstoring, .inl (hfree.of_still h.tidy hstill)⟩
    · obtain ⟨hname, ⟨next, hnext⟩, hfield⟩ := h.underway j (Turns.underway_of_concat hji hj)
      refine ⟨hname, ⟨next, ?_⟩, hfield.imp (·.of_still h.tidy hstill) ?_⟩
      · rw [Turns.run_concat, Turns.program_step_of_ne hji, hnext]
      · rintro ⟨k, hk, hmeet, hreturned⟩
        exact ⟨k, hk, hmeet.append _, hreturned.append _⟩

theorem StoredType.eq {ty' : Option FieldType} (h : StoredType s className name ty?)
    (h' : StoredType s className name ty') : ty? = ty' := by
  obtain ⟨schema, hschema, hty⟩ := h
  obtain ⟨schema', hschema', hty'⟩ := h'
  obtain rfl := Option.some.inj (Except.ok.inj (hschema.symm.trans hschema'))
  exact hty.symm.trans hty'

/-- **What a declaration does after it has looked**: it fails, or finds its type stored, or goes
on to store it where no type is. -/
theorem declaring_cases (h : Tidy className s) (name : String) (ty : FieldType) :
    let answer :=
      (s.run (.find collection { filter := .byId className, limit := some 1 } none)).outcome
    (∃ e, declaring className name ty answer = .done (.error e)) ∨
      (∃ schema, declaring className name ty answer = .done (.ok schema) ∧
        StoredType s className name (some ty)) ∨
      ∃ next, declaring className name ty answer = storing className name ty next ∧
        isIdentifier name = true ∧ StoredType s className name none := by
  intro answer
  cases hfind : answer with
  | error e => exact .inl ⟨e, rfl⟩
  | ok records =>
    obtain ⟨rfl, -⟩ | ⟨r, rfl, hloaded⟩ := loaded_of_find h hfind
    · exact .inl ⟨_, rfl⟩
    rw [← recorded_eq_loaded h.keyed] at hloaded
    dsimp only [declaring]
    cases hread : ofRecord r with
    | error e => exact .inl ⟨e, rfl⟩
    | ok schema =>
      rw [hread] at hloaded
      by_cases hty : schema.fieldType? name = some ty
      · exact .inr (.inl ⟨schema, if_pos hty, schema, hloaded, hty⟩)
      dsimp only
      rw [if_neg hty]
      cases hadd : schema.addField name ty with
      | error e => exact .inl ⟨e, rfl⟩
      | ok next =>
        obtain ⟨hname, ⟨hsome, -⟩ | ⟨hnone, -⟩⟩ := ClassSchema.addField_eq_ok hadd
        · exact absurd hsome hty
        · exact .inr (.inr ⟨next, rfl, hname, schema, hloaded, hnone⟩)

/-- A declaration that looks for the class. -/
theorem Course.look (h : Course className d w schedule) (hi : i ∉ schedule) :
    Course className d w (schedule ++ [i]) := by
  have hstep := (Turns.run_concat (declarers className d w) schedule i).trans
    (Turns.step_of_ask (program_of_notMem hi))
  have hprogram : ((declarers className d w).run (schedule ++ [i])).program i =
      declaring className (d i).field (d i).ty
        (((declarers className d w).run schedule).world.store.run
          (.find collection { filter := .byId className, limit := some 1 } none)).outcome := by
    rw [hstep]
    exact Function.update_self ..
  have hcases := declaring_cases h.tidy (d i).field (d i).ty
  refine h.of_still ?_ ?_ ?_
  · rw [hstep]
    exact still_of_sameContent (Store.sameContent_find _ _ _ _)
  · rintro ⟨schema, hdone⟩
    rw [hprogram] at hdone
    rcases hcases with ⟨e, he⟩ | ⟨schema', -, hstored⟩ | ⟨next, hnext, -⟩
    · exact nomatch he.symm.trans hdone
    · exact hstored
    · exact nomatch hnext.symm.trans hdone
  · rintro ⟨-, hnot⟩
    rw [hprogram] at hnot ⊢
    rcases hcases with ⟨e, he⟩ | ⟨schema, hschema, -⟩ | ⟨next, hnext, hname, hfree⟩
    · exact absurd he (hnot _)
    · exact absurd hschema (hnot _)
    · exact ⟨hname, ⟨next, hnext⟩, hfree⟩

/-- **What the store shows after a type is stored**: the field has the type, and the others have
the types they had. -/
theorem storedType_of_update (h : Tidy className s) (hname : isIdentifier name = true)
    (hrecorded : ∃ schema, recorded s className = .ok (some schema)) {n : Nat}
    (hupdate : (s.run (.update collection (.byId className) (typeEdit name ty) none)).outcome =
      .ok n) :
    let t := (s.run (.update collection (.byId className) (typeEdit name ty) none)).store
    Tidy className t ∧ StoredType t className name (some ty) ∧
      ∀ key ty?, key ≠ name → StoredType s className key ty? → StoredType t className key ty? := by
  intro t
  obtain ⟨schema, hschema⟩ := hrecorded
  obtain ⟨htidy, next, hnext, htypes⟩ :=
    tidy_of_update h hname ((recorded_eq_loaded h.keyed className).symm.trans hschema) hupdate
  rw [← recorded_eq_loaded htidy.keyed] at hnext
  refine ⟨htidy, ⟨next, hnext, (htypes _).trans (if_pos rfl)⟩, fun key ty? hkey hstored => ?_⟩
  obtain ⟨read, hread, hty⟩ := hstored
  obtain rfl := Option.some.inj (Except.ok.inj (hschema.symm.trans hread))
  exact ⟨next, hnext, (htypes _).trans ((if_neg hkey).trans hty)⟩

/-- The class is there for a declaration that is underway. -/
theorem Course.exists_recorded (h : Course className d w schedule)
    (hi : (declarers className d w).Underway schedule i) : ∃ schema,
      recorded ((declarers className d w).run schedule).world.store className =
        .ok (some schema) := by
  obtain ⟨-, -, ⟨schema, hschema, -⟩ | ⟨j, -, -, hj⟩⟩ := h.underway i hi
  · exact ⟨schema, hschema⟩
  · obtain ⟨schema, hschema, -⟩ := h.returned j hj
    exact ⟨schema, hschema⟩

/-- **Those that have taken the field before** have declared it with the same type, unless
declarations cross. -/
theorem Course.ty_eq (h : Course className d w schedule)
    (hcrossing : ¬Crossing className d w (schedule ++ [i]))
    (hi : (declarers className d w).Underway schedule i)
    (hreturned : Returned ((declarers className d w).run (schedule ++ [i])) i)
    (hk : Returned ((declarers className d w).run schedule) k)
    (hfield : (d k).field = (d i).field) : (d k).ty = (d i).ty := by
  have hstored := h.returned k hk
  rw [hfield] at hstored
  obtain ⟨-, -, hfree | ⟨j, hj, hmeet, hjreturned⟩⟩ := h.underway i hi
  · exact absurd (hfree.eq hstored) (by simp)
  · have hjstored := h.returned j hjreturned
    rw [hj] at hjstored
    have hjk : (d j).ty = (d k).ty := Option.some.inj (hjstored.eq hstored)
    by_contra hne
    exact hcrossing ⟨i, j, hj.symm, fun he => hne (hjk.symm.trans he.symm), hmeet.append _,
      hreturned, hjreturned.append _⟩

/-- **A declaration that stores its type**, where no declarations cross. -/
theorem Course.store (h : Course className d w schedule)
    (hcrossing : ¬Crossing className d w (schedule ++ [i]))
    (hi : (declarers className d w).Underway schedule i) :
    Course className d w (schedule ++ [i]) := by
  obtain ⟨hname, ⟨next, hprogram⟩, -⟩ := h.underway i hi
  have hstep := (Turns.run_concat (declarers className d w) schedule i).trans
    (Turns.step_of_ask hprogram)
  set before := ((declarers className d w).run schedule).world.store
  have hafter : ((declarers className d w).run (schedule ++ [i])).program i =
      .done ((before.run (.update collection (.byId className)
        (typeEdit (d i).field (d i).ty) none)).outcome.map fun _ => next) := by
    rw [hstep]
    exact Function.update_self ..
  have hdone (h : (declarers className d w).Underway (schedule ++ [i]) i) : False := h.2 _ hafter
  have hstore : ((declarers className d w).run (schedule ++ [i])).world.store =
      (before.run (.update collection (.byId className)
        (typeEdit (d i).field (d i).ty) none)).store := by
    rw [hstep]
    rfl
  cases hupdate : (before.run (.update collection (.byId className)
      (typeEdit (d i).field (d i).ty) none)).outcome with
  | error e =>
    rw [hupdate] at hafter
    refine h.of_still (hstore ▸ still_of_sameContent (Store.run_error hupdate)) ?_ fun h =>
      (hdone h).elim
    rintro ⟨schema, hschema⟩
    exact nomatch hafter.symm.trans hschema
  | ok n =>
    rw [hupdate] at hafter
    have hreturned : Returned ((declarers className d w).run (schedule ++ [i])) i :=
      ⟨next, hafter⟩
    obtain ⟨htidy, htaken, hkept⟩ :=
      storedType_of_update h.tidy hname (h.exists_recorded hi) hupdate
    rw [← hstore] at htidy htaken hkept
    refine ⟨htidy, fun k hk => ?_, fun k hk => ?_⟩
    · by_cases hki : k = i
      · subst hki
        exact htaken
      have hk := returned_of_concat hki hk
      by_cases hfield : (d k).field = (d i).field
      · rw [hfield, h.ty_eq hcrossing hi hreturned hk hfield]
        exact htaken
      · exact hkept _ _ hfield (h.returned k hk)
    · by_cases hki : k = i
      · subst hki
        exact (hdone hk).elim
      have hkbefore := Turns.underway_of_concat hki hk
      obtain ⟨hkname, ⟨knext, hkprogram⟩, hkfree⟩ := h.underway k hkbefore
      refine ⟨hkname, ⟨knext, ?_⟩, ?_⟩
      · rw [Turns.run_concat, Turns.program_step_of_ne hki, hkprogram]
      by_cases hfield : (d k).field = (d i).field
      · exact .inr ⟨i, hfield.symm, ⟨schedule, List.prefix_append _ _, hkbefore, hi⟩, hreturned⟩
      · refine hkfree.imp (hkept _ _ hfield) ?_
        rintro ⟨j, hj, hmeet, hjreturned⟩
        exact ⟨j, hj, hmeet.append _, hjreturned.append _⟩

/-- **One turn**, where no declarations cross. -/
theorem Course.step (h : Course className d w schedule)
    (hcrossing : ¬Crossing className d w (schedule ++ [i])) :
    Course className d w (schedule ++ [i]) := by
  by_cases hi : i ∈ schedule
  · by_cases hdone : ∃ a, ((declarers className d w).run schedule).program i = .done a
    · obtain ⟨a, hdone⟩ := hdone
      have hstep := (Turns.run_concat (declarers className d w) schedule i).trans
        (Turns.step_of_done hdone)
      refine h.of_still (hstep ▸ Still.refl _) (fun hreturned => ?_) fun hunderway => ?_
      · exact h.returned i (hstep ▸ hreturned)
      · exact absurd (hstep ▸ hdone) (hunderway.2 a)
    · exact h.store hcrossing ⟨hi, fun a ha => hdone ⟨a, ha⟩⟩
  · exact h.look hi

/-- **A whole run**, where no declarations cross. -/
theorem course (htidy : Tidy className w.store) (hcrossing : ¬Crossing className d w schedule) :
    Course className d w schedule := by
  induction schedule using List.reverseRec with
  | nil => exact course_nil htidy
  | append_singleton schedule i ih => exact (ih fun h => hcrossing (h.append _)).step hcrossing

/-- **Declarations are settled exactly if none cross.** Let any number of declarations on one class
take turns in any order, over any store in which the record of the class can be told by its name,
with any faults due. Once a declaration has returned, no declaration of its field with another type
has returned, then or later, and the stored type of the field is the declared one from then on; and
so it is for all of them, if and only if no two of them declare a field with different types, are
underway at the same time, and both return. -/
theorem settled_iff_not_crossing (htidy : Tidy className w.store) (schedule : List ι) :
    Settled className d w schedule ↔ ¬Crossing className d w schedule := by
  constructor
  · rintro hsettled ⟨i, j, hfield, hty, -, hi, hj⟩
    obtain ⟨hothers, -⟩ := hsettled schedule [] (by simp) i hi
    exact hothers j hfield.symm (Ne.symm hty) (by simpa using hj)
  · intro hcrossing earlier later hinitial i hi
    obtain ⟨rest, rfl⟩ := hinitial
    have hcourse := course htidy fun h => hcrossing (h.append rest)
    have hstored := hcourse.returned i (hi.append later)
    refine ⟨fun j hfield hty hj => hty ?_, hstored⟩
    have hstored' := hcourse.returned j hj
    rw [hfield] at hstored'
    exact Option.some.inj (hstored'.eq hstored)

end

/-- The class of notes is there. -/
def noted : World where
  store := { collections := [(collection, { records := [("N", toRecord note)] })] }

theorem tidy_noted : Tidy "N" noted.store := by
  have hstores := stores_toRecord regular_note.storable
  refine tidy_of_stores ⟨List.pairwise_singleton _ _, fun id r hmem d hd => ?_⟩ rfl hstores
  obtain ⟨rfl, rfl⟩ := Prod.mk.inj (List.mem_singleton.1 hmem)
  exact Option.some.inj (hd.symm.trans hstores.id)

/-- All declare one field to be a text, except for one who declares it to be a number. -/
def numberBy {ι : Type} [DecidableEq ι] (i j : ι) : Declaration :=
  ⟨"f", if j = i then .number else .string⟩

/-- Two declare a text at once, and a number is declared afterwards. -/
theorem settled_iff_not_crossing_noted :
    Tidy "N" noted.store ∧ Settled "N" (numberBy (2 : Fin 3)) noted [0, 1, 0, 1, 2] := by
  refine ⟨tidy_noted, (settled_iff_not_crossing tidy_noted _).2 ?_⟩
  rintro ⟨i, j, -, hty, -, hi, hj⟩
  have hrefused :
      ¬Returned ((declarers "N" (numberBy (2 : Fin 3)) noted).run [0, 1, 0, 1, 2]) 2 := by
    decide +kernel
  have hstring (k : Fin 3)
      (hk : Returned ((declarers "N" (numberBy (2 : Fin 3)) noted).run [0, 1, 0, 1, 2]) k) :
      (numberBy 2 k).ty = .string :=
    if_neg fun he : k = 2 => hrefused (he ▸ hk)
  exact hty ((hstring i hi).trans (hstring j hj).symm)

/-- **Declarations of one field with different types may both return**: each looks for the field
before the other stores its type. -/
theorem not_settled_crossing :
    ¬∀ (d : Bool → Declaration) (w : World) (schedule : List Bool), Tidy "N" w.store →
      Settled "N" d w schedule := by
  intro h
  have hstring :
      Returned ((declarers "N" (numberBy true) noted).run [false, true, false]) false := by
    decide +kernel
  have hnumber :
      Returned ((declarers "N" (numberBy true) noted).run [false, true, false, true]) true := by
    decide +kernel
  obtain ⟨hothers, -⟩ := h (numberBy true) noted [false, true, false, true] tidy_noted
    [false, true, false] [true] (List.prefix_refl _) false hstring
  exact hothers true rfl (by decide) hnumber

end Catalog

end ObjectEngine
