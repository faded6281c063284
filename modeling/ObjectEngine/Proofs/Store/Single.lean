import ObjectEngine.Proofs.Store.Lockstep

/-!
# Calls about one record

A write without a session that concerns one record of a collection changes that record and nothing
else (`Store.Touches`): an insertion under a free id (`Store.Quiet.run_insert_free`), an update of
the only match, a removal. All of this is said of a store where no fault is due and of a collection
without unique indexes, so that no other record has a say.

Where the records of a collection have their ids for members (`Store.Named`), a predicate on the id
finds the record of that id and no other (`Store.Named.matchingIds`).
-/

namespace ObjectEngine

namespace Store

variable {s t : Store} {name id : String} {r : Record}

/-! ### What a call touches -/

/-- **Only one record changes**: what is under the id of a collection afterwards. -/
structure Touches (name id : String) (s : Store) (r? : Option Record) (t : Store) : Prop where
  faults : t.faults = s.faults
  other (n : String) : n ≠ name → t.collection n = s.collection n
  indexes : (t.collection name).indexes = (s.collection name).indexes
  sorted : (s.collection name).records.Sorted → (t.collection name).records.Sorted
  record? : t.record? name id = r?
  others (k : String) : k ≠ id → t.record? name k = s.record? name k

/-- A call that leaves the content touches nothing. -/
theorem Touches.of_collection (hfaults : t.faults = s.faults)
    (h : ∀ n, t.collection n = s.collection n) (name id : String) :
    Touches name id s (s.record? name id) t where
  faults := hfaults
  other n _ := h n
  indexes := by rw [h]
  sorted hs := by rwa [h]
  record? := by rw [Store.record?, h, Store.record?]
  others k _ := by rw [Store.record?, h, Store.record?]

/-- The records of a collection are replaced. -/
theorem Touches.setCollection {records : Members Record}
    (hfaults : t.faults = s.faults)
    (h : ∀ n, t.collection n = s.collection n)
    (hsorted : (s.collection name).records.Sorted → records.Sorted)
    (hothers : ∀ k, k ≠ id → records.lookup k = (s.collection name).records.lookup k) :
    Touches name id s (records.lookup id)
      (t.setCollection name { s.collection name with records }) where
  faults := hfaults
  other n hn := by rw [collection_setCollection, if_neg hn, h]
  indexes := by rw [collection_setCollection, if_pos rfl]
  sorted hs := by
    rw [collection_setCollection, if_pos rfl]
    exact hsorted hs
  record? := by rw [Store.record?, collection_setCollection, if_pos rfl]
  others k hk := by
    rw [Store.record?, collection_setCollection, if_pos rfl, Store.record?]
    exact hothers k hk

/-- A record is put under an id. -/
theorem Touches.insert (hfaults : t.faults = s.faults) (h : ∀ n, t.collection n = s.collection n)
    (name id : String) (r : Record) :
    Touches name id s (some r) (t.setCollection name { s.collection name with
      records := Members.insert id r (s.collection name).records }) := by
  have hlookup (k : String) : (Members.insert id r (s.collection name).records).lookup k =
      if k = id then some r else (s.collection name).records.lookup k := Members.lookup_insert ..
  have htouches : Touches name id s ((Members.insert id r (s.collection name).records).lookup id)
      (t.setCollection name { s.collection name with
        records := Members.insert id r (s.collection name).records }) :=
    .setCollection hfaults h (fun hsorted => Members.sorted_insert hsorted _ _) fun k hk =>
      (hlookup k).trans (if_neg hk)
  rwa [hlookup, if_pos rfl] at htouches

/-- The record of an id is taken out. -/
theorem Touches.erase (hfaults : t.faults = s.faults) (h : ∀ n, t.collection n = s.collection n)
    (name id : String) :
    Touches name id s none (t.setCollection name { s.collection name with
      records := Members.erase id (s.collection name).records }) := by
  have hlookup (k : String) : (Members.erase id (s.collection name).records).lookup k =
      if k = id then none else (s.collection name).records.lookup k := Members.lookup_erase ..
  have htouches : Touches name id s ((Members.erase id (s.collection name).records).lookup id)
      (t.setCollection name { s.collection name with
        records := Members.erase id (s.collection name).records }) :=
    .setCollection hfaults h (fun hsorted => Members.sorted_erase hsorted _) fun k hk =>
      (hlookup k).trans (if_neg hk)
  rwa [hlookup, if_pos rfl] at htouches

theorem Touches.congr {s s' : Store} {r? : Option Record} (h : Touches name id s r? t)
    (hfaults : s.faults = s'.faults) (hcollection : ∀ n, s.collection n = s'.collection n) :
    Touches name id s' r? t where
  faults := h.faults.trans hfaults
  other n hn := (h.other n hn).trans (hcollection n)
  indexes := by rw [h.indexes, hcollection]
  sorted hs := h.sorted (by rwa [hcollection])
  record? := h.record?
  others k hk := by rw [h.others k hk, Store.record?, hcollection, Store.record?]

theorem Touches.trans {u : Store} {r? r'? : Option Record} (h : Touches name id s r? t)
    (h' : Touches name id t r'? u) : Touches name id s r'? u where
  faults := h'.faults.trans h.faults
  other n hn := (h'.other n hn).trans (h.other n hn)
  indexes := h'.indexes.trans h.indexes
  sorted hs := h'.sorted (h.sorted hs)
  record? := h'.record?
  others k hk := (h'.others k hk).trans (h.others k hk)

/-- What a call touches it has touched when a query has been made since. -/
theorem Touches.rests {u : Store} {r? : Option Record} (h : Touches name id s r? t)
    (hu : Rests t u) : Touches name id s r? u :=
  h.record? ▸ h.trans (.of_collection hu.faults hu.collection name id)

/-- No index of a collection has unique keys. -/
def Unrestricted (c : Collection) : Prop := ∀ i ∈ Members.values c.indexes, i.unique = false

theorem checkUnique_of_unrestricted {c : Collection} (h : Unrestricted c) (name : String)
    (r : Record) : checkUnique name c r = .ok () := by
  have hnone : (Members.values c.indexes).find? (fun i => i.unique && clashes c i r) = none :=
    List.find?_eq_none.2 fun i hi => by simp [h i hi]
  rw [checkUnique, hnone]

/-! ### Writes of one record -/

/-- **A record is put in** under a free id. -/
theorem run_insertRecord_free (hs : Unrestricted (s.collection name))
    (hfree : s.record? name id = none) (operation : String) (r : Record) :
    ∃ t, (insertRecord operation name none id r).run s = (.ok ⟨⟩, t) ∧
      Touches name id s (some r) t := by
  have hadmission : admission name (s.collection name) id r = .ok () := by
    have hlookup : (s.collection name).records.lookup id = none := hfree
    rw [admission, hlookup]
    exact checkUnique_of_unrestricted hs name r
  rw [run_insertRecord, hadmission]
  exact ⟨_, rfl, .insert (s := s) (t := s.setCollection name (s.collection name)) rfl
    (collection_setCollection_self s name) name id r⟩

/-- An id that is taken is refused. -/
theorem run_insertRecord_taken {r' : Record} (htaken : s.record? name id = some r')
    (operation : String) (r : Record) :
    ∃ t, (insertRecord operation name none id r).run s = (.error (duplicateKey name "_id_"), t) ∧
      Touches name id s (some r') t := by
  have hadmission : admission name (s.collection name) id r =
      .error (duplicateKey name "_id_") := by
    have hlookup : (s.collection name).records.lookup id = some r' := htaken
    rw [admission, hlookup]
    rfl
  rw [run_insertRecord, hadmission]
  refine ⟨_, rfl, ?_⟩
  rw [← htaken]
  refine .of_collection ?_ ?_ name id
  · rfl
  · exact collection_setCollection_self s name

/-- **One record is rewritten.** -/
theorem run_updateIds_one (hs : Unrestricted (s.collection name))
    (hrecord : s.record? name id = some r) (operation : String) {edit : Edit} {r' : Record}
    (hedit : edit.apply false r = .ok r') :
    ∃ t, (updateIds operation name edit none [id]).run s = (.ok [r'], t) ∧
      Touches name id s (some r') t := by
  have hstage : stage name (s.collection name) edit [id] = .ok [(id, r, r')] := by
    have hlookup : (s.collection name).records.lookup id = some r := hrecord
    rw [stage, hlookup]
    simp only [hedit, checkUnique_of_unrestricted hs, stage]
    rfl
  have hfound : [id].filterMap (fun id => (putAll [(id, r, r')]
      (s.collection name).records).lookup id) = [r'] := by
    have hput : (putAll [(id, r, r')] (s.collection name).records).lookup id = some r' :=
      (Members.lookup_insert ..).trans (if_pos rfl)
    rw [List.filterMap_cons, hput]
    rfl
  rw [run_updateIds, hstage]
  exact ⟨_, Prod.ext (congrArg Except.ok hfound) rfl,
    .insert (s := s) (t := s.setCollection name (s.collection name)) rfl
      (collection_setCollection_self s name) name id r'⟩

theorem run_updateIds_nil (s : Store) (operation name : String) (edit : Edit) (id : String) :
    ∃ t, (updateIds operation name edit none []).run s = (.ok [], t) ∧
      Touches name id s (s.record? name id) t := by
  rw [run_updateIds, stage]
  refine ⟨_, rfl, ?_⟩
  exact Touches.setCollection (t := s.setCollection name (s.collection name)) rfl
    (collection_setCollection_self s name) (fun hsorted => hsorted) fun _ _ => rfl

/-- An update that does not fit changes nothing. -/
theorem run_updateIds_error (hrecord : s.record? name id = some r) (operation : String)
    {edit : Edit} {e : EngineError} (hedit : edit.apply false r = .error e) :
    ∃ t, (updateIds operation name edit none [id]).run s = (.error e, t) ∧
      Touches name id s (some r) t := by
  have hstage : stage name (s.collection name) edit [id] = .error e := by
    have hlookup : (s.collection name).records.lookup id = some r := hrecord
    rw [stage, hlookup]
    simp only [hedit]
    rfl
  rw [run_updateIds, hstage]
  refine ⟨_, rfl, ?_⟩
  rw [← hrecord]
  refine .of_collection ?_ ?_ name id
  · rfl
  · exact collection_setCollection_self s name

/-- **One record is removed.** -/
theorem run_deleteIds_one (hrecord : s.record? name id = some r) :
    ∃ t, (deleteIds name none [id]).run s = (.ok 1, t) ∧ Touches name id s none t := by
  obtain ⟨t, hrests, -, hrun⟩ := run_deleteIds_rests name none [id] s
  have hpresent : present (s.collection name).records [id] = [(id, r)] := by
    have hlookup : (s.collection name).records.lookup id = some r := hrecord
    rw [present, List.filterMap_cons, hlookup]
    rfl
  rw [hpresent, loggedAll_none] at hrun
  refine ⟨t, hrun, ?_⟩
  have htouches := Touches.erase (s := s) (t := s) rfl (fun _ => rfl) name id
  exact
    { faults := hrests.faults.trans htouches.faults
      other := fun n hn => (hrests.collection n).trans (htouches.other n hn)
      indexes := by rw [hrests.collection]; exact htouches.indexes
      sorted := fun hsorted => by rw [hrests.collection]; exact htouches.sorted hsorted
      record? := by rw [record?, hrests.collection]; exact htouches.record?
      others := fun k hk => by rw [record?, hrests.collection]; exact htouches.others k hk }

/-! ### Calls -/

/-- A call that is performed after it was recorded. -/
theorem Quiet.run_touches (h : s.Quiet) {c : Call} {outcome : Outcome c.Answer}
    {r? : Option Record}
    (hperform : ∃ t, (perform c).run (s.noted c.operation c.collection c.session?) = (outcome, t) ∧
      Touches name id (s.noted c.operation c.collection c.session?) r? t) :
    (s.run c).outcome = outcome ∧ Touches name id s r? (s.run c).store := by
  obtain ⟨t, hrun, htouches⟩ := hperform
  obtain ⟨houtcome, hstore⟩ := h.run_eq hrun
  rw [houtcome, hstore]
  exact ⟨rfl, htouches.congr rfl fun _ => rfl⟩

theorem Quiet.run_insert_free (h : s.Quiet) (hs : Unrestricted (s.collection name))
    (hid : r.id? = some id) (hfree : s.record? name id = none) :
    (s.run (.insert name r none)).outcome = .ok () ∧
      Touches name id s (some r) (s.run (.insert name r none)).store := by
  obtain ⟨t, hrun, htouches⟩ : ∃ t,
      (insertRecord "insert" name none id r).run (s.noted "insert" name none) = (.ok ⟨⟩, t) ∧
        Touches name id (s.noted "insert" name none) (some r) t :=
    run_insertRecord_free (s := s.noted "insert" name none) hs hfree "insert" r
  refine h.run_touches (c := .insert name r none) ⟨t, ?_, htouches⟩
  dsimp only [perform, Call.Answer]
  rw [run_bind, checkSession]
  simp only [run_pure, run_bind, hid, Outcome.ofOption, run_finish]
  exact hrun

theorem Quiet.run_insert_taken (h : s.Quiet) (hid : r.id? = some id) {r' : Record}
    (htaken : s.record? name id = some r') :
    (s.run (.insert name r none)).outcome = .error (duplicateKey name "_id_") ∧
      Touches name id s (some r') (s.run (.insert name r none)).store := by
  obtain ⟨t, hrun, htouches⟩ : ∃ t,
      (insertRecord "insert" name none id r).run (s.noted "insert" name none) =
          (.error (duplicateKey name "_id_"), t) ∧
        Touches name id (s.noted "insert" name none) (some r') t :=
    run_insertRecord_taken (s := s.noted "insert" name none) htaken "insert" r
  refine h.run_touches (c := .insert name r none) ⟨t, ?_, htouches⟩
  dsimp only [perform, Call.Answer]
  rw [run_bind, checkSession]
  simp only [run_pure, run_bind, hid, Outcome.ofOption, run_finish]
  exact hrun

variable {p : Predicate} {edit : Edit}

/-- The work of an update is that of its ids. -/
theorem perform_update {ids : List String}
    (hids : matchingIds false p (s.collection name).records = .ok ids) :
    (perform (.update name p edit none)).run s =
      match (updateIds "update" name edit none ids).run s with
      | (.ok rs, t) => (.ok (rs.length : Nat), t)
      | (.error e, t) => (.error e, t) := by
  dsimp only [perform, Call.Answer]
  rw [run_bind, checkSession]
  simp only [run_pure, run_bind, run_get, run_finish, hids]
  rcases (updateIds "update" name edit none ids).run s with ⟨_ | _, _⟩ <;> rfl

theorem Quiet.run_update_none (h : s.Quiet)
    (hids : matchingIds false p (s.collection name).records = .ok []) (id : String) :
    (s.run (.update name p edit none)).outcome = .ok (0 : Nat) ∧
      Touches name id s (s.record? name id) (s.run (.update name p edit none)).store := by
  obtain ⟨t, hrun, htouches⟩ := run_updateIds_nil (s.noted "update" name none) "update" name
    edit id
  refine h.run_touches (c := .update name p edit none) ⟨t, ?_, htouches⟩
  exact (perform_update (s := s.noted "update" name none) hids).trans (by rw [hrun]; rfl)

theorem Quiet.run_update_one (h : s.Quiet) (hs : Unrestricted (s.collection name))
    (hids : matchingIds false p (s.collection name).records = .ok [id])
    (hrecord : s.record? name id = some r) {r' : Record} (hedit : edit.apply false r = .ok r') :
    (s.run (.update name p edit none)).outcome = .ok (1 : Nat) ∧
      Touches name id s (some r') (s.run (.update name p edit none)).store := by
  obtain ⟨t, hrun, htouches⟩ : ∃ t,
      (updateIds "update" name edit none [id]).run (s.noted "update" name none) = (.ok [r'], t) ∧
        Touches name id (s.noted "update" name none) (some r') t :=
    run_updateIds_one (s := s.noted "update" name none) hs hrecord "update" hedit
  refine h.run_touches (c := .update name p edit none) ⟨t, ?_, htouches⟩
  exact (perform_update (s := s.noted "update" name none) hids).trans (by rw [hrun]; rfl)

theorem Quiet.run_update_error (h : s.Quiet)
    (hids : matchingIds false p (s.collection name).records = .ok [id])
    (hrecord : s.record? name id = some r) {e : EngineError}
    (hedit : edit.apply false r = .error e) :
    (s.run (.update name p edit none)).outcome = .error e ∧
      Touches name id s (some r) (s.run (.update name p edit none)).store := by
  obtain ⟨t, hrun, htouches⟩ : ∃ t,
      (updateIds "update" name edit none [id]).run (s.noted "update" name none) = (.error e, t) ∧
        Touches name id (s.noted "update" name none) (some r) t :=
    run_updateIds_error (s := s.noted "update" name none) hrecord "update" hedit
  refine h.run_touches (c := .update name p edit none) ⟨t, ?_, htouches⟩
  exact (perform_update (s := s.noted "update" name none) hids).trans (by rw [hrun])

/-- The work of a removal is that of its ids. -/
theorem perform_delete {ids : List String}
    (hids : matchingIds false p (s.collection name).records = .ok ids) :
    (perform (.delete name p none)).run s = (deleteIds name none ids).run s := by
  dsimp only [perform, Call.Answer]
  rw [run_bind, checkSession]
  simp only [run_pure, run_bind, run_get, run_finish, hids]

theorem Quiet.run_delete_none (h : s.Quiet)
    (hids : matchingIds false p (s.collection name).records = .ok []) (id : String) :
    (s.run (.delete name p none)).outcome = .ok (0 : Nat) ∧
      Touches name id s (s.record? name id) (s.run (.delete name p none)).store := by
  obtain ⟨t, hrests, -, hrun⟩ := run_deleteIds_rests name none [] (s.noted "delete" name none)
  refine h.run_touches (c := .delete name p none) ⟨t, ?_, ?_⟩
  · exact (perform_delete (s := s.noted "delete" name none) hids).trans
      (hrun.trans (by rw [loggedAll_none]; rfl))
  · refine Touches.of_collection (s := s.noted "delete" name none) hrests.faults (fun n => ?_)
      name id
    exact (hrests.collection n).trans (collection_setCollection_self _ name n)

theorem Quiet.run_delete_one (h : s.Quiet)
    (hids : matchingIds false p (s.collection name).records = .ok [id])
    (hrecord : s.record? name id = some r) :
    (s.run (.delete name p none)).outcome = .ok (1 : Nat) ∧
      Touches name id s none (s.run (.delete name p none)).store := by
  obtain ⟨t, hrun, htouches⟩ : ∃ t,
      (deleteIds name none [id]).run (s.noted "delete" name none) = (.ok 1, t) ∧
        Touches name id (s.noted "delete" name none) none t := run_deleteIds_one hrecord
  refine h.run_touches (c := .delete name p none) ⟨t, ?_, htouches⟩
  exact (perform_delete (s := s.noted "delete" name none) hids).trans hrun

/-! ### Records that have their ids -/

/-- **The id member of every record**, if it has one, is the id under which the record is. -/
def Named (records : Members Record) : Prop :=
  ∀ id r, (id, r) ∈ records → ∀ d, r.lookup Record.idKey = some d → d = .string id

/-- The record of an id, unless its id member is missing. -/
def named? (records : Members Record) (id : String) : Option Record :=
  (records.lookup id).filter fun r => (r.lookup Record.idKey).isSome

/-- A predicate on the id holds where the id member is the id. -/
theorem eval_byId {key : String} (hr : ∀ d, r.lookup Record.idKey = some d → d = .string key) :
    ((Predicate.byId id).eval none r).1 =
      .ok (decide (key = id ∧ (r.lookup Record.idKey).isSome)) := by
  have hholds : ∃ b, ((Predicate.byId id).eval none r).1 = .ok b := ⟨_, rfl⟩
  obtain ⟨b, hb⟩ := hholds
  have hiff : b = true ↔ key = id ∧ (r.lookup Record.idKey).isSome := by
    have hkey : Text.split '.' Record.idKey = [Record.idKey] := rfl
    have hread := Predicate.eval_key_eq hkey (c := none) (r := r) (s := id)
    rw [show ((Predicate.field Record.idKey (.eq (.string id))).eval none r).1 = .ok b from hb,
      Except.ok.injEq] at hread
    rw [hread]
    constructor
    · rintro ⟨d, hd, hnames⟩
      obtain rfl := hr d hd
      exact ⟨hnames, by rw [hd]; rfl⟩
    · rintro ⟨rfl, hsome⟩
      obtain ⟨d, hd⟩ := Option.isSome_iff_exists.1 hsome
      obtain rfl := hr d hd
      exact ⟨_, hd, rfl⟩
  rw [hb]
  exact congrArg Except.ok (Bool.eq_iff_iff.2 (by simpa using hiff))

variable {records : Members Record}

/-- The keys increase, so that the id of a record is not met again. -/
theorem lookup_of_head (hsorted : Members.Sorted ((id, r) :: records)) :
    records.lookup id = none :=
  Members.lookup_eq_none fun m hm he => String.lt_irrefl _
    (he ▸ (List.pairwise_cons.1 hsorted).1 m hm)

theorem named?_cons {key : String} (hsorted : Members.Sorted ((key, r) :: records)) :
    named? ((key, r) :: records) id =
      if key = id ∧ (r.lookup Record.idKey).isSome then some r else named? records id := by
  unfold named?
  rw [Members.lookup_cons]
  by_cases hid : id = key
  · subst hid
    rw [if_pos rfl, lookup_of_head hsorted]
    cases hr : (r.lookup Record.idKey).isSome <;> simp [Option.filter, hr]
  · rw [if_neg hid, if_neg fun h => hid h.1.symm]

/-- **The ids found by an id** are that one, if its record has it. -/
theorem matchingIds_byId (hsorted : records.Sorted) (hnamed : Named records) (firstOnly : Bool)
    (id : String) : matchingIds firstOnly (.byId id) records =
      .ok ((named? records id).map fun _ => id).toList := by
  induction records with
  | nil => rfl
  | cons m rest ih =>
    obtain ⟨key, r⟩ := m
    have hrest := ih (List.pairwise_cons.1 hsorted).2 fun id r h =>
      hnamed id r (List.mem_cons_of_mem _ h)
    rw [matchingIds, eval_byId (hnamed key r List.mem_cons_self), named?_cons hsorted]
    by_cases hfound : key = id ∧ (r.lookup Record.idKey).isSome
    · have hnone : named? rest id = none := by
        rw [named?, lookup_of_head (hfound.1 ▸ hsorted)]
        rfl
      rw [hnone] at hrest
      rw [if_pos hfound, decide_eq_true hfound, hrest]
      cases firstOnly
      · simp [bind, Except.bind, pure, Except.pure, hfound.1]
      · simp [bind, Except.bind, pure, Except.pure, hfound.1]
    · rw [if_neg hfound, decide_eq_false hfound, hrest]
      rfl

/-- **The record found by an id** is that of the id, if it has it. -/
theorem filterRecords_byId (hsorted : records.Sorted) (hnamed : Named records) (id : String) :
    (filterRecords none (.byId id) (Members.values records)).1 =
      .ok (named? records id).toList := by
  induction records with
  | nil => rfl
  | cons m rest ih =>
    obtain ⟨key, r⟩ := m
    have hrest := ih (List.pairwise_cons.1 hsorted).2 fun id r h =>
      hnamed id r (List.mem_cons_of_mem _ h)
    have heval : ((Predicate.byId id).eval none r).1 =
        .ok (decide (key = id ∧ (r.lookup Record.idKey).isSome)) :=
      eval_byId (hnamed key r List.mem_cons_self)
    rw [Members.values] at hrest ⊢
    rw [List.map_cons, filterRecords, named?_cons hsorted]
    rcases hb : (Predicate.byId id).eval none r with ⟨b, delay⟩
    rw [hb] at heval
    simp only at heval
    subst heval
    simp only [hrest, Except.map]
    by_cases hfound : key = id ∧ (r.lookup Record.idKey).isSome
    · have hnone : named? rest id = none := by
        rw [named?, lookup_of_head (hfound.1 ▸ hsorted)]
        rfl
      rw [if_pos hfound, if_pos (decide_eq_true hfound), hnone]
      rfl
    · rw [if_neg hfound, if_neg (by simpa using hfound)]

/-- **A query for an id** finds the record of the id, if it has it. -/
theorem query_byId (hsorted : (s.collection name).records.Sorted)
    (hnamed : Named (s.collection name).records) (id : String) :
    (s.query name { filter := .byId id, limit := some 1 }).1 =
      .ok (named? (s.collection name).records id).toList := by
  simp only [query, filterRecords_byId hsorted hnamed]
  cases named? (s.collection name).records id <;> rfl

/-- **A record is looked for by its id.** -/
theorem Quiet.run_find_byId (h : s.Quiet) (hsorted : (s.collection name).records.Sorted)
    (hnamed : Named (s.collection name).records) (id : String) :
    (s.run (.find name { filter := .byId id, limit := some 1 } none)).outcome =
        .ok (named? (s.collection name).records id).toList ∧
      Rests s (s.run (.find name { filter := .byId id, limit := some 1 } none)).store := by
  obtain ⟨houtcome, hrests⟩ := h.run_find name { filter := .byId id, limit := some 1 } none
  refine ⟨houtcome.trans ?_, hrests⟩
  rw [underLimit, query_byId hsorted hnamed]
  rfl

end Store

end ObjectEngine
