import ObjectEngine.Proofs.Store.Changes

/-!
# What a call does to a store

A call that fails changes no record, no index and no session (`Store.run_error`). A call that
succeeds changes what `Store.collectionAfter` and `Store.sessionsAfter` say (`Store.run_ok`).

The work of a call is a sequence of small steps. Those that write come first, each with what it
writes (`Store.Written`); then every call is followed through its steps (`Store.performs`).
-/

namespace ObjectEngine

namespace Store

/-! ### The work of a write -/

/-- **A call begins** by being recorded, or fails for a fault that is due. -/
theorem run_begin_cases (s : Store) (operation name : String) (session : Option SessionId) :
    (begin operation name session).run s = (.ok ⟨⟩, s.noted operation name session) ∨
      ∃ e t, (begin operation name session).run s = (.error e, t) ∧ SameContent s t := by
  rw [run_begin]
  cases dueFault? operation s.faults with
  | none => exact .inl rfl
  | some due => exact .inr ⟨_, _, rfl, fun _ => rfl, rfl, rfl⟩

/-- A change as the store makes it: it knows the record it changes, and the record it puts in
has been checked against the collection as it was. -/
structure Change.Admitted (name : String) (c : Collection) (w : Change) : Prop where
  before : c.records.lookup w.id = w.before
  check (r : Record) : w.after = some r → checkUnique name c r = .ok ()

/-- The store in which some records of a collection have been changed and logged. -/
structure Written (s : Store) (name : String) (session : Option SessionId) (ws : List Change)
    (t : Store) : Prop where
  collection (n : String) :
    t.collection n = if n = name then changed ws (s.collection n) else s.collection n
  sessions : t.sessions = (s.loggedAll session (ws.map (Change.undo name))).sessions
  nextSession : t.nextSession = s.nextSession
  admitted (w : Change) : w ∈ ws → w.Admitted name (s.collection name)

/-- What is written after the same content was written there before. -/
theorem written_loggedAll {s t : Store} (h : SameContent s t) (name : String)
    (session : Option SessionId) (ws : List Change) (c : Collection)
    (hc : c = changed ws (s.collection name)) (entries : List UndoEntry)
    (hentries : entries = ws.map (Change.undo name))
    (hadmitted : ∀ w ∈ ws, w.Admitted name (s.collection name)) :
    Written s name session ws ((t.setCollection name c).loggedAll session entries) where
  collection n := by
    rw [collection_congr (loggedAll_collections _ _ _), collection_setCollection, hc,
      h.collection]
    split
    case isTrue hn => rw [hn]
    case isFalse => rfl
  sessions := by
    rw [hentries]
    exact loggedAll_sessions_congr (show (t.setCollection name c).sessions = s.sessions from
      h.sessions) _ _
  nextSession := by
    rw [loggedAll_nextSession]
    exact h.nextSession
  admitted := hadmitted

/-- The changes of an update, once it is staged. -/
theorem rewrites_eq {s : Store} {name : String} {firstOnly : Bool} {filter : Predicate}
    {edit : Edit} {ids : List String} {staged : List (String × Record × Record)}
    (hids : matchingIds firstOnly filter (s.collection name).records = .ok ids)
    (hstage : stage name (s.collection name) edit ids = .ok staged) :
    s.rewrites name firstOnly filter edit = staged.map fun w => ⟨w.1, some w.2.1, some w.2.2⟩ := by
  simp only [rewrites, hids, hstage, bind, Except.bind]

/-- Two changes of one record by an update agree. -/
theorem rewrites_agree {s : Store} {name : String} {firstOnly : Bool} {filter : Predicate}
    {edit : Edit} {w w' : Change} (hw : w ∈ s.rewrites name firstOnly filter edit)
    (hw' : w' ∈ s.rewrites name firstOnly filter edit) (hid : w.id = w'.id) :
    w.after = w'.after := by
  obtain ⟨current, next, hw, hlookup, -, hnext, -⟩ := mem_rewrites hw
  obtain ⟨current', next', hw', hlookup', -, hnext', -⟩ := mem_rewrites hw'
  obtain rfl : current = current' := by
    rw [hid] at hlookup
    exact Option.some.inj (hlookup.symm.trans hlookup')
  rw [hw, hw']
  exact congrArg some (Except.ok.inj (hnext.symm.trans hnext'))

theorem admitted_of_mem_rewrites {s : Store} {name : String} {firstOnly : Bool}
    {filter : Predicate} {edit : Edit} {w : Change}
    (hw : w ∈ s.rewrites name firstOnly filter edit) : w.Admitted name (s.collection name) := by
  obtain ⟨current, next, hw, hlookup, -, -, hcheck⟩ := mem_rewrites hw
  refine ⟨by rw [hlookup, hw], fun r hr => ?_⟩
  obtain rfl : next = r := by
    rw [hw] at hr
    exact Option.some.inj hr
  exact hcheck

/-- **The changes of a call** are none, one new record, rewritten records or removals. -/
theorem changes_cases (s : Store) (call : Call) :
    s.changes call = [] ∨
    (∃ id r, s.changes call = [⟨id, none, some r⟩]) ∨
    (∃ firstOnly filter edit,
      s.changes call = s.rewrites call.collection firstOnly filter edit) ∨
    ∃ ids, s.changes call = removals (s.collection call.collection).records ids := by
  cases call with
  | insert name record session =>
    cases hid : record.id? with
    | none => exact .inl (by simp [changes, hid])
    | some id => exact .inr (.inl ⟨id, record, by simp [changes, hid]⟩)
  | update name filter edit session => exact .inr (.inr (.inl ⟨_, _, _, rfl⟩))
  | findAndUpdate name filter edit session => exact .inr (.inr (.inl ⟨_, _, _, rfl⟩))
  | upsert name filter edit session =>
    simp only [changes]
    split
    · rw [insertion]
      split
      · exact .inr (.inl ⟨_, _, rfl⟩)
      · exact .inl rfl
    · exact .inr (.inr (.inl ⟨_, _, _, rfl⟩))
  | delete name filter session =>
    simp only [changes]
    split
    · exact .inr (.inr (.inr ⟨_, rfl⟩))
    · exact .inl rfl
  | _ => exact .inl rfl

/-- Two changes of one record by a call agree. -/
theorem changes_agree {s : Store} {call : Call} {w w' : Change} (hw : w ∈ s.changes call)
    (hw' : w' ∈ s.changes call) (hid : w.id = w'.id) : w.after = w'.after := by
  rcases changes_cases s call with h | ⟨id, r, h⟩ | ⟨firstOnly, filter, edit, h⟩ | ⟨ids, h⟩ <;>
    rw [h] at hw hw'
  · exact absurd hw List.not_mem_nil
  · rw [List.mem_singleton.1 hw, List.mem_singleton.1 hw']
  · exact rewrites_agree hw hw' hid
  · obtain ⟨v, -, rfl⟩ := List.mem_map.1 hw
    obtain ⟨v', -, rfl⟩ := List.mem_map.1 hw'
    rfl

/-- **A record found by an update** is one that it has written. -/
theorem lookup_rewritten {s : Store} {name : String} {firstOnly : Bool} {filter : Predicate}
    {edit : Edit} {ids : List String} {staged : List (String × Record × Record)}
    (hids : matchingIds firstOnly filter (s.collection name).records = .ok ids)
    (hstage : stage name (s.collection name) edit ids = .ok staged) {id : String} (hid : id ∈ ids) :
    ∃ w ∈ s.rewrites name firstOnly filter edit, ∃ r, w.after = some r ∧
      (applyChanges (s.rewrites name firstOnly filter edit)
        (s.collection name).records).lookup id = some r := by
  obtain ⟨r, hr, -⟩ := mem_matchingIds hids hid
  obtain ⟨current, hcurrent⟩ : ∃ current, (s.collection name).records.lookup id = some current := by
    refine Option.ne_none_iff_exists'.1 fun hnone => ?_
    simpa using List.lookup_eq_none_iff.1 hnone _ hr
  obtain ⟨next, hnext⟩ := exists_mem_stage hstage hid hcurrent
  have hmem : ⟨id, some current, some next⟩ ∈ s.rewrites name firstOnly filter edit := by
    rw [rewrites_eq hids hstage]
    exact List.mem_map.2 ⟨_, hnext, rfl⟩
  exact ⟨_, hmem, next, rfl, lookup_applyChanges (fun w hw w' hw' => rewrites_agree hw hw') hmem _⟩

/-- **An update rewrites all of its records or none**, and answers the new ones. -/
theorem run_updateIds_cases (s : Store) (operation name : String) (firstOnly : Bool)
    (filter : Predicate) (edit : Edit) (session : Option SessionId) {ids : List String}
    (hids : matchingIds firstOnly filter (s.collection name).records = .ok ids) :
    (∃ e t, (updateIds operation name edit session ids).run s = (.error e, t) ∧
      SameContent s t) ∨
    ∃ rs t, (updateIds operation name edit session ids).run s = (.ok rs, t) ∧
      (∀ r ∈ rs, ∃ w ∈ s.rewrites name firstOnly filter edit, w.after = some r) ∧
      (ids ≠ [] → rs ≠ []) ∧
      Written s name session (s.rewrites name firstOnly filter edit) t := by
  rw [run_updateIds]
  cases hstage : stage name (s.collection name) edit ids with
  | error e =>
    exact .inl ⟨e, _, rfl, (sameContent_setCollection_self s name).failed operation e⟩
  | ok staged =>
    -- the records that are written and the changes that are logged are the staged ones
    have hrecords : putAll staged (s.collection name).records =
        applyChanges (s.rewrites name firstOnly filter edit) (s.collection name).records := by
      rw [rewrites_eq hids hstage]
      simp only [putAll, applyChanges, List.foldl_map]
      rfl
    have hanswer {id : String} (hid : id ∈ ids) :
        ∃ w ∈ s.rewrites name firstOnly filter edit, ∃ r, w.after = some r ∧
          (putAll staged (s.collection name).records).lookup id = some r :=
      hrecords ▸ lookup_rewritten hids hstage hid
    refine .inr ⟨_, _, rfl, fun r hr => ?_, fun hne hnil => ?_, ?_⟩
    · obtain ⟨id, hid, hr⟩ := List.mem_filterMap.1 hr
      obtain ⟨w, hw, r', hafter, hlookup⟩ := hanswer hid
      exact ⟨w, hw, hafter.trans (hlookup.symm.trans hr)⟩
    · obtain ⟨id, hid⟩ := List.exists_mem_of_ne_nil _ hne
      obtain ⟨w, hw, r, -, hlookup⟩ := hanswer hid
      simpa [hlookup] using List.filterMap_eq_nil_iff.1 hnil id hid
    · refine written_loggedAll (sameContent_setCollection_self s name) name session _ _
        (by rw [hrecords, changed]) _ ?_ fun w hw => admitted_of_mem_rewrites hw
      rw [rewrites_eq hids hstage, List.map_map]
      rfl

/-- **An insertion puts its record in or changes nothing.** -/
theorem run_insertRecord_cases {s t : Store} (h : SameContent s t) (operation name : String)
    (session : Option SessionId) (id : String) (record : Record) :
    (∃ e u, (insertRecord operation name session id record).run t = (.error e, u) ∧
      SameContent s u) ∨
    ∃ u, (insertRecord operation name session id record).run t = (.ok ⟨⟩, u) ∧
      Written s name session [⟨id, none, some record⟩] u := by
  rw [run_insertRecord]
  cases hadmission : admission name (t.collection name) id record with
  | error e =>
    exact .inl ⟨e, _, rfl, (h.trans (sameContent_setCollection_self t name)).failed operation e⟩
  | ok u =>
    refine .inr ⟨_, rfl, ?_⟩
    refine written_loggedAll (h.trans (sameContent_setCollection_self t name)) name session _ _
      ?_ [⟨name, id, none, none⟩] rfl fun w hw => ?_
    · rw [h.collection]
      rfl
    · obtain rfl := List.mem_singleton.1 hw
      rw [h.collection] at hadmission
      cases hfree : (s.collection name).records.lookup id with
      | some taken => simp [admission, hfree] at hadmission
      | none =>
        refine ⟨hfree, fun r hr => ?_⟩
        obtain rfl : record = r := Option.some.inj hr
        simpa [admission, hfree] using hadmission

/-- **An insertion by a predicate** puts the record it describes in or changes nothing. -/
theorem run_insertSeed_cases (s : Store) (name : String) (filter : Predicate) (edit : Edit)
    (session : Option SessionId) :
    (∃ e t, (insertSeed name filter edit session).run s = (.error e, t) ∧ SameContent s t) ∨
    ∃ out t, (insertSeed name filter edit session).run s = (.ok out, t) ∧
      (∃ w ∈ s.insertion filter edit, w.after = some out.record) ∧
      Written s name session (s.insertion filter edit) t := by
  simp only [insertSeed, insertion, run_bind, run_finish]
  cases edit.apply true filter.seed with
  | error e => exact .inl ⟨e, _, rfl, (SameContent.refl s).failed _ _⟩
  | ok record =>
    cases hid : record.id? with
    | some id =>
      have hnew : s.identified record = (id, record) := by simp [identified, hid]
      rcases run_insertRecord_cases (SameContent.refl s) "upsert" name session id record with
        ⟨e, t, hrun, hsame⟩ | ⟨t, hrun, hwritten⟩
      · refine .inl ⟨e, t, ?_, hsame⟩
        simp only [hid, run_bind, run_pure, hrun]
      · refine .inr ⟨{ matched := 0, id := some id, record }, t, ?_, ?_, ?_⟩
        · simp only [hid, run_bind, run_pure, hrun]
        · exact ⟨_, List.mem_singleton_self _, by rw [hnew]⟩
        · simp only [hnew]
          exact hwritten
    | none =>
      -- the store makes up an id, and counts it even if the insertion fails then
      have hnew : s.identified record = (freshText s.nextId,
          Members.insert Record.idKey (.string (freshText s.nextId)) record) := by
        simp [identified, hid]
      have hsame : SameContent s { s with nextId := s.nextId + 1 } := ⟨fun _ => rfl, rfl, rfl⟩
      rcases run_insertRecord_cases hsame "upsert" name session (freshText s.nextId)
          (Members.insert Record.idKey (.string (freshText s.nextId)) record) with
        ⟨e, t, hrun, hsame⟩ | ⟨t, hrun, hwritten⟩
      · refine .inl ⟨e, t, ?_, hsame⟩
        simp only [hid, run_bind, run_pure, run_freshId, hrun]
      · refine .inr ⟨⟨0, some (freshText s.nextId), _⟩, t, ?_,
          ⟨_, List.mem_singleton_self _, congrArg (some ·.2) hnew⟩, ?_⟩
        · simp only [hid, run_bind, run_pure, run_freshId, hrun]
        · simp only [hnew]
          exact hwritten

/-- Removing an id that is not bound changes nothing. -/
theorem erase_of_lookup_none {records : Members Record} {id : String}
    (h : records.lookup id = none) : Members.erase id records = records := by
  refine List.filter_eq_self.2 fun m hm => ?_
  have hne : id ≠ m.1 := by simpa using List.lookup_eq_none_iff.1 h m hm
  simpa using hne.symm

/-- Removing some ids removes their records. -/
theorem foldl_erase (records : Members Record) (ids : List String) :
    ids.foldl (fun records id => Members.erase id records) records =
      applyChanges (removals records ids) records := by
  -- the records are read once, before the first removal: ids that are free stay so
  suffices ∀ later : Members Record,
      (∀ id, records.lookup id = none → later.lookup id = none) →
      ids.foldl (fun records id => Members.erase id records) later =
        applyChanges (removals records ids) later from this records fun _ h => h
  induction ids with
  | nil => exact fun _ _ => rfl
  | cons id ids ih =>
    intro later hfree
    have hnext : ∀ k, records.lookup k = none → (Members.erase id later).lookup k = none := by
      intro k hk
      rw [Members.lookup_erase, hfree k hk, ite_self]
    rw [List.foldl_cons, ih _ hnext]
    cases hid : records.lookup id with
    | none =>
      rw [erase_of_lookup_none (hfree id hid)]
      simp [removals, present, hid]
    | some r => simp [removals, present, hid, applyChanges, Change.applyTo]

theorem mem_present {records : Members Record} {ids : List String} {v : String × Record}
    (h : v ∈ present records ids) : records.lookup v.1 = some v.2 := by
  obtain ⟨id, -, hid⟩ := List.mem_filterMap.1 h
  obtain ⟨r, hr, rfl⟩ := Option.map_eq_some_iff.1 hid
  exact hr

/-- **A removal takes away the records of its ids.** -/
theorem run_deleteIds_cases (s : Store) (name : String) (session : Option SessionId)
    (ids : List String) :
    ∃ n t, (deleteIds name session ids).run s = (.ok n, t) ∧
      Written s name session (removals (s.collection name).records ids) t := by
  rw [run_deleteIds]
  cases hc : s.collection? name with
  | none =>
    have hempty : s.collection name = {} := by simp [collection, hc]
    have hnone : removals (s.collection name).records ids = [] := by
      simp [removals, present, hempty]
    rw [hnone]
    refine ⟨0, s, rfl, ⟨fun n => ?_, rfl, rfl, fun w hw => absurd hw List.not_mem_nil⟩⟩
    split
    case isTrue => rfl
    case isFalse => rfl
  | some c =>
    obtain rfl : s.collection name = c := by simp [collection, hc]
    refine ⟨_, _, rfl, written_loggedAll (SameContent.refl s) name session _ _ ?_ _ ?_ ?_⟩
    · rw [foldl_erase, changed]
    · rw [removals, List.map_map]
      rfl
    · intro w hw
      obtain ⟨v, hv, rfl⟩ := List.mem_map.1 hw
      exact ⟨mem_present hv, fun r hr => absurd hr (by simp)⟩

/-! ### Each call -/

/-- **What is known of a call that answers**: of a query, the records that it finds; of an
update, that it answers a record which it has written; of an index, that it was checked; of a
session, that its number is the next. -/
def Answers (s : Store) : (call : Call) → call.Answer → Prop
  | .find name sel _, rs => (s.query name sel).1 = .ok rs
  | .startSession, id => id = ⟨s.nextSession⟩
  | .createIndex name index, _ =>
    (s.collection name).indexes.lookup index.name = none → index.unique = true →
      hasDuplicateKeys index (Members.values (s.collection name).records) = false
  | .findAndUpdate name filter edit session, r? =>
    ∀ r, r? = some r → ∃ w ∈ s.changes (.findAndUpdate name filter edit session), w.after = some r
  | .upsert name filter edit session, out =>
    ∃ w ∈ s.changes (.upsert name filter edit session), w.after = some out.record
  | _, _ => True

/-- What has been done when a call succeeds. -/
structure Done (s : Store) (call : Call) (a : call.Answer) (t : Store) : Prop where
  answers : s.Answers call a
  collection (n : String) : t.collection n = s.collectionAfter call n
  sessions : t.sessions = s.sessionsAfter call
  nextSession : t.nextSession = s.nextSessionAfter call
  admitted (w : Change) :
    w ∈ s.changes call → w.Admitted call.collection (s.collection call.collection)

/-- What the work of a call comes to: a failure that changed nothing, or an answer to what the
call had to do. -/
def Performs (s : Store) (call : Call) (r : Outcome call.Answer × Store) : Prop :=
  match r.1 with
  | .error _ => SameContent s r.2
  | .ok a => Done s call a r.2

/-- Work that starts with a check of the session. -/
theorem run_checkSession_bind {α : Type} {s : Store} (session : Option SessionId)
    {work : Work α} {P : Outcome α × Store → Prop} (herror : ∀ e, P (.error e, s))
    (hwork : P (work.run s)) : P ((do checkSession session; work).run s) := by
  rw [run_bind]
  rcases run_checkSession session s with h | ⟨e, h⟩
  · rw [h]
    exact hwork
  · rw [h]
    exact herror e

/-- A collection stays as it is if the changes are none. -/
theorem ite_changed_nil (p : Prop) [Decidable p] (c : Collection) :
    (if p then changed [] c else c) = c :=
  ite_self _

/-- An answer under a time limit is the answer without one. -/
theorem underLimit_eq_ok {α : Type} {limit : Option Nat} {work : Outcome α × Nat} {a : α}
    (h : (underLimit limit work).1 = .ok a) : work.1 = .ok a := by
  obtain ⟨outcome, delay⟩ := work
  cases outcome with
  | error e => exact absurd h (by simp [underLimit])
  | ok b =>
    cases limit with
    | none => simpa [underLimit] using h
    | some ms =>
      by_cases hlate : delay > ms
      · exact absurd h (by simp [underLimit, hlate])
      · simpa [underLimit, hlate] using h

/-- A call without changes. -/
theorem admitted_of_nil {s : Store} {call : Call} (h : s.changes call = []) (w : Change)
    (hw : w ∈ s.changes call) : w.Admitted call.collection (s.collection call.collection) := by
  rw [h] at hw
  exact absurd hw List.not_mem_nil

/-- A call that writes its changes. -/
theorem Done.of_written {s t : Store} {call : Call} {a : call.Answer}
    (hwritten : Written s call.collection call.session? (s.changes call) t)
    (hanswers : s.Answers call a)
    (hafter : ∀ n, s.collectionAfter call n =
      if n = call.collection then changed (s.changes call) (s.collection n) else s.collection n)
    (hsessions : s.sessionsAfter call = (s.loggedAll call.session?
      ((s.changes call).map (Change.undo call.collection))).sessions)
    (hnext : s.nextSessionAfter call = s.nextSession) : Done s call a t where
  answers := hanswers
  collection n := (hwritten.collection n).trans (hafter n).symm
  sessions := hwritten.sessions.trans hsessions.symm
  nextSession := hwritten.nextSession.trans hnext.symm
  admitted := hwritten.admitted

/-- A call that leaves the records alone. -/
theorem Done.of_unchanged {s t : Store} {call : Call} {a : call.Answer}
    (hanswers : s.Answers call a) (hchanges : s.changes call = [])
    (hafter : ∀ n, s.collectionAfter call n =
      if n = call.collection then changed (s.changes call) (s.collection n) else s.collection n)
    (hcollection : ∀ n, t.collection n = s.collection n)
    (hsessions : t.sessions = s.sessionsAfter call)
    (hnext : t.nextSession = s.nextSessionAfter call) : Done s call a t where
  answers := hanswers
  collection n := by rw [hcollection, hafter, hchanges, ite_changed_nil]
  sessions := hsessions
  nextSession := hnext
  admitted := admitted_of_nil hchanges

theorem performs_find (s : Store) (name : String) (sel : Selection)
    (session : Option SessionId) :
    Performs s (.find name sel session)
      (ExceptT.run (α := List Record) (perform (.find name sel session)) s) := by
  dsimp only [perform, Call.Answer]
  simp only [run_bind, run_get, run_finish]
  cases h : (underLimit sel.maxTimeMs (s.query name sel)).1 with
  | error e => exact (SameContent.refl s).failed _ _
  | ok rs =>
    exact .of_unchanged (underLimit_eq_ok h) rfl (fun _ => rfl) (fun _ => rfl) rfl rfl

theorem performs_insert (s : Store) (name : String) (record : Record)
    (session : Option SessionId) :
    Performs s (.insert name record session)
      (ExceptT.run (α := Unit) (perform (.insert name record session)) s) := by
  refine run_checkSession_bind session (fun e => SameContent.refl s) ?_
  rw [run_bind, run_finish]
  cases hid : record.id? with
  | none => exact (SameContent.refl s).failed _ _
  | some id =>
    have hchanges : s.changes (.insert name record session) = [⟨id, none, some record⟩] := by
      simp [changes, hid]
    simp only [Outcome.ofOption]
    rcases run_insertRecord_cases (SameContent.refl s) "insert" name session id record with
      ⟨e, t, hrun, hsame⟩ | ⟨t, hrun, hwritten⟩
    · rw [hrun]
      exact hsame
    · rw [hrun]
      rw [← hchanges] at hwritten
      exact .of_written hwritten trivial (fun _ => rfl) rfl rfl

theorem performs_update (s : Store) (name : String) (filter : Predicate) (edit : Edit)
    (session : Option SessionId) :
    Performs s (.update name filter edit session)
      (ExceptT.run (α := Nat) (perform (.update name filter edit session)) s) := by
  refine run_checkSession_bind session (fun e => SameContent.refl s) ?_
  simp only [run_bind, run_get, run_finish]
  cases hids : matchingIds false filter (s.collection name).records with
  | error e => exact (SameContent.refl s).failed _ _
  | ok ids =>
    rcases run_updateIds_cases s "update" name false filter edit session hids with
      ⟨e, t, hrun, hsame⟩ | ⟨rs, t, hrun, -, -, hwritten⟩
    · simp only [hrun]
      exact hsame
    · simp only [hrun]
      exact .of_written hwritten trivial (fun _ => rfl) rfl rfl

theorem performs_findAndUpdate (s : Store) (name : String) (filter : Predicate) (edit : Edit)
    (session : Option SessionId) :
    Performs s (.findAndUpdate name filter edit session)
      (ExceptT.run (α := Option Record) (perform (.findAndUpdate name filter edit session)) s) := by
  refine run_checkSession_bind session (fun e => SameContent.refl s) ?_
  simp only [run_bind, run_get, run_finish]
  cases hids : matchingIds true filter (s.collection name).records with
  | error e => exact (SameContent.refl s).failed _ _
  | ok ids =>
    rcases run_updateIds_cases s "findAndModify" name true filter edit session hids with
      ⟨e, t, hrun, hsame⟩ | ⟨rs, t, hrun, hanswers, -, hwritten⟩
    · simp only [hrun]
      exact hsame
    · simp only [hrun]
      exact .of_written hwritten (fun r hr => hanswers r (List.mem_of_head? hr)) (fun _ => rfl)
        rfl rfl

theorem performs_upsert (s : Store) (name : String) (filter : Predicate) (edit : Edit)
    (session : Option SessionId) :
    Performs s (.upsert name filter edit session)
      (ExceptT.run (α := Upserted) (perform (.upsert name filter edit session)) s) := by
  refine run_checkSession_bind session (fun e => SameContent.refl s) ?_
  dsimp only [Call.Answer]
  simp only [run_bind, run_get, run_finish]
  cases hids : matchingIds true filter (s.collection name).records with
  | error e => exact (SameContent.refl s).failed _ _
  | ok ids =>
    cases ids with
    | nil =>
      have hchanges : s.changes (.upsert name filter edit session) = s.insertion filter edit := by
        simp only [changes, hids]
      rcases run_insertSeed_cases s name filter edit session with
        ⟨e, t, hrun, hsame⟩ | ⟨out, t, hrun, hanswer, hwritten⟩
      · simp only [List.isEmpty_nil, if_true, hrun]
        exact hsame
      · simp only [List.isEmpty_nil, if_true, hrun]
        rw [← hchanges] at hanswer hwritten
        exact .of_written hwritten hanswer (fun _ => rfl) rfl rfl
    | cons id ids =>
      have hchanges : s.changes (.upsert name filter edit session) =
          s.rewrites name true filter edit := by
        simp only [changes, hids]
      rcases run_updateIds_cases s "upsert" name true filter edit session hids with
        ⟨e, t, hrun, hsame⟩ | ⟨rs, t, hrun, hanswers, hne, hwritten⟩
      · simp only [List.isEmpty_cons, Bool.false_eq_true, if_false, run_bind, hrun]
        exact hsame
      · simp only [List.isEmpty_cons, Bool.false_eq_true, if_false, run_bind, hrun]
        rw [← hchanges] at hanswers hwritten
        refine .of_written hwritten ?_ (fun _ => rfl) rfl rfl
        obtain ⟨r, rs, rfl⟩ := List.exists_cons_of_ne_nil (hne (List.cons_ne_nil _ _))
        exact hanswers r List.mem_cons_self

theorem performs_delete (s : Store) (name : String) (filter : Predicate)
    (session : Option SessionId) :
    Performs s (.delete name filter session)
      (ExceptT.run (α := Nat) (perform (.delete name filter session)) s) := by
  refine run_checkSession_bind session (fun e => SameContent.refl s) ?_
  simp only [run_bind, run_get, run_finish]
  cases hids : matchingIds false filter (s.collection name).records with
  | error e => exact (SameContent.refl s).failed _ _
  | ok ids =>
    have hchanges : s.changes (.delete name filter session) =
        removals (s.collection name).records ids := by
      simp only [changes, hids]
    obtain ⟨n, t, hrun, hwritten⟩ := run_deleteIds_cases s name session ids
    simp only [hrun]
    rw [← hchanges] at hwritten
    exact .of_written hwritten trivial (fun _ => rfl) rfl rfl

theorem performs_drop (s : Store) (name : String) :
    Performs s (.drop name) (ExceptT.run (α := Bool) (perform (.drop name)) s) := by
  refine ⟨trivial, fun n => ?_, rfl, rfl, admitted_of_nil rfl⟩
  change (Option.getD (List.lookup n (Members.erase name s.collections)) {} : Collection) = _
  simp only [Members.lookup_erase, collectionAfter]
  split <;> rfl

theorem performs_createIndex (s : Store) (name : String) (index : StoreIndex) :
    Performs s (.createIndex name index)
      (ExceptT.run (α := Unit) (perform (.createIndex name index)) s) := by
  have hsame := sameContent_setCollection_self s name
  dsimp only [perform, Call.Answer]
  simp only [run_bind, run_get, run_modify]
  cases hold : (s.collection name).indexes.lookup index.name with
  | some existing =>
    simp only [run_finish]
    -- an index with that name is there: the same is accepted, another one refused
    split
    · refine ⟨fun hnone => ?_, fun n => ?_, hsame.sessions, hsame.nextSession, admitted_of_nil rfl⟩
      · rw [hold] at hnone
        exact absurd hnone (by simp)
      rw [hsame.collection]
      simp only [collectionAfter]
      split
      case isTrue h => exact absurd (h.1 ▸ h.2) (by simp [hold])
      case isFalse => rfl
    · exact hsame.failed _ _
  | none =>
    simp only [run_bind, run_finish]
    cases hcheck : index.unique &&
      hasDuplicateKeys index (Members.values (s.collection name).records) with
    | true => exact hsame.failed _ _
    | false =>
      refine ⟨fun _ hunique => ?_, fun n => ?_, rfl, rfl, admitted_of_nil rfl⟩
      · rw [hunique, Bool.true_and] at hcheck
        exact hcheck
      change Store.collection (Store.setCollection _ _ _) n = _
      rw [collection_setCollection, hsame.collection]
      simp only [collectionAfter]
      by_cases h : n = name
      · simp [h, hold]
      · simp [h]

theorem performs_dropIndex (s : Store) (name index : String) :
    Performs s (.dropIndex name index)
      (ExceptT.run (α := Unit) (perform (.dropIndex name index)) s) := by
  dsimp only [perform, Call.Answer]
  simp only [run_bind, run_get]
  cases hc : s.collection? name with
  | none => exact (SameContent.refl s).failed _ _
  | some c =>
    obtain rfl : s.collection name = c := by simp [collection, hc]
    simp only [run_ite, run_modify, run_finish]
    split
    · refine ⟨trivial, fun n => ?_, rfl, rfl, admitted_of_nil rfl⟩
      change Store.collection (Store.setCollection _ _ _) n = _
      rw [collection_setCollection]
      simp only [collectionAfter]
      split
      case isTrue h => rw [h]
      case isFalse => rfl
    · exact (SameContent.refl s).failed _ _

theorem performs_startSession (s : Store) :
    Performs s .startSession (ExceptT.run (α := SessionId) (perform .startSession) s) :=
  .of_unchanged rfl rfl (fun _ => rfl) (fun _ => rfl) rfl rfl

theorem performs_startTransaction (s : Store) (id : SessionId) :
    Performs s (.startTransaction id)
      (ExceptT.run (α := Unit) (perform (.startTransaction id)) s) := by
  dsimp only [perform, Call.Answer]
  simp only [run_bind, run_get]
  cases hid : s.session? id with
  | none => exact SameContent.refl s
  | some state =>
    cases hopen : state.inTransaction with
    | true =>
      simp only [hopen, if_true]
      exact SameContent.refl s
    | false =>
      simp only [hopen, Bool.false_eq_true, if_false]
      exact .of_unchanged trivial rfl (fun _ => rfl) (fun _ => rfl) rfl rfl

/-- Setting a session that is not active changes nothing. -/
theorem setSession_of_none {s : Store} {id : SessionId} (h : s.session? id = none)
    (session : Session) : s.setSession id session = s := by
  have hne : ∀ entry ∈ s.sessions, entry.1 ≠ id := by simpa [session?] using h
  have hmap : (s.sessions.map fun entry => if entry.1 = id then (id, session) else entry) =
      s.sessions :=
    (List.map_congr_left fun entry hentry => if_neg (hne entry hentry)).trans (List.map_id' _)
  simp only [setSession, hmap]

theorem performs_commit (s : Store) (id : SessionId) :
    Performs s (.commit id) (ExceptT.run (α := Unit) (perform (.commit id)) s) := by
  dsimp only [perform, Call.Answer]
  rw [run_modify]
  cases hid : s.session? id with
  | none =>
    refine .of_unchanged trivial rfl (fun _ => rfl) (fun _ => rfl) ?_ rfl
    simp only [sessionsAfter, setSession_of_none hid]
    rfl
  | some state =>
    exact .of_unchanged trivial rfl (fun _ => rfl) (fun _ => rfl) rfl rfl

/-- A collection after some writes have been reverted. -/
theorem collection_foldl_reverted (entries : List UndoEntry) (s : Store) (n : String) :
    (entries.foldl reverted s).collection n = revertAll n entries (s.collection n) := by
  unfold revertAll
  induction entries generalizing s with
  | nil => rfl
  | cons entry entries ih =>
    rw [List.foldl_cons, List.foldl_cons, ih, reverted, collection_setCollection]
    by_cases h : n = entry.collection
    · simp [h]
    · simp [h, Ne.symm h]

/-- To revert writes leaves the sessions as they are. -/
theorem foldl_reverted_sessions (entries : List UndoEntry) (s : Store) :
    (entries.foldl reverted s).sessions = s.sessions ∧
      (entries.foldl reverted s).nextSession = s.nextSession := by
  induction entries generalizing s with
  | nil => exact ⟨rfl, rfl⟩
  | cons entry entries ih => exact ih (reverted s entry)

theorem performs_abort (s : Store) (id : SessionId) :
    Performs s (.abort id) (ExceptT.run (α := Unit) (perform (.abort id)) s) := by
  dsimp only [perform, Call.Answer]
  rw [run_rollBack]
  cases hid : s.session? id with
  | none =>
    refine ⟨trivial, fun n => ?_, ?_, rfl, admitted_of_nil rfl⟩
    · simp only [collectionAfter, rolledBack, hid]
      rfl
    · simp only [sessionsAfter, setSession_of_none hid]
  | some state =>
    obtain ⟨hsessions, hnext⟩ := foldl_reverted_sessions state.undo (s.setSession id {})
    refine ⟨trivial, fun n => ?_, hsessions, hnext, admitted_of_nil rfl⟩
    rw [collection_foldl_reverted]
    simp only [collectionAfter, rolledBack, hid]
    rfl

/-- A session that has ended leaves no trace of what it was set to. -/
theorem filter_setSession (s : Store) (id : SessionId) (session : Session) :
    ((s.setSession id session).sessions.filter fun entry => entry.1 ≠ id) =
      s.sessions.filter fun entry => entry.1 ≠ id := by
  simp only [setSession]
  induction s.sessions with
  | nil => rfl
  | cons entry entries ih =>
    by_cases h : entry.1 = id
    · simpa [h] using ih
    · simpa [h] using ih

theorem performs_endSession (s : Store) (id : SessionId) :
    Performs s (.endSession id) (ExceptT.run (α := Unit) (perform (.endSession id)) s) := by
  dsimp only [perform, Call.Answer]
  simp only [run_bind, run_get]
  cases hid : s.session? id with
  | none =>
    refine ⟨trivial, fun n => ?_, rfl, rfl, admitted_of_nil rfl⟩
    simp only [collectionAfter, rolledBack, hid]
    rfl
  | some state =>
    cases hopen : state.inTransaction with
    | false =>
      simp only [Option.any_some, hopen, Bool.false_eq_true, if_false]
      refine ⟨trivial, fun n => ?_, rfl, rfl, admitted_of_nil rfl⟩
      simp only [collectionAfter, rolledBack, hid, Option.filter_some, hopen, Bool.false_eq_true,
        if_false]
      rfl
    | true =>
      simp only [Option.any_some, hopen, if_true, run_bind]
      -- what is open is aborted by a call of its own, for which a fault may be due
      rcases run_begin_cases s "abortTransaction" "" (some id) with hbegin | ⟨e, t, hbegin, hsame⟩
      · rw [hbegin]
        have hnoted : (s.noted "abortTransaction" "" (some id)).session? id = some state := hid
        simp only [run_rollBack, hnoted, run_modify]
        obtain ⟨hsessions, hnext⟩ := foldl_reverted_sessions state.undo
          ((s.noted "abortTransaction" "" (some id)).setSession id {})
        refine ⟨trivial, fun n => ?_, ?_, hnext, admitted_of_nil rfl⟩
        · change Store.collection (state.undo.foldl reverted _) n = _
          rw [collection_foldl_reverted]
          simp only [collectionAfter, rolledBack, hid, Option.filter_some, hopen, if_true]
          rfl
        · change List.filter _ (Store.sessions (state.undo.foldl reverted _)) = _
          rw [hsessions]
          exact filter_setSession s id {}
      · rw [hbegin]
        exact hsame

/-- **The work of a call** fails and changes nothing, or does what the call has to do. -/
theorem performs (s : Store) (call : Call) : Performs s call ((perform call).run s) := by
  cases call with
  | connect uri =>
    exact .of_unchanged trivial rfl (fun _ => rfl) (fun _ => rfl) rfl rfl
  | close =>
    change Performs s .close (ExceptT.run (α := Unit) (perform .close) s)
    dsimp only [perform, Call.Answer]
    cases hconnected : s.connected with
    | false =>
      simp only [run_bind, run_get, hconnected, Bool.false_eq_true, if_false]
      exact .of_unchanged trivial rfl (fun _ => rfl) (fun _ => rfl) rfl rfl
    | true =>
      simp only [run_bind, run_get, hconnected, if_true, run_modify]
      exact .of_unchanged trivial rfl (fun _ => rfl) (fun _ => rfl) rfl rfl
  | find name sel session => exact performs_find s name sel session
  | count name filter limit session =>
    change Performs s (.count name filter limit session)
      (ExceptT.run (α := Nat) (perform (.count name filter limit session)) s)
    dsimp only [perform, Call.Answer]
    simp only [run_bind, run_get, run_finish]
    split
    · exact .of_unchanged trivial rfl (fun _ => rfl) (fun _ => rfl) rfl rfl
    · exact (SameContent.refl s).failed _ _
  | insert name record session => exact performs_insert s name record session
  | update name filter edit session => exact performs_update s name filter edit session
  | findAndUpdate name filter edit session =>
    exact performs_findAndUpdate s name filter edit session
  | upsert name filter edit session => exact performs_upsert s name filter edit session
  | delete name filter session => exact performs_delete s name filter session
  | drop name => exact performs_drop s name
  | createIndex name index => exact performs_createIndex s name index
  | dropIndex name index => exact performs_dropIndex s name index
  | listIndexes name =>
    exact .of_unchanged trivial rfl (fun _ => rfl) (fun _ => rfl) rfl rfl
  | startSession => exact performs_startSession s
  | startTransaction id => exact performs_startTransaction s id
  | commit id => exact performs_commit s id
  | abort id => exact performs_abort s id
  | endSession id => exact performs_endSession s id

/-- To record a call is not to do it. -/
theorem Done.of_noted {s t : Store} {operation name : String} {session : Option SessionId}
    {call : Call} {a : call.Answer} (h : Done (s.noted operation name session) call a t) :
    Done s call a t where
  answers := by
    have := h.answers
    cases call <;> exact this
  collection n := by
    rw [h.collection]
    cases call <;> rfl
  sessions := by
    rw [h.sessions]
    have hnoted : (s.noted operation name session).sessions = s.sessions := rfl
    cases call <;> first | rfl | exact loggedAll_sessions_congr hnoted _ _
  nextSession := h.nextSession
  admitted w hw := by
    have hchanges : (s.noted operation name session).changes call = s.changes call := by
      cases call <;> rfl
    exact h.admitted w (hchanges ▸ hw)

/-- **A call fails and changes nothing, or does what it has to do.** -/
theorem run_performs (s : Store) (call : Call) :
    Performs s call ((s.run call).outcome, (s.run call).store) := by
  change Performs s call ((answer call).run s)
  rw [answer, run_bind]
  rcases run_begin_cases s call.operation call.collection call.session? with
    hbegin | ⟨e, t, hbegin, hsame⟩
  · rw [hbegin]
    have h := performs (s.noted call.operation call.collection call.session?) call
    change Performs s call ((perform call).run (s.noted _ _ _))
    -- the type of the result depends on the call, so the result is made a variable
    generalize (perform call).run (s.noted call.operation call.collection call.session?) = r at h ⊢
    obtain ⟨_ | a, t⟩ := r
    · exact ⟨h.collection, h.sessions, h.nextSession⟩
    · exact Done.of_noted h
  · rw [hbegin]
    exact hsame

/-- **A call that fails changes no record, no index and no session.** -/
theorem run_error {s : Store} {call : Call} {e : EngineError}
    (h : (s.run call).outcome = .error e) : SameContent s (s.run call).store := by
  have hrun := run_performs s call
  rw [h] at hrun
  exact hrun

/-- **A call that succeeds has done what it had to do.** -/
theorem run_ok {s : Store} {call : Call} {a : call.Answer}
    (h : (s.run call).outcome = .ok a) : Done s call a (s.run call).store := by
  have hrun := run_performs s call
  rw [h] at hrun
  exact hrun

end Store

end ObjectEngine
