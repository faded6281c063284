import ObjectEngine.Proofs.Store.Work

/-!
# The changes that a call makes

What a call that succeeds leaves of a store is given by two plain functions of the store before
it and of the call, `Store.collectionAfter` and `Store.sessionsAfter`.

The heart of the first is `Store.changes`, the list of the records that a write puts in, rewrites
or takes away. The same list is what the undo log of an open transaction gets, so that the
records and the log never have to be followed separately. A record that is rewritten satisfied
the predicate, and has been checked as it is after the update (`Store.mem_rewrites`).
-/

namespace ObjectEngine

namespace Store

/-! ### Collections and sessions -/

theorem collection_setCollection (s : Store) (name : String) (c : Collection) (n : String) :
    (s.setCollection name c).collection n = if n = name then c else s.collection n := by
  simp only [collection, collection?, setCollection, Members.lookup_insert]
  split <;> rfl

/-- Putting a collection back changes nothing. -/
@[simp] theorem collection_setCollection_self (s : Store) (name n : String) :
    (s.setCollection name (s.collection name)).collection n = s.collection n := by
  rw [collection_setCollection]
  split
  case isTrue h => rw [h]
  case isFalse => rfl

theorem collection_congr {s t : Store} (h : t.collections = s.collections) (n : String) :
    t.collection n = s.collection n := by
  simp only [collection, collection?, h]

theorem session?_congr {s t : Store} (h : t.sessions = s.sessions) (id : SessionId) :
    t.session? id = s.session? id := by
  simp only [session?, h]

theorem session?_setSession (s : Store) (id other : SessionId) (session : Session) :
    (s.setSession id session).session? other =
      if other = id then (s.session? id).map fun _ => session else s.session? other := by
  unfold session? setSession
  simp only
  induction s.sessions with
  | nil => simp
  | cons entry entries ih =>
    by_cases hid : entry.1 = id
    · by_cases hother : other = id
      · simp [hid, hother]
      · have hne : ¬id = other := fun h => hother h.symm
        simpa [hid, hother, hne] using ih
    · by_cases hother : other = id
      · subst hother
        simpa [hid] using ih
      · by_cases hentry : entry.1 = other
        · simp [hother, hentry]
        · simpa [hid, hother, hentry] using ih

theorem logged_sessions_congr {s t : Store} (h : t.sessions = s.sessions)
    (session : Option SessionId) (entry : UndoEntry) :
    (t.logged session entry).sessions = (s.logged session entry).sessions := by
  unfold logged
  cases session with
  | none => exact h
  | some id =>
    simp only [session?_congr h]
    cases s.session? id with
    | none => exact h
    | some state => cases hopen : state.inTransaction <;> simp [setSession, h, hopen]

theorem loggedAll_sessions_congr {s t : Store} (h : t.sessions = s.sessions)
    (session : Option SessionId) (entries : List UndoEntry) :
    (t.loggedAll session entries).sessions = (s.loggedAll session entries).sessions := by
  unfold loggedAll
  induction entries generalizing s t with
  | nil => exact h
  | cons entry entries ih => exact ih (logged_sessions_congr h session entry)

@[simp] theorem logged_nextSession (s : Store) (session : Option SessionId) (entry : UndoEntry) :
    (s.logged session entry).nextSession = s.nextSession := by
  unfold logged
  split
  · rfl
  · split
    · split <;> rfl
    · rfl

@[simp] theorem loggedAll_nextSession (s : Store) (session : Option SessionId)
    (entries : List UndoEntry) : (s.loggedAll session entries).nextSession = s.nextSession := by
  unfold loggedAll
  induction entries generalizing s with
  | nil => rfl
  | cons entry entries ih => rw [List.foldl_cons, ih, logged_nextSession]

/-- Two stores with the same records, indexes and sessions. -/
structure SameContent (s t : Store) : Prop where
  collection (name : String) : t.collection name = s.collection name
  sessions : t.sessions = s.sessions
  nextSession : t.nextSession = s.nextSession

theorem SameContent.refl (s : Store) : SameContent s s := ⟨fun _ => rfl, rfl, rfl⟩

theorem SameContent.trans {s t u : Store} (h : SameContent s t) (h' : SameContent t u) :
    SameContent s u :=
  ⟨fun name => (h'.collection name).trans (h.collection name), h'.sessions.trans h.sessions,
    h'.nextSession.trans h.nextSession⟩

theorem SameContent.failed {s t : Store} (h : SameContent s t) (operation : String)
    (e : EngineError) : SameContent s (t.failed operation e) :=
  ⟨h.collection, h.sessions, h.nextSession⟩

theorem sameContent_setCollection_self (s : Store) (name : String) :
    SameContent s (s.setCollection name (s.collection name)) :=
  ⟨collection_setCollection_self s name, rfl, rfl⟩

/-! ### Changes of records -/

/-- What a call does to one record: the record under an id before and after it. -/
structure Change where
  id : String
  before : Option Record
  after : Option Record
  deriving Inhabited

namespace Change

/-- The records after a change. -/
def applyTo (records : Members Record) (w : Change) : Members Record :=
  match w.after with
  | some r => Members.insert w.id r records
  | none => Members.erase w.id records

/-- What the undo log keeps of a change. An insertion is kept without its record. -/
def undo (name : String) (w : Change) : UndoEntry :=
  ⟨name, w.id, w.before, if w.before.isSome then w.after else none⟩

theorem lookup_applyTo (w : Change) (records : Members Record) (k : String) :
    (w.applyTo records).lookup k = if k = w.id then w.after else records.lookup k := by
  unfold applyTo
  cases h : w.after with
  | some r => exact Members.lookup_insert k w.id r records
  | none => exact Members.lookup_erase k w.id records

end Change

/-- The records after several changes. -/
def applyChanges (ws : List Change) (records : Members Record) : Members Record :=
  ws.foldl Change.applyTo records

/-- A collection after several changes of its records. -/
def changed (ws : List Change) (c : Collection) : Collection :=
  { c with records := applyChanges ws c.records }

/-- An id without a change keeps its record. -/
theorem lookup_applyChanges_of_ne {ws : List Change} {k : String} (h : ∀ w ∈ ws, w.id ≠ k)
    (records : Members Record) : (applyChanges ws records).lookup k = records.lookup k := by
  unfold applyChanges
  induction ws generalizing records with
  | nil => rfl
  | cons w ws ih =>
    rw [List.foldl_cons, ih (fun w' hw' => h w' (List.mem_cons_of_mem _ hw')),
      Change.lookup_applyTo, if_neg fun he => h w List.mem_cons_self he.symm]

/-- **A changed id holds what a change of it put there**, if all changes of one id agree. -/
theorem lookup_applyChanges {ws : List Change}
    (hws : ∀ w ∈ ws, ∀ w' ∈ ws, w.id = w'.id → w.after = w'.after) {w : Change} (hw : w ∈ ws)
    (records : Members Record) : (applyChanges ws records).lookup w.id = w.after := by
  unfold applyChanges
  induction ws generalizing w records with
  | nil => exact absurd hw List.not_mem_nil
  | cons first ws ih =>
    rw [List.foldl_cons]
    -- later changes overwrite earlier ones, so the last change of the id counts
    by_cases htail : ∃ w' ∈ ws, w'.id = w.id
    · obtain ⟨w', hw', hid⟩ := htail
      have hagree := hws w' (List.mem_cons_of_mem _ hw') w hw hid
      rw [← hid, ← hagree]
      exact ih (fun a ha b hb => hws a (List.mem_cons_of_mem _ ha) b (List.mem_cons_of_mem _ hb))
        hw' _
    · have hfirst : w = first := (List.mem_cons.1 hw).resolve_right fun h => htail ⟨w, h, rfl⟩
      have hrest : ∀ w' ∈ ws, w'.id ≠ w.id := fun w' h he => htail ⟨w', h, he⟩
      rw [show ws.foldl Change.applyTo _ = applyChanges ws _ from rfl,
        lookup_applyChanges_of_ne hrest, Change.lookup_applyTo, if_pos (congrArg Change.id hfirst),
        hfirst]

/-- The records that an update of the matches of a predicate rewrites, or of the first
match. -/
def rewrites (s : Store) (name : String) (firstOnly : Bool) (filter : Predicate) (edit : Edit) :
    List Change :=
  let c := s.collection name
  match matchingIds firstOnly filter c.records >>= stage name c edit with
  | .ok staged => staged.map fun w => ⟨w.1, some w.2.1, some w.2.2⟩
  | .error _ => []

/-- A new record with its id, which the store makes up if the record has none. -/
def identified (s : Store) (record : Record) : String × Record :=
  match record.id? with
  | some id => (id, record)
  | none => (freshText s.nextId, Members.insert Record.idKey (.string (freshText s.nextId)) record)

/-- A record gets the id under which it is put in. -/
theorem id?_identified (s : Store) (record : Record) :
    (s.identified record).2.id? = some (s.identified record).1 := by
  unfold identified
  split
  · assumption
  · rw [Record.id?, Record.string?, Members.lookup_insert, if_pos rfl]
    rfl

/-- A record that gets an id keeps its other members. -/
theorem lookup_identified (s : Store) (record : Record) {key : String} (hkey : key ≠ Record.idKey) :
    (s.identified record).2.lookup key = record.lookup key := by
  unfold identified
  split
  · rfl
  · exact (Members.lookup_insert ..).trans (if_neg hkey)

/-- The record that an insertion by a predicate and an update puts in. -/
def insertion (s : Store) (filter : Predicate) (edit : Edit) : List Change :=
  match edit.apply true filter.seed with
  | .ok record => [⟨(s.identified record).1, none, some (s.identified record).2⟩]
  | .error _ => []

/-- The records that the removal of some ids takes away. -/
def removals (records : Members Record) (ids : List String) : List Change :=
  (present records ids).map fun w => ⟨w.1, some w.2, none⟩

/-- **What a call does to the records of its collection**, if it succeeds. -/
def changes (s : Store) : Call → List Change
  | .insert _ record _ => (record.id?.map fun id => ⟨id, none, some record⟩).toList
  | .update name filter edit _ => s.rewrites name false filter edit
  | .findAndUpdate name filter edit _ => s.rewrites name true filter edit
  | .upsert name filter edit _ =>
    match matchingIds true filter (s.collection name).records with
    | .ok [] => s.insertion filter edit
    | _ => s.rewrites name true filter edit
  | .delete name filter _ =>
    match matchingIds false filter (s.collection name).records with
    | .ok ids => removals (s.collection name).records ids
    | .error _ => []
  | _ => []

/-- The writes that a call reverts, in the order in which it does so. -/
def rolledBack (s : Store) : Call → List UndoEntry
  | .abort id => ((s.session? id).map Session.undo).getD []
  | .endSession id => (((s.session? id).filter Session.inTransaction).map Session.undo).getD []
  | _ => []

/-- A collection after the writes to it among some have been reverted. -/
def revertAll (name : String) (entries : List UndoEntry) (c : Collection) : Collection :=
  entries.foldl (fun c entry => if entry.collection = name then entry.revert c else c) c

/-! ### Reverted writes -/

/-- A reverted write concerns no index. -/
theorem revert_indexes (entry : UndoEntry) (c : Collection) :
    (entry.revert c).indexes = c.indexes := by
  unfold UndoEntry.revert
  split
  · rfl
  · split <;> rfl
  · split <;> rfl

/-- **A reverted write concerns one record**: the others stay. -/
theorem lookup_revert_of_ne {entry : UndoEntry} {k : String} (h : k ≠ entry.id)
    (c : Collection) : (entry.revert c).records.lookup k = c.records.lookup k := by
  unfold UndoEntry.revert
  split
  · exact (Members.lookup_erase ..).trans (if_neg h)
  · split
    · rfl
    · exact (Members.lookup_insert ..).trans (if_neg h)
  · split
    · rfl
    · exact (Members.lookup_insert ..).trans (if_neg h)

theorem revertAll_indexes (name : String) (entries : List UndoEntry) (c : Collection) :
    (revertAll name entries c).indexes = c.indexes := by
  unfold revertAll
  induction entries generalizing c with
  | nil => rfl
  | cons entry entries ih =>
    rw [List.foldl_cons, ih]
    split
    · exact revert_indexes entry c
    · rfl

/-- An id that no reverted write was about keeps its record. -/
theorem lookup_revertAll_of_ne {name k : String} {entries : List UndoEntry}
    (h : ∀ entry ∈ entries, entry.collection = name → entry.id ≠ k) (c : Collection) :
    (revertAll name entries c).records.lookup k = c.records.lookup k := by
  unfold revertAll
  induction entries generalizing c with
  | nil => rfl
  | cons entry entries ih =>
    rw [List.foldl_cons, ih fun e he => h e (List.mem_cons_of_mem _ he)]
    split
    case isTrue hname => exact lookup_revert_of_ne (h entry List.mem_cons_self hname).symm c
    case isFalse => rfl

/-! ### Reverted members -/

/-- One value after one write of it has been taken back: it is what it was before, if the write
changed it and nobody did so since. -/
def revertedValue (before after current : Option Datum) : Option Datum :=
  if Datum.sameOption before after || !Datum.sameOption current after then current else before

theorem revertedValue_self (x : Option Datum) : revertedValue x x x = x :=
  ite_self x

/-- To take a write back twice is to take it back once. -/
theorem revertedValue_idem (before after current : Option Datum) :
    revertedValue before after (revertedValue before after current) =
      revertedValue before after current := by
  cases hsame : Datum.sameOption before after with
  | true => simp [revertedValue, hsame]
  | false =>
    cases hcurrent : Datum.sameOption current after <;> simp [revertedValue, hsame, hcurrent]

/-- **A reverted key** has its value taken back, and other keys are let be. -/
theorem lookup_revertMember (previous written current : Record) (key k : String) :
    (UndoEntry.revertMember previous written current key).lookup k =
      if k = key then revertedValue (previous.lookup k) (written.lookup k) (current.lookup k)
      else current.lookup k := by
  unfold UndoEntry.revertMember revertedValue
  dsimp only
  by_cases hk : k = key
  · subst hk
    rw [if_pos rfl]
    split
    · rfl
    · split
      · rename_i d hd
        rw [Members.lookup_insert, if_pos rfl, hd]
      · rename_i hd
        rw [Members.lookup_erase, if_pos rfl, hd]
  · rw [if_neg hk]
    split
    · rfl
    · split
      · rw [Members.lookup_insert, if_neg hk]
      · rw [Members.lookup_erase, if_neg hk]

/-- Each key may be reverted any number of times. -/
theorem lookup_foldl_revertMember (previous written : Record) (k : String)
    (keys : List String) (current : Record) :
    (keys.foldl (UndoEntry.revertMember previous written) current).lookup k =
      if k ∈ keys then revertedValue (previous.lookup k) (written.lookup k) (current.lookup k)
      else current.lookup k := by
  induction keys generalizing current with
  | nil => rfl
  | cons key keys ih =>
    rw [List.foldl_cons, ih, lookup_revertMember]
    by_cases hkey : k = key
    · simp only [hkey, if_true, List.mem_cons, true_or, revertedValue_idem, ite_self]
    · simp only [hkey, if_false, List.mem_cons, false_or]

/-! ### Where changes come from -/

/-- **The ids that a predicate finds are those of records that satisfy it.** -/
theorem mem_matchingIds {firstOnly : Bool} {p : Predicate} {records : Members Record}
    {ids : List String} (h : matchingIds firstOnly p records = .ok ids) {id : String}
    (hid : id ∈ ids) : ∃ r, (id, r) ∈ records ∧ (p.eval none r).1 = .ok true := by
  induction records generalizing ids with
  | nil =>
    obtain rfl : [] = ids := by simpa [matchingIds] using h
    exact absurd hid List.not_mem_nil
  | cons first records ih =>
    obtain ⟨key, r⟩ := first
    have later {ids' : List String} (hrest : matchingIds firstOnly p records = .ok ids')
        (hmem : id ∈ ids') :
        ∃ r', (id, r') ∈ (key, r) :: records ∧ (p.eval none r').1 = .ok true := by
      obtain ⟨r', hr', hp⟩ := ih hrest hmem
      exact ⟨r', List.mem_cons_of_mem _ hr', hp⟩
    cases hp : (p.eval none r).1 with
    | error e => simp [matchingIds, hp, bind, Except.bind] at h
    | ok b =>
      cases b with
      | false => exact later (by simpa [matchingIds, hp, bind, Except.bind] using h) hid
      | true =>
        cases firstOnly with
        | true =>
          obtain rfl : [key] = ids := by
            simpa [matchingIds, hp, bind, Except.bind, pure, Except.pure] using h
          obtain rfl := List.mem_singleton.1 hid
          exact ⟨r, List.mem_cons_self, hp⟩
        | false =>
          cases hrest : matchingIds false p records with
          | error e => simp [matchingIds, hp, hrest, bind, Except.bind] at h
          | ok ids' =>
            obtain rfl : key :: ids' = ids := by
              simpa [matchingIds, hp, hrest, bind, Except.bind, pure, Except.pure] using h
            rcases List.mem_cons.1 hid with rfl | hmem
            · exact ⟨r, List.mem_cons_self, hp⟩
            · exact later hrest hmem

/-- **A staged record** is the record of a given id after the update, checked against the
collection as it is. -/
theorem mem_stage {name : String} {c : Collection} {edit : Edit} {ids : List String}
    {staged : List (String × Record × Record)} (h : stage name c edit ids = .ok staged)
    {w : String × Record × Record} (hw : w ∈ staged) :
    w.1 ∈ ids ∧ c.records.lookup w.1 = some w.2.1 ∧ edit.apply false w.2.1 = .ok w.2.2 ∧
      checkUnique name c w.2.2 = .ok () := by
  induction ids generalizing staged with
  | nil =>
    obtain rfl : [] = staged := by simpa [stage] using h
    exact absurd hw List.not_mem_nil
  | cons id ids ih =>
    rw [stage] at h
    cases hid : c.records.lookup id with
    | none =>
      rw [hid] at h
      exact (ih h hw).imp_left (List.mem_cons_of_mem _)
    | some current =>
      rw [hid] at h
      cases hnext : edit.apply false current with
      | error e => simp [hnext, bind, Except.bind] at h
      | ok next =>
        cases hcheck : checkUnique name c next with
        | error e => simp [hnext, hcheck, bind, Except.bind] at h
        | ok u =>
          cases hrest : stage name c edit ids with
          | error e => simp [hnext, hcheck, hrest, bind, Except.bind] at h
          | ok rest =>
            obtain rfl : (id, current, next) :: rest = staged := by
              simpa [hnext, hcheck, hrest, bind, Except.bind, pure, Except.pure] using h
            rcases List.mem_cons.1 hw with rfl | hw
            · exact ⟨List.mem_cons_self, hid, hnext, hcheck⟩
            · exact (ih hrest hw).imp_left (List.mem_cons_of_mem _)

/-- Every bound id is staged. -/
theorem exists_mem_stage {name : String} {c : Collection} {edit : Edit} {ids : List String}
    {staged : List (String × Record × Record)} (h : stage name c edit ids = .ok staged)
    {id : String} (hid : id ∈ ids) {current : Record}
    (hcurrent : c.records.lookup id = some current) : ∃ next, (id, current, next) ∈ staged := by
  induction ids generalizing staged with
  | nil => exact absurd hid List.not_mem_nil
  | cons first ids ih =>
    rw [stage] at h
    cases hfirst : c.records.lookup first with
    | none =>
      rw [hfirst] at h
      rcases List.mem_cons.1 hid with rfl | hid
      · exact absurd (hfirst.symm.trans hcurrent) (by simp)
      · exact ih h hid
    | some r =>
      rw [hfirst] at h
      cases hnext : edit.apply false r with
      | error e => simp [hnext, bind, Except.bind] at h
      | ok next =>
        cases hcheck : checkUnique name c next with
        | error e => simp [hnext, hcheck, bind, Except.bind] at h
        | ok u =>
          cases hrest : stage name c edit ids with
          | error e => simp [hnext, hcheck, hrest, bind, Except.bind] at h
          | ok rest =>
            obtain rfl : (first, r, next) :: rest = staged := by
              simpa [hnext, hcheck, hrest, bind, Except.bind, pure, Except.pure] using h
            rcases List.mem_cons.1 hid with rfl | hid
            · obtain rfl : r = current := Option.some.inj (hfirst.symm.trans hcurrent)
              exact ⟨next, List.mem_cons_self⟩
            · obtain ⟨next', hnext'⟩ := ih hrest hid
              exact ⟨next', List.mem_cons_of_mem _ hnext'⟩

/-- **A rewritten record** satisfied the predicate, was updated and has been checked. -/
theorem mem_rewrites {s : Store} {name : String} {firstOnly : Bool} {filter : Predicate}
    {edit : Edit} {w : Change} (h : w ∈ s.rewrites name firstOnly filter edit) :
    ∃ current next, w = ⟨w.id, some current, some next⟩ ∧
      (s.collection name).records.lookup w.id = some current ∧
      (∃ r, (w.id, r) ∈ (s.collection name).records ∧ (filter.eval none r).1 = .ok true) ∧
      edit.apply false current = .ok next ∧
      checkUnique name (s.collection name) next = .ok () := by
  unfold rewrites at h
  cases hids : matchingIds firstOnly filter (s.collection name).records with
  | error e => simp [hids, bind, Except.bind] at h
  | ok ids =>
    cases hstage : stage name (s.collection name) edit ids with
    | error e => simp [hids, hstage, bind, Except.bind] at h
    | ok staged =>
      have hmem : w ∈ staged.map fun w => (⟨w.1, some w.2.1, some w.2.2⟩ : Change) := by
        simpa [hids, hstage, bind, Except.bind] using h
      obtain ⟨v, hv, rfl⟩ := List.mem_map.1 hmem
      obtain ⟨hid, hlookup, happly, hcheck⟩ := mem_stage hstage hv
      exact ⟨v.2.1, v.2.2, rfl, hlookup, mem_matchingIds hids hid, happly, hcheck⟩

/-- **A change by an upsert** is the insertion of what the update makes of the seed, or a record
that is rewritten. -/
theorem mem_changes_upsert {s : Store} {name : String} {filter : Predicate} {edit : Edit}
    {session : Option SessionId} {w : Change}
    (hw : w ∈ s.changes (.upsert name filter edit session)) :
    (∃ record, edit.apply true filter.seed = .ok record ∧
      w = ⟨(s.identified record).1, none, some (s.identified record).2⟩) ∨
    w ∈ s.rewrites name true filter edit := by
  simp only [changes] at hw
  split at hw
  · unfold insertion at hw
    split at hw
    · rename_i record hrecord
      exact .inl ⟨record, hrecord, List.mem_singleton.1 hw⟩
    · exact absurd hw List.not_mem_nil
  · exact .inr hw

/-! ### The store after a call -/

/-- **A collection after a call that succeeds.** -/
def collectionAfter (s : Store) (call : Call) (name : String) : Collection :=
  let c := s.collection name
  match call with
  | .drop n => if name = n then {} else c
  | .createIndex n index =>
    if name = n ∧ c.indexes.lookup index.name = none then
      { c with indexes := Members.insert index.name index c.indexes }
    else c
  | .dropIndex n index =>
    if name = n then { c with indexes := Members.erase index c.indexes } else c
  | .abort _ | .endSession _ => revertAll name (s.rolledBack call) c
  | call => if name = call.collection then changed (s.changes call) c else c

/-- **The sessions after a call that succeeds.** -/
def sessionsAfter (s : Store) : Call → List (SessionId × Session)
  | .startSession => s.sessions ++ [(⟨s.nextSession⟩, {})]
  | .startTransaction id => (s.setSession id { inTransaction := true, undo := [] }).sessions
  | .commit id | .abort id => (s.setSession id {}).sessions
  | .endSession id => s.sessions.filter fun entry => entry.1 ≠ id
  | call =>
    (s.loggedAll call.session? ((s.changes call).map (Change.undo call.collection))).sessions

/-- The number of the next session after a call that succeeds. -/
def nextSessionAfter (s : Store) : Call → Nat
  | .startSession => s.nextSession + 1
  | _ => s.nextSession

end Store

end ObjectEngine
