import ObjectEngine.Members.Lemmas
import ObjectEngine.Store.State

/-!
# What the store's work does, step by step

`Store.Work` is a computation that may fail and that changes a store in any case. This file runs
it: first the connectives, then each piece of work of `ObjectEngine.Store.State`, written as an
equation between its run and plain functions of the store. Nothing after this file opens the
monad again.

The functions are `Store.noted` and `Store.failed` for the book-keeping of calls, faults and
events, which concerns nobody here, and `Store.logged` for the undo log. The two equations that
carry the others are `run_updateIds` and `run_insertRecord`: a write either fails and leaves the
records as they were, or puts records in place and logs one entry for each.
-/

namespace ObjectEngine

namespace Store

variable {α β : Type}

/-! ### The connectives -/

@[simp] theorem run_bind (x : Work α) (f : α → Work β) (s : Store) :
    (x >>= f).run s = match x.run s with
      | (.ok a, t) => (f a).run t
      | (.error e, t) => (.error e, t) := by
  change (ExceptT.bind x f) s = _
  simp only [ExceptT.bind, ExceptT.mk, bind, StateT.bind, ExceptT.bindCont, ExceptT.run]
  rcases x s with ⟨_ | _, t⟩ <;> rfl

@[simp] theorem run_pure (a : α) (s : Store) : (pure a : Work α).run s = (.ok a, s) := rfl

@[simp] theorem run_throw (e : EngineError) (s : Store) :
    (throw e : Work α).run s = (.error e, s) := rfl

@[simp] theorem run_get (s : Store) : (get : Work Store).run s = (.ok s, s) := rfl

@[simp] theorem run_modify (f : Store → Store) (s : Store) :
    (modify f : Work PUnit).run s = (.ok ⟨⟩, f s) := rfl

@[simp] theorem run_ite (p : Prop) [Decidable p] (x y : Work α) (s : Store) :
    (if p then x else y).run s = if p then x.run s else y.run s := by
  split <;> rfl

/-- **A loop that cannot fail is a fold.** -/
theorem run_forIn {f : Store → α → Store} {body : α → Work PUnit}
    (hbody : ∀ a s, (body a).run s = (.ok ⟨⟩, f s a)) (xs : List α) (s : Store) :
    (forIn xs PUnit.unit fun a _ => do
      body a
      pure (ForInStep.yield PUnit.unit)).run s = (.ok ⟨⟩, xs.foldl f s) := by
  induction xs generalizing s with
  | nil => rfl
  | cons a xs ih =>
    rw [List.forIn_cons, run_bind, run_bind, hbody]
    simpa using ih (f s a)

/-! ### Book-keeping -/

/-- The store that has recorded a call. -/
def noted (s : Store) (operation collection : String) (session : Option SessionId) : Store :=
  { s with calls := ⟨operation, collection, session⟩ :: s.calls }

/-- The store that has announced a failure. -/
def failed (s : Store) (operation : String) (e : EngineError) : Store :=
  ((announceFailure operation e).run s).2

theorem run_begin (operation collection : String) (session : Option SessionId) (s : Store) :
    (begin operation collection session).run s =
      match dueFault? operation s.faults with
      | none => (.ok ⟨⟩, s.noted operation collection session)
      | some (e, faults) =>
        (.error e, { s.noted operation collection session with faults }.failed operation e) := by
  have hf : (s.noted operation collection session).faults = s.faults := rfl
  rw [begin, run_bind, run_modify]
  change ((_ : Work PUnit).run (s.noted operation collection session)) = _
  simp only [run_bind, run_get, hf]
  cases dueFault? operation s.faults with
  | none => rfl
  | some due => rfl

theorem run_finish (operation : String) (outcome : Outcome α) (s : Store) :
    (finish operation outcome).run s =
      match outcome with
      | .ok a => (.ok a, s)
      | .error e => (.error e, s.failed operation e) := by
  cases outcome <;> rfl

theorem run_checkSession (session : Option SessionId) (s : Store) :
    (checkSession session).run s = (.ok ⟨⟩, s) ∨
      ∃ e, (checkSession session).run s = (.error e, s) := by
  cases session with
  | none => exact .inl rfl
  | some id =>
    by_cases h : s.session? id = none
    · exact .inr ⟨inactive id, by simp [checkSession, h]⟩
    · exact .inl (by simp [checkSession, h])

/-! ### The undo log -/

/-- The store that has added a write to the undo log of a session with an open transaction. -/
def logged (s : Store) (session : Option SessionId) (entry : UndoEntry) : Store :=
  match session with
  | none => s
  | some id =>
    match s.session? id with
    | some state =>
      if state.inTransaction then s.setSession id { state with undo := entry :: state.undo } else s
    | none => s

theorem run_recordUndo (session : Option SessionId) (entry : UndoEntry) (s : Store) :
    (recordUndo session entry).run s = (.ok ⟨⟩, s.logged session entry) := by
  cases session with
  | none => rfl
  | some id =>
    simp only [recordUndo, logged, run_bind, run_get]
    cases s.session? id with
    | none => rfl
    | some state => cases h : state.inTransaction <;> simp [h]

@[simp] theorem logged_collections (s : Store) (session : Option SessionId) (entry : UndoEntry) :
    (s.logged session entry).collections = s.collections := by
  unfold logged
  split
  · rfl
  · split
    · split <;> rfl
    · rfl

/-- The store that has added several writes to an undo log, the first of them first. -/
def loggedAll (s : Store) (session : Option SessionId) (entries : List UndoEntry) : Store :=
  entries.foldl (fun s entry => s.logged session entry) s

@[simp] theorem loggedAll_collections (s : Store) (session : Option SessionId)
    (entries : List UndoEntry) : (s.loggedAll session entries).collections = s.collections := by
  unfold loggedAll
  induction entries generalizing s with
  | nil => rfl
  | cons entry entries ih => rw [List.foldl_cons, ih, logged_collections]

/-! ### Writes -/

/-- The records with the staged ones in place. -/
def putAll (staged : List (String × Record × Record)) (records : Members Record) :
    Members Record :=
  staged.foldl (fun records w => Members.insert w.1 w.2.2 records) records

theorem run_updateIds (operation name : String) (edit : Edit) (session : Option SessionId)
    (ids : List String) (s : Store) :
    (updateIds operation name edit session ids).run s =
      match stage name (s.collection name) edit ids with
      | .error e => (.error e, (s.setCollection name (s.collection name)).failed operation e)
      | .ok staged =>
        (.ok (ids.filterMap fun id => (putAll staged (s.collection name).records).lookup id),
          ((s.setCollection name (s.collection name)).setCollection name
            { s.collection name with records := putAll staged (s.collection name).records }
              ).loggedAll session (staged.map fun w => ⟨name, w.1, some w.2.1, some w.2.2⟩)) := by
  simp only [updateIds, run_bind, run_get, run_modify, run_finish]
  cases stage name (s.collection name) edit ids with
  | error e => rfl
  | ok staged =>
    simp only
    rw [run_forIn (f := fun s w => s.logged session ⟨name, w.1, some w.2.1, some w.2.2⟩)
      (fun w s => run_recordUndo session _ s)]
    simp [loggedAll, putAll, List.foldl_map]

/-- The verdict on a new record: its id must be free and its keys must be, too. -/
def admission (name : String) (c : Collection) (id : String) (record : Record) : Outcome Unit :=
  if (c.records.lookup id).isSome then .error (duplicateKey name "_id_")
  else checkUnique name c record

theorem run_insertRecord (operation name : String) (session : Option SessionId) (id : String)
    (record : Record) (s : Store) :
    (insertRecord operation name session id record).run s =
      match admission name (s.collection name) id record with
      | .error e => (.error e, (s.setCollection name (s.collection name)).failed operation e)
      | .ok () =>
        (.ok ⟨⟩, ((s.setCollection name (s.collection name)).setCollection name
          { s.collection name with
            records := Members.insert id record (s.collection name).records }).logged session
              ⟨name, id, none, none⟩) := by
  simp only [insertRecord, run_bind, run_get, run_modify, run_finish, admission]
  generalize (if (List.lookup id (s.collection name).records).isSome then
    .error (duplicateKey name "_id_")
    else checkUnique name (s.collection name) record : Outcome Unit) = verdict
  cases verdict with
  | error e => rfl
  | ok u => exact run_recordUndo session _ _

/-- The id that the store makes up next. -/
def freshText (n : Nat) : String :=
  let digits := Nat.toDigits 10 n
  String.ofList ('f' :: List.replicate (31 - digits.length) '0' ++ digits)

theorem run_freshId (s : Store) :
    freshId.run s = (.ok (freshText s.nextId), { s with nextId := s.nextId + 1 }) := rfl

/-- The records of some ids, with their ids. -/
def present (records : Members Record) (ids : List String) : List (String × Record) :=
  ids.filterMap fun id => (records.lookup id).map fun r => (id, r)

theorem run_deleteIds (name : String) (session : Option SessionId) (ids : List String)
    (s : Store) :
    (deleteIds name session ids).run s =
      match s.collection? name with
      | none => (.ok 0, s)
      | some c =>
        (.ok (present c.records ids).length,
          (s.setCollection name
            { c with records := ids.foldl (fun records id => Members.erase id records) c.records }
              ).loggedAll session
                ((present c.records ids).map fun w => ⟨name, w.1, some w.2, none⟩)) := by
  simp only [deleteIds, run_bind, run_get]
  cases s.collection? name with
  | none => rfl
  | some c =>
    simp only [run_bind, run_modify]
    rw [run_forIn (f := fun s w => s.logged session ⟨name, w.1, some w.2, none⟩)
      (fun w s => run_recordUndo session _ s)]
    simp [loggedAll, present, List.foldl_map]

/-- The store in which one write has been reverted. -/
def reverted (s : Store) (entry : UndoEntry) : Store :=
  s.setCollection entry.collection (entry.revert (s.collection entry.collection))

theorem run_rollBack (id : SessionId) (s : Store) :
    (rollBack id).run s =
      match s.session? id with
      | none => (.ok ⟨⟩, s)
      | some state => (.ok ⟨⟩, state.undo.foldl reverted (s.setSession id {})) := by
  simp only [rollBack, run_bind, run_get]
  cases s.session? id with
  | none => rfl
  | some state =>
    simp only [run_bind, run_modify]
    rw [run_forIn (f := reverted)]
    · rfl
    · exact fun _ _ => rfl

end Store

end ObjectEngine
