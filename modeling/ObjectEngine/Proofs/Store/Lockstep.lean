import ObjectEngine.Proofs.Store.Quiet

/-!
# A store in a transaction beside one without

A transaction writes in place. So the work of a call on a session does to the records what the
same call does on no session; what it does besides is to keep an undo log, which nothing reads
before the transaction ends. Here both are run side by side: on stores with the same records, of
which the first has the session, the outcomes are equal and so are the records afterwards
(`Store.Lockstep`).

The stores are `Store.Abreast`, and no fault is due in either. So the common outcome is one that
lasts: it is no reason to try the transaction again.
-/

namespace ObjectEngine

namespace Store

variable {α β : Type} {id : SessionId}

/-- **Two stores abreast**: they have the same records and indexes and make up the same ids, and
the first has an active session. No fault is due in either. -/
structure Abreast (id : SessionId) (s t : Store) : Prop where
  collection (name : String) : t.collection name = s.collection name
  nextId : t.nextId = s.nextId
  active : (s.session? id).isSome
  quiet : s.Quiet
  quiet' : t.Quiet

/-- **Work in lockstep**: on stores abreast both come to the same, which lasts, and leave the
stores abreast. -/
def Lockstep (id : SessionId) (x y : Work α) : Prop :=
  ∀ s t, Abreast id s t →
    (x.run s).1 = (y.run t).1 ∧ Outcome.Lasting (x.run s).1 ∧ Abreast id (x.run s).2 (y.run t).2

namespace Abreast

variable {s t : Store} (h : Abreast id s t)

include h

theorem setCollection (name : String) (c : Collection) :
    Abreast id (s.setCollection name c) (t.setCollection name c) where
  collection n := by rw [collection_setCollection, collection_setCollection, h.collection]
  nextId := h.nextId
  active := h.active
  quiet := h.quiet
  quiet' := h.quiet'

theorem failed (operation : String) (e : EngineError) :
    Abreast id (s.failed operation e) (t.failed operation e) :=
  ⟨h.collection, h.nextId, h.active, h.quiet, h.quiet'⟩

theorem noted (operation name : String) (session session' : Option SessionId) :
    Abreast id (s.noted operation name session) (t.noted operation name session') :=
  ⟨h.collection, h.nextId, h.active, h.quiet, h.quiet'⟩

/-- What the undo log gets concerns the session alone, and leaves it active. -/
theorem logged (entry : UndoEntry) : Abreast id (s.logged (some id) entry) t := by
  simp only [Store.logged]
  cases hsession : s.session? id with
  | none => exact h
  | some state =>
    simp only
    split
    · refine ⟨h.collection, h.nextId, ?_, h.quiet, h.quiet'⟩
      rw [session?_setSession, if_pos rfl, hsession]
      rfl
    · exact h

theorem loggedAll (entries : List UndoEntry) : Abreast id (s.loggedAll (some id) entries) t := by
  unfold Store.loggedAll
  induction entries generalizing s with
  | nil => exact h
  | cons entry entries ih => exact ih (h.logged entry)

theorem rests {s' t' : Store} (hs : Rests s s') (ht : Rests t t')
    (hactive : (s'.session? id).isSome) : Abreast id s' t' where
  collection name := by rw [ht.collection, hs.collection, h.collection]
  nextId := by rw [ht.nextId, hs.nextId, h.nextId]
  active := hactive
  quiet := h.quiet.rests hs
  quiet' := h.quiet'.rests ht

end Abreast

/-- No undo log gets what is written on no session. -/
theorem loggedAll_none (s : Store) (entries : List UndoEntry) : s.loggedAll none entries = s := by
  unfold loggedAll
  induction entries with
  | nil => rfl
  | cons entry entries ih => exact ih

/-- A collection that is not there has no records to remove. -/
theorem run_deleteIds_rests (name : String) (session : Option SessionId) (ids : List String)
    (s : Store) :
    ∃ s', Rests (s.setCollection name { s.collection name with
        records := ids.foldl (fun records id => Members.erase id records)
          (s.collection name).records }) s' ∧
      s'.sessions = s.sessions ∧
      (deleteIds name session ids).run s =
        (.ok (present (s.collection name).records ids).length, s'.loggedAll session
          ((present (s.collection name).records ids).map
            fun w => ⟨name, w.1, some w.2, none⟩)) := by
  rw [run_deleteIds]
  cases hc : s.collection? name with
  | some c =>
    have hcollection : s.collection name = c := by simp [collection, hc]
    rw [hcollection]
    exact ⟨_, .refl _, rfl, rfl⟩
  | none =>
    have hcollection : s.collection name = {} := by simp [collection, hc]
    have hpresent : present [] ids = [] := by simp [present]
    have hempty :
        ids.foldl (fun records id => Members.erase id records) ([] : Members Record) = [] := by
      induction ids with
      | nil => rfl
      | cons id rest ih => exact ih (by simp [present])
    rw [hcollection, hpresent, hempty]
    refine ⟨s, ⟨fun n => ?_, rfl, rfl⟩, rfl, rfl⟩
    rw [collection_setCollection]
    split
    case isTrue hn => rw [hn, hcollection]
    case isFalse => rfl

/-! ### Steps -/

namespace Lockstep

theorem pure (a : α) : Lockstep id (pure a : Work α) (Pure.pure a) :=
  fun _ _ h => ⟨rfl, .ok a, h⟩

theorem bind {x y : Work α} {f g : α → Work β} (hx : Lockstep id x y)
    (hf : ∀ a, Lockstep id (f a) (g a)) : Lockstep id (x >>= f) (y >>= g) := by
  intro s t h
  obtain ⟨houtcome, hlasting, hafter⟩ := hx s t h
  rw [run_bind, run_bind]
  rcases hrun : x.run s with ⟨_ | a, s'⟩ <;> rcases hrun' : y.run t with ⟨_ | a', t'⟩ <;>
    simp only [hrun, hrun'] at houtcome hlasting hafter ⊢
  · obtain rfl := Except.error.inj houtcome
    exact ⟨rfl, .error (hlasting _ rfl), hafter⟩
  · exact absurd houtcome (by simp)
  · exact absurd houtcome (by simp)
  · obtain rfl := Except.ok.inj houtcome
    exact hf a s' t' hafter

theorem ite {p : Prop} [Decidable p] {x y x' y' : Work α} (hx : Lockstep id x y)
    (hx' : Lockstep id x' y') : Lockstep id (if p then x else x') (if p then y else y') := by
  split
  · exact hx
  · exact hx'

/-- Both see the store they are run on. -/
theorem get_bind {f g : Store → Work β}
    (hf : ∀ s t, Abreast id s t → Lockstep id (f s) (g t)) :
    Lockstep id (get >>= f) (get >>= g) := by
  intro s t h
  rw [run_bind, run_bind, run_get, run_get]
  exact hf s t h s t h

theorem setCollection (name : String) (c : Collection) :
    Lockstep id (modify fun s => s.setCollection name c) (modify fun s => s.setCollection name c) :=
  fun _ _ h => ⟨rfl, .ok _, h.setCollection name c⟩

theorem finish (operation : String) {outcome : Outcome α} (houtcome : outcome.Lasting) :
    Lockstep id (finish operation outcome) (Store.finish operation outcome) := by
  intro s t h
  rw [run_finish, run_finish]
  cases outcome with
  | ok a => exact ⟨rfl, .ok a, h⟩
  | error e => exact ⟨rfl, .error (houtcome e rfl), h.failed operation e⟩

theorem recordUndo (entry : UndoEntry) :
    Lockstep id (recordUndo (some id) entry) (Store.recordUndo none entry) := by
  intro s t h
  rw [run_recordUndo, run_recordUndo]
  exact ⟨rfl, .ok _, h.logged entry⟩

/-- The session is active, and no session needs to be. -/
theorem checkSession : Lockstep id (checkSession (some id)) (Store.checkSession none) := by
  intro s t h
  have hactive : s.session? id ≠ none := Option.isSome_iff_ne_none.1 h.active
  have hrun : (Store.checkSession (some id)).run s = (.ok ⟨⟩, s) := by
    simp [Store.checkSession, hactive]
  rw [hrun]
  exact ⟨rfl, .ok _, h⟩

theorem freshId : Lockstep id freshId Store.freshId := by
  intro s t h
  rw [run_freshId, run_freshId, h.nextId]
  exact ⟨rfl, .ok _, h.collection, rfl, h.active, h.quiet, h.quiet'⟩

theorem forIn {f g : α → PUnit → Work (ForInStep PUnit)} {xs : List α}
    (h : ∀ a, Lockstep id (f a ⟨⟩) (g a ⟨⟩)) :
    Lockstep id (forIn xs PUnit.unit f) (ForIn.forIn xs PUnit.unit g) := by
  induction xs with
  | nil => exact pure _
  | cons a rest ih =>
    rw [List.forIn_cons, List.forIn_cons]
    refine bind (h a) fun step => ?_
    cases step with
    | done u => exact pure _
    | yield u => exact ih

/-! ### Writes -/

theorem updateIds (operation name : String) (edit : Edit) (ids : List String) :
    Lockstep id (updateIds operation name edit (some id) ids)
      (Store.updateIds operation name edit none ids) := by
  refine get_bind fun s t h => ?_
  rw [h.collection name]
  refine bind (setCollection name _) fun _ => ?_
  refine bind (finish operation (lasting_stage name _ edit ids)) fun staged => ?_
  refine bind (setCollection name _) fun _ => ?_
  exact bind (forIn fun w => bind (recordUndo _) fun _ => pure _) fun _ => pure _

theorem insertRecord (operation name key : String) (record : Record) :
    Lockstep id (insertRecord operation name (some id) key record)
      (Store.insertRecord operation name none key record) := by
  refine get_bind fun s t h => ?_
  rw [h.collection name]
  refine bind (setCollection name _) fun _ => ?_
  refine bind (finish operation (lasting_admission name _ key record)) fun _ => ?_
  exact bind (setCollection name _) fun _ => recordUndo _

theorem insertSeed (name : String) (filter : Predicate) (edit : Edit) :
    Lockstep id (insertSeed name filter edit (some id))
      (Store.insertSeed name filter edit none) := by
  refine bind (finish "upsert" (Edit.lasting_apply edit true filter.seed)) fun record => ?_
  cases record.id? with
  | some key =>
    exact bind (pure (key, record)) fun _ => bind (insertRecord _ _ _ _) fun _ => pure _
  | none =>
    refine bind (x := Store.freshId) freshId fun key => ?_
    exact bind (pure _) fun _ => bind (insertRecord _ _ _ _) fun _ => pure _

theorem deleteIds (name : String) (ids : List String) :
    Lockstep id (deleteIds name (some id) ids) (Store.deleteIds name none ids) := by
  intro s t h
  obtain ⟨s', hs, hsessions, hrun⟩ := run_deleteIds_rests name (some id) ids s
  obtain ⟨t', ht, -, hrun'⟩ := run_deleteIds_rests name none ids t
  have hactive : (s'.session? id).isSome := by
    rw [session?_congr hsessions]
    exact h.active
  have hafter : Abreast id s' t' := by
    rw [h.collection name] at ht
    exact (h.setCollection name _).rests hs ht hactive
  have hnone : t'.loggedAll none
      ((present (t.collection name).records ids).map fun w => ⟨name, w.1, some w.2, none⟩) = t' :=
    loggedAll_none t' _
  rw [hrun, hrun', hnone, h.collection name]
  exact ⟨rfl, .ok _, hafter.loggedAll _⟩

/-! ### Calls -/

/-- No fault keeps a call from being performed. -/
theorem begin (operation name : String) (session session' : Option SessionId) :
    Lockstep id (begin operation name session) (Store.begin operation name session') := by
  intro s t h
  rw [run_begin, run_begin, h.quiet operation, h.quiet' operation]
  exact ⟨rfl, .ok _, h.noted operation name session session'⟩

theorem find (name : String) (sel : Selection) :
    Lockstep (α := List Record) id (answer (.find name sel (some id)))
      (answer (.find name sel none)) := by
  refine bind (begin _ _ _ _) fun _ => get_bind fun s t h => ?_
  rw [query_congr (h.collection name) sel]
  exact finish "find" (lasting_underLimit _ (lasting_query s name sel))

theorem count (name : String) (p : Predicate) (limit : Option Nat) :
    Lockstep (α := Nat) id (answer (.count name p limit (some id)))
      (answer (.count name p limit none)) := by
  refine bind (begin _ _ _ _) fun _ => get_bind fun s t h => ?_
  rw [query_congr (h.collection name)]
  exact finish "count" (lasting_underLimit _ ((lasting_query s name _).map _))

theorem insert (name : String) (record : Record) :
    Lockstep (α := Unit) id (answer (.insert name record (some id)))
      (answer (.insert name record none)) := by
  refine bind (begin _ _ _ _) fun _ => bind checkSession fun _ => ?_
  refine bind (finish "insert" ?_) fun key => insertRecord "insert" name key record
  cases record.id? with
  | some key => exact .ok key
  | none => exact .error rfl

/-- The matches of a predicate are the same on both. -/
theorem matching_bind (operation name : String) (firstOnly : Bool) (p : Predicate)
    {f g : List String → Work β} (hf : ∀ ids, Lockstep id (f ids) (g ids)) :
    Lockstep id
      (do
        let ids ← Store.finish operation
          (matchingIds firstOnly p ((← get).collection name).records)
        f ids)
      (do
        let ids ← Store.finish operation
          (matchingIds firstOnly p ((← get).collection name).records)
        g ids) := by
  refine get_bind fun s t h => ?_
  rw [h.collection name]
  exact bind (finish operation (lasting_matchingIds firstOnly p _)) hf

theorem update (name : String) (p : Predicate) (edit : Edit) :
    Lockstep (α := Nat) id (answer (.update name p edit (some id)))
      (answer (.update name p edit none)) := by
  refine bind (begin _ _ _ _) fun _ => bind checkSession fun _ => ?_
  exact matching_bind _ _ _ _ fun ids => bind (updateIds _ _ _ _) fun _ => pure _

theorem findAndUpdate (name : String) (p : Predicate) (edit : Edit) :
    Lockstep (α := Option Record) id (answer (.findAndUpdate name p edit (some id)))
      (answer (.findAndUpdate name p edit none)) := by
  refine bind (begin _ _ _ _) fun _ => bind checkSession fun _ => ?_
  exact matching_bind _ _ _ _ fun ids => bind (updateIds _ _ _ _) fun _ => pure _

theorem upsert (name : String) (p : Predicate) (edit : Edit) :
    Lockstep (α := Upserted) id (answer (.upsert name p edit (some id)))
      (answer (.upsert name p edit none)) := by
  refine bind (begin _ _ _ _) fun _ => bind checkSession fun _ => ?_
  refine matching_bind _ _ _ _ fun ids => ite (insertSeed name p edit) ?_
  exact bind (updateIds _ _ _ _) fun _ => pure _

theorem delete (name : String) (p : Predicate) :
    Lockstep (α := Nat) id (answer (.delete name p (some id)))
      (answer (.delete name p none)) := by
  refine bind (begin _ _ _ _) fun _ => bind checkSession fun _ => ?_
  exact matching_bind _ _ _ _ fun ids => deleteIds name ids

end Lockstep

end Store

end ObjectEngine
