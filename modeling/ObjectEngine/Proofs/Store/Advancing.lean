import ObjectEngine.Proofs.Store.Quiet

/-!
# Ids that are made up once

A store makes up an id by a number that it counts up (`Store.freshText`). Different numbers are
different ids (`Store.freshText_inj`), and where no fault is due no call counts down
(`Store.Quiet.run_advances`). So records whose ids were made up before are not in the way of a new
one.

The log of the calls is told apart from the rest of a store in the same way: a call adds itself to
it, and what is then done for the call adds nothing more (`Store.Quiet.calls_run`).
-/

namespace ObjectEngine

namespace Store

variable {α β : Type} {s t u : Store}

/-! ### Ids by number -/

/-- **Different numbers make different ids.** -/
theorem freshText_inj {m n : Nat} (h : freshText m = freshText n) : m = n := by
  have hvalue (k : Nat) : Nat.ofDigitChars 10 ((freshText k).toList.drop 1) 0 = k := by
    simp only [freshText, String.toList_ofList, List.cons_append, List.drop_one, List.tail_cons]
    rw [Nat.ofDigitChars_append, Nat.ofDigitChars_replicate_zero, Nat.mul_zero,
      Nat.ofDigitChars_ten_toDigits]
  rw [← hvalue m, h, hvalue n]

/-- **A store that has moved on**: the same faults are set up, and no id is made up again. -/
structure Advances (s t : Store) : Prop where
  faults : t.faults = s.faults
  nextId : s.nextId ≤ t.nextId

theorem Advances.refl (s : Store) : Advances s s := ⟨rfl, Nat.le_refl _⟩

theorem Advances.trans (h : Advances s t) (h' : Advances t u) : Advances s u :=
  ⟨h'.faults.trans h.faults, Nat.le_trans h.nextId h'.nextId⟩

theorem Rests.advances (h : Rests s t) : Advances s t := ⟨h.faults, Nat.le_of_eq h.nextId.symm⟩

theorem Quiet.advances (h : s.Quiet) (ht : Advances s t) : t.Quiet := h.of_faults ht.faults

/-! ### Work within a relation -/

/-- **A relation that sees no more of a store than its faults, its calls and its ids**: it holds
where the first two stay the same and no id is made up again. -/
structure Progress where
  holds : Store → Store → Prop
  trans {s t u : Store} : holds s t → holds t u → holds s u
  faults {s t : Store} : holds s t → t.faults = s.faults
  of_same {s t : Store} : t.faults = s.faults → t.calls = s.calls → s.nextId ≤ t.nextId →
    holds s t

theorem Progress.refl (R : Progress) (s : Store) : R.holds s s :=
  R.of_same rfl rfl (Nat.le_refl _)

/-- **Work that stays within a relation** where no fault is due. -/
def Stays (R : Progress) (x : Work α) : Prop := ∀ s, s.Quiet → R.holds s (x.run s).2

namespace Stays

variable {R : Progress}

theorem pure (a : α) : Stays R (pure a : Work α) := fun s _ => R.refl s

theorem throw (e : EngineError) : Stays R (throw e : Work α) := fun s _ => R.refl s

theorem bind {x : Work α} {f : α → Work β} (hx : Stays R x) (hf : ∀ a, Stays R (f a)) :
    Stays R (x >>= f) := by
  intro s hs
  have hfirst := hx s hs
  rw [run_bind]
  rcases hrun : x.run s with ⟨_ | a, t⟩ <;> rw [hrun] at hfirst
  · exact hfirst
  · exact R.trans hfirst (hf a t (hs.of_faults (R.faults hfirst)))

theorem ite {p : Prop} [Decidable p] {x y : Work α} (hx : Stays R x) (hy : Stays R y) :
    Stays R (if p then x else y) := by
  split
  · exact hx
  · exact hy

/-- Work that may be left out before the rest. -/
theorem when {p : Prop} [Decidable p] {x : Work PUnit} {f : PUnit → Work β} (hx : Stays R x)
    (hf : ∀ u, Stays R (f u)) : Stays R (if p then x >>= f else f ⟨⟩) :=
  ite (hx.bind hf) (hf ⟨⟩)

theorem get_bind {f : Store → Work β} (hf : ∀ s, Stays R (f s)) :
    Stays R (get >>= f) := by
  intro s hs
  rw [run_bind, run_get]
  exact hf s s hs

/-- A change of neither the faults nor the calls nor the number of the next id. -/
theorem modify {f : Store → Store} (hfaults : ∀ s, (f s).faults = s.faults := by exact fun _ => rfl)
    (hcalls : ∀ s, (f s).calls = s.calls := by exact fun _ => rfl)
    (hnext : ∀ s, (f s).nextId = s.nextId := by exact fun _ => rfl) :
    Stays R (modify f : Work PUnit) := fun s _ =>
  R.of_same (hfaults s) (hcalls s) (Nat.le_of_eq (hnext s).symm)

theorem forIn {f : α → PUnit → Work (ForInStep PUnit)} {xs : List α}
    (h : ∀ a, Stays R (f a ⟨⟩)) : Stays R (forIn xs PUnit.unit f) := by
  induction xs with
  | nil => exact pure _
  | cons a rest ih =>
    rw [List.forIn_cons]
    refine bind (h a) fun step => ?_
    cases step with
    | done u => exact pure _
    | yield u => exact ih

theorem finish (operation : String) (outcome : Outcome α) :
    Stays R (finish operation outcome) := by
  intro s _
  rw [run_finish]
  cases outcome with
  | ok a => exact R.refl s
  | error e => exact R.of_same rfl rfl (Nat.le_refl _)

/-- A call is recorded, as far as the relation allows. -/
theorem begin {operation name : String} {session : Option SessionId}
    (h : ∀ s : Store, R.holds s (s.noted operation name session)) :
    Stays R (begin operation name session) := by
  intro s hs
  rw [run_begin, hs operation]
  exact h s

theorem checkSession (session : Option SessionId) : Stays R (checkSession session) := by
  intro s _
  rcases run_checkSession session s with h | ⟨e, h⟩ <;> rw [h] <;> exact R.refl s

theorem recordUndo (session : Option SessionId) (entry : UndoEntry) :
    Stays R (recordUndo session entry) := by
  intro s _
  rw [run_recordUndo]
  unfold logged
  split
  · exact R.refl s
  · split
    · split <;> exact R.of_same rfl rfl (Nat.le_refl _)
    · exact R.refl s

theorem freshId : Stays R freshId := fun _ _ => R.of_same rfl rfl (Nat.le_succ _)

/-! ### Writes -/

theorem updateIds (operation name : String) (edit : Edit) (session : Option SessionId)
    (ids : List String) : Stays R (updateIds operation name edit session ids) := by
  refine get_bind fun s => bind modify fun _ => bind (finish _ _) fun staged => ?_
  refine bind modify fun _ => bind (forIn fun w => ?_) fun _ => pure _
  exact bind (recordUndo _ _) fun _ => pure _

theorem insertRecord (operation name : String) (session : Option SessionId) (id : String)
    (record : Record) : Stays R (insertRecord operation name session id record) := by
  refine get_bind fun s => bind modify fun _ => bind (finish _ _) fun _ => ?_
  exact bind modify fun _ => recordUndo _ _

theorem insertSeed (name : String) (filter : Predicate) (edit : Edit)
    (session : Option SessionId) : Stays R (insertSeed name filter edit session) := by
  refine bind (finish _ _) fun record => ?_
  cases record.id? with
  | some id => exact bind (pure (id, record)) fun _ => bind (insertRecord _ _ _ _ _) fun _ => pure _
  | none =>
    refine bind (x := Store.freshId) freshId fun id => ?_
    exact bind (pure _) fun _ => bind (insertRecord _ _ _ _ _) fun _ => pure _

theorem deleteIds (name : String) (session : Option SessionId) (ids : List String) :
    Stays R (deleteIds name session ids) := by
  refine get_bind fun s => ?_
  split
  · exact pure _
  · refine bind modify fun _ => bind (forIn fun w => ?_) fun _ => pure _
    exact bind (recordUndo _ _) fun _ => pure _

theorem rollBack (id : SessionId) : Stays R (rollBack id) := by
  refine get_bind fun s => ?_
  split
  · exact pure _
  · refine bind modify fun _ => bind (forIn fun entry => ?_) fun _ => pure _
    exact bind modify fun _ => pure _

/-- **The work of a call** stays within the relation. To end a session may take another call,
which is recorded, too. -/
theorem perform {call : Call} (h : ∀ id, call = .endSession id →
    ∀ s : Store, R.holds s (s.noted "abortTransaction" "" (some id))) :
    Stays R (perform call) := by
  cases call with
  | connect uri => exact bind modify fun _ => modify
  | close => exact get_bind fun s => ite (bind modify fun _ => modify) (pure _)
  | find name sel session => exact get_bind fun s => finish _ _
  | count name filter limit session => exact get_bind fun s => finish _ _
  | insert name record session =>
    exact bind (checkSession _) fun _ => bind (finish _ _) fun id => insertRecord _ _ _ _ _
  | update name filter edit session =>
    refine bind (checkSession _) fun _ => get_bind fun s => bind (finish _ _) fun ids => ?_
    exact bind (updateIds _ _ _ _ _) fun _ => pure _
  | findAndUpdate name filter edit session =>
    refine bind (checkSession _) fun _ => get_bind fun s => bind (finish _ _) fun ids => ?_
    exact bind (updateIds _ _ _ _ _) fun _ => pure _
  | upsert name filter edit session =>
    refine bind (checkSession _) fun _ => get_bind fun s => bind (finish _ _) fun ids => ?_
    exact ite (insertSeed _ _ _ _) (bind (updateIds _ _ _ _ _) fun _ => pure _)
  | delete name filter session =>
    refine bind (checkSession _) fun _ => get_bind fun s => bind (finish _ _) fun ids => ?_
    exact deleteIds _ _ _
  | drop name => exact get_bind fun s => bind modify fun _ => pure _
  | createIndex name index =>
    refine get_bind fun s => bind modify fun _ => ?_
    split
    · exact finish _ _
    · exact bind (finish _ _) fun _ => modify
  | dropIndex name index =>
    refine get_bind fun s => ?_
    split
    · exact ite modify (finish _ _)
    · exact finish _ _
  | listIndexes name => exact get_bind fun s => pure _
  | startSession => exact get_bind fun s => bind modify fun _ => pure _
  | startTransaction id =>
    refine get_bind fun s => ?_
    split
    · exact throw _
    · exact ite (bind (throw _) fun _ => modify) modify
  | commit id =>
    refine modify (fun s => ?_) (fun s => ?_) fun s => ?_
    · split <;> rfl
    · split <;> rfl
    · split <;> rfl
  | abort id => exact rollBack id
  | endSession id =>
    refine get_bind fun s => ite ?_ modify
    exact bind (begin (h id rfl)) fun _ => bind (rollBack id) fun _ => modify

end Stays

/-! ### Calls -/

/-- Stores that move on. -/
def Progress.advancing : Progress where
  holds := Advances
  trans := .trans
  faults := Advances.faults
  of_same hfaults _ hnext := ⟨hfaults, hnext⟩

/-- Stores that record no call. -/
def Progress.unrecorded : Progress where
  holds s t := t.faults = s.faults ∧ t.calls = s.calls
  trans h h' := ⟨h'.1.trans h.1, h'.2.trans h.2⟩
  faults h := h.1
  of_same hfaults hcalls _ := ⟨hfaults, hcalls⟩

/-- **A call moves on** where no fault is due. -/
theorem Quiet.run_advances (h : s.Quiet) (call : Call) : Advances s (s.run call).store := by
  have hanswer : Stays .advancing (answer call) :=
    .bind (.begin fun _ => ⟨rfl, Nat.le_refl _⟩) fun _ =>
      .perform fun _ _ _ => ⟨rfl, Nat.le_refl _⟩
  exact hanswer s h

/-- **A call is recorded once** where no fault is due, unless it ends a session. -/
theorem Quiet.calls_run (h : s.Quiet) {call : Call} (hcall : ∀ id, call ≠ .endSession id) :
    (s.run call).store.calls = ⟨call.operation, call.collection, call.session?⟩ :: s.calls := by
  have hperform : Stays .unrecorded (perform call) := .perform fun id hid => absurd hid (hcall id)
  have hrun : (s.run call).store = ((perform call).run
      (s.noted call.operation call.collection call.session?)).2 :=
    congrArg Prod.snd (h.run_answer call)
  have hquiet : (s.noted call.operation call.collection call.session?).Quiet := h.of_faults rfl
  rw [hrun]
  exact (hperform _ hquiet).2

end Store

end ObjectEngine
