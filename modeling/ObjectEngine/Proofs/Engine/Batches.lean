import ObjectEngine.Proofs.Engine.Ensures

/-!
# What a batch guarantees

A batch guarantees what its writes guarantee one by one. In a transaction they run in order on
one session, which is started, opened, closed and ended around them, and all of it may be tried
again (`Batch.ensures_transaction`); otherwise they run at once (`Batch.ensures_independent`).
Either way each write has a result of its own.

What has to be known of the calls on sessions is `Batch.Sessions`: an invariant that every call
keeps needs nothing more, and another may ask that the session was started under it. Where more is
to be known while a session is at work, such as what its undo log holds, each session is watched
with an invariant of its own (`Batch.Watched`, `Batch.watched_transaction`).
-/

namespace ObjectEngine

namespace Batch

/-- **The sessions of batches** keep `I`, where `S` is known of those that were started. -/
structure Sessions (I : Store → Prop) (S : SessionId → Prop) : Prop where
  start : StoreAction.Ensures I S (Program.call .startSession)
  openTransaction (id : SessionId) : S id →
    StoreAction.Ensures I (fun _ => True) (Program.call (.startTransaction id))
  commit (id : SessionId) : S id →
    StoreAction.Ensures I (fun _ => True) (Program.call (.commit id))
  abort (id : SessionId) : S id → StoreAction.Ensures I (fun _ => True) (Program.call (.abort id))
  finish (id : SessionId) : S id →
    StoreAction.Ensures I (fun _ => True) (Program.call (.endSession id))

/-- **The calls around the writes** of a transaction on one session keep `I`. -/
structure Surrounds (I : Store → Prop) (id : SessionId) : Prop where
  openTransaction : StoreAction.Ensures I (fun _ => True) (Program.call (.startTransaction id))
  commit : StoreAction.Ensures I (fun _ => True) (Program.call (.commit id))
  abort : StoreAction.Ensures I (fun _ => True) (Program.call (.abort id))
  finish : StoreAction.Ensures I (fun _ => True) (Program.call (.endSession id))

theorem Sessions.surrounds {I : Store → Prop} {S : SessionId → Prop} (h : Sessions I S)
    {id : SessionId} (hid : S id) : Surrounds I id :=
  ⟨h.openTransaction id hid, h.commit id hid, h.abort id hid, h.finish id hid⟩

/-- An invariant that every call keeps. -/
theorem Sessions.of_calls {I : Store → Prop} (h : ∀ s c, I s → I (s.run c).store) :
    Sessions I fun _ => True where
  start := .of_calls h _
  openTransaction _ _ := .of_calls h _
  commit _ _ := .of_calls h _
  abort _ _ := .of_calls h _
  finish _ _ := .of_calls h _

/-- Invariants that sessions keep one by one. -/
theorem Sessions.all {ι : Type} {I : ι → Store → Prop} {S : ι → SessionId → Prop}
    (h : ∀ i, Sessions (I i) (S i)) : Sessions (fun s => ∀ i, I i s) fun id => ∀ i, S i id where
  start := .all fun i => (h i).start
  openTransaction id hid :=
    .mono (fun _ _ => trivial) (.all fun i => (h i).openTransaction id (hid i))
  commit id hid := .mono (fun _ _ => trivial) (.all fun i => (h i).commit id (hid i))
  abort id hid := .mono (fun _ _ => trivial) (.all fun i => (h i).abort id (hid i))
  finish id hid := .mono (fun _ _ => trivial) (.all fun i => (h i).finish id (hid i))

variable {I : Store → Prop} {S : SessionId → Prop} {R : Write → WriteResult → Prop}
  {writes : List Write}

theorem ensures_abort {α : Type} {Q : α → Prop} {session : SessionId}
    (hsession : Surrounds I session) (cause : EngineError) : (abort session cause).Ensures I Q :=
  .bind (.outcomeOf hsession.abort) fun _ _ => .throw

/-- **The writes of a transaction**, up to the first that fails. -/
theorem ensures_runOn {session : SessionId} (hsession : Surrounds I session)
    (hrun : ∀ write ∈ writes, (write.run (some session)).Ensures I (R write)) :
    (runOn session writes).Ensures I (List.Forall₂ R writes) := by
  refine .bind hsession.openTransaction fun _ _ => ?_
  refine .bind (.outcomeOf ((StoreAction.judgement I).forall₂_mapM hrun)) fun outcome houtcome => ?_
  -- a write that fails, or a commit that fails, takes the transaction back
  cases outcome with
  | error e => exact ensures_abort hsession e
  | ok results =>
    refine .bind (.outcomeOf hsession.commit) fun committed _ => ?_
    cases committed with
    | error e => exact ensures_abort hsession e
    | ok u => exact .pure (houtcome results rfl)

theorem ensures_attempt (hsessions : Sessions I S)
    (hrun : ∀ session, ∀ write ∈ writes, (write.run session).Ensures I (R write)) :
    (attempt writes).Ensures I (List.Forall₂ R writes) := by
  refine .bind hsessions.start fun session hsession => ?_
  have hcalls := hsessions.surrounds hsession
  refine .bind (.outcomeOf (ensures_runOn hcalls (hrun (some session)))) fun outcome houtcome => ?_
  exact .bind (.outcomeOf hcalls.finish) fun _ _ => .outcome houtcome

/-- **A transaction**, however often it is tried. -/
theorem ensures_transaction (hsessions : Sessions I S)
    (hrun : ∀ session, ∀ write ∈ writes, (write.run session).Ensures I (R write))
    (retries number : Nat) :
    (transaction writes retries number).Ensures I (List.Forall₂ R writes) := by
  induction retries generalizing number with
  | zero => exact ensures_attempt hsessions hrun
  | succ retries ih =>
    refine .bind (.outcomeOf (ensures_attempt hsessions hrun)) fun outcome houtcome => ?_
    cases outcome with
    | ok results => exact .pure (houtcome results rfl)
    | error e =>
      refine .ite (fun _ => ?_) fun _ => .throw
      -- the delay before the next try asks nothing of the store
      exact .bind (Q := fun _ => True) (.lift (.request fun _ h => ⟨h, trivial⟩))
        fun _ _ => ih (number + 1)

/-- **Writes at once**, each for itself. -/
theorem ensures_independent
    (hrun : ∀ write ∈ writes, (write.run none).Ensures I (R write)) {w : World} (h : I w.store) :
    I (independent writes w).2.store ∧
      List.Forall₂ (fun write outcome => ∀ result, outcome = .ok result → R write result) writes
        (independent writes w).1 :=
  Program.Ensures.runTogether _ h (List.forall₂_map_right_iff.2 (List.forall₂_same.2 hrun))

/-! ### Sessions that are watched -/

/-- A property of what work in two parts comes to and leaves. -/
theorem run_bind_cases {α β : Type} {work : StoreAction α} {f : α → StoreAction β} {w : World}
    {P : Outcome β × World → Prop}
    (herror : ∀ e v, work.run.run w = (.error e, v) → P (.error e, v))
    (hok : ∀ a v, work.run.run w = (.ok a, v) → P ((f a).run.run v)) :
    P ((work >>= f).run.run w) := by
  rw [StoreAction.run_bind]
  rcases hrun : work.run.run w with ⟨_ | a, v⟩
  · exact herror _ v hrun
  · exact hok a v hrun

/-- The same where the failure of the first part is passed over. -/
theorem run_outcomeOf_cases {α β : Type} {work : StoreAction α} {f : Outcome α → StoreAction β}
    {w : World} {P : Outcome β × World → Prop}
    (h : ∀ r v, work.run.run w = (r, v) → P ((f r).run.run v)) :
    P ((outcomeOf work >>= f).run.run w) := by
  rw [StoreAction.run_outcomeOf_bind]
  exact h _ _ rfl

theorem store_of_run_call {c : Store.Call} {w v : World} {r : Outcome c.Answer}
    (h : (Program.call c).run.run w = (r, v)) :
    (w.store.run c).outcome = r ∧ (w.store.run c).store = v.store :=
  ⟨congrArg Prod.fst h, congrArg (fun out => out.2.store) h⟩

/-- **Sessions that are watched one by one**: `I` is known of the store while no session is at
work, and `G id` from the start of the session `id` to its end. -/
structure Watched (I : Store → Prop) (G : SessionId → Store → Prop) : Prop where
  start (s : Store) : I s → I (s.run .startSession).store ∧
    ∀ id, (s.run .startSession).outcome = .ok id → G id (s.run .startSession).store
  surrounds (id : SessionId) : Surrounds (G id) id
  leave (id : SessionId) (s : Store) : G id s → I s

section

variable {G : SessionId → Store → Prop} (hwatched : Watched I G)
  (hrun : ∀ id, ∀ write ∈ writes, (write.run (some id)).Ensures (G id) (R write))

include hwatched hrun

/-- **The step**: an attempt at a transaction. -/
theorem watched_attempt {w : World} (hw : I w.store) :
    I ((attempt writes).run.run w).2.store := by
  obtain ⟨hstarted, hopened⟩ := hwatched.start w.store hw
  refine run_bind_cases (P := fun out => I out.2.store) (fun e v hcall => ?_) fun id v hcall => ?_
  · exact (store_of_run_call hcall).2 ▸ hstarted
  · obtain ⟨houtcome, hstore⟩ := store_of_run_call hcall
    have hv : G id v.store := hstore ▸ hopened id houtcome
    have hrest : StoreAction.Ensures (G id) (fun _ => True) (do
        let outcome ← outcomeOf (runOn id writes)
        let _ ← outcomeOf (Program.call (.endSession id))
        outcome) :=
      .bind (.outcomeOf (ensures_runOn (hwatched.surrounds id) (hrun id))) fun _ _ =>
        .bind (.outcomeOf (hwatched.surrounds id).finish) fun _ _ => .outcome fun _ _ => trivial
    exact hwatched.leave id _ (Program.Ensures.run hrest hv).1

/-- **The run**: a transaction, however often it is tried. -/
theorem watched_transaction (retries number : Nat) {w : World} (hw : I w.store) :
    I ((transaction writes retries number).run.run w).2.store := by
  induction retries generalizing number w with
  | zero => exact watched_attempt hwatched hrun hw
  | succ retries ih =>
    refine run_outcomeOf_cases (P := fun out => I out.2.store) fun r v hattempt => ?_
    have hv : I v.store := by
      have hkept := watched_attempt hwatched hrun hw
      rwa [hattempt] at hkept
    cases r with
    | ok results => exact hv
    | error e =>
      by_cases htransient : e.isTransient = true
      · simp only [htransient, if_true]
        exact ih (number + 1) (w := v.advance number) hv
      · simp only [htransient]
        exact hv

end

end Batch

end ObjectEngine
