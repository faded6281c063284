import ObjectEngine.Engine.Operations
import ObjectEngine.Proofs.Outcome

/-!
# What a program guarantees

`Program.Ensures I Q p` says that the program `p` keeps the invariant `I` of the store and
that its result satisfies `Q`, whatever happens in between as long as `I` holds: each request
is judged on every store with the invariant, not on the one that the request before it left.
So a guarantee survives being run alone (`Program.Ensures.run`), being run among others that
give it too (`Program.Ensures.runTogether`) and being tried again.

Work that may fail is judged by its results only (`StoreAction.Ensures`), and work with a
schema cache keeps an invariant of the cache as well (`Action.Ensures`). The rules follow the
ways in which the engine's work is put together: sequences, calls, failures that are passed
over, loops.
-/

namespace ObjectEngine

variable {α β : Type}

namespace Program

/-! ### Programs -/

/-- **What a program guarantees**: it keeps `I`, and its result satisfies `Q`. -/
def Ensures (I : Store → Prop) (Q : α → Prop) : Program α → Prop
  | .done a => Q a
  | .ask r next => ∀ w : World, I w.store →
      I (w.serve r).2.2.store ∧ (next (w.serve r).1).Ensures I Q

namespace Ensures

variable {I : Store → Prop} {Q : α → Prop} {R : β → Prop}

theorem mono {Q' : α → Prop} (h : ∀ a, Q a → Q' a) {p : Program α} (hp : p.Ensures I Q) :
    p.Ensures I Q' := by
  induction p with
  | done a => exact h a hp
  | ask r next ih => exact fun w hw => ⟨(hp w hw).1, ih _ (hp w hw).2⟩

theorem bind {p : Program α} {f : α → Program β} (hp : p.Ensures I Q)
    (hf : ∀ a, Q a → (f a).Ensures I R) : (p >>= f).Ensures I R := by
  induction p with
  | done a => exact hf a hp
  | ask r next ih => exact fun w hw => ⟨(hp w hw).1, ih _ (hp w hw).2⟩

/-- A single request. -/
theorem request {r : Request} {Q : r.Answer → Prop}
    (h : ∀ w : World, I w.store → I (w.serve r).2.2.store ∧ Q (w.serve r).1) :
    (Program.request r).Ensures I Q :=
  h

/-- **Guarantees that are each given** are given together. -/
theorem all {ι : Type} {I : ι → Store → Prop} {Q : ι → α → Prop} {p : Program α}
    (h : ∀ i, p.Ensures (I i) (Q i)) : p.Ensures (fun s => ∀ i, I i s) fun a => ∀ i, Q i a := by
  induction p with
  | done a => exact h
  | ask r next ih =>
    exact fun w hw => ⟨fun i => (h i w (hw i)).1, ih _ fun i => (h i w (hw i)).2⟩

/-- Every program keeps what every call keeps. -/
theorem of_calls (h : ∀ s c, I s → I (s.run c).store) (p : Program α) :
    p.Ensures I fun _ => True := by
  induction p with
  | done a => trivial
  | ask r next ih =>
    refine fun w hw => ⟨?_, ih _⟩
    cases r with
    | store call => exact h w.store call hw
    | _ => exact hw

/-- **Run alone**, a program does what it guarantees. -/
theorem run {p : Program α} (hp : p.Ensures I Q) {w : World} (hw : I w.store) :
    I (p.run w).2.store ∧ Q (p.run w).1 := by
  induction p generalizing w with
  | done a => exact ⟨hw, hp⟩
  | ask r next ih => exact ih _ (hp w hw).2 (hp w hw).1

end Ensures

/-- A program in two parts runs one after the other. -/
theorem run_bind (p : Program α) (f : α → Program β) (w : World) :
    (p >>= f).run w = (f (p.run w).1).run (p.run w).2 := by
  induction p generalizing w with
  | done a => rfl
  | ask r next ih => exact ih _ _

end Program

/-! ### Several programs at once -/

namespace Task

variable {I : Store → Prop} {Q : α → Prop}

/-- What a program among others guarantees from now on. -/
def Ensures (I : Store → Prop) (Q : α → Prop) : Task α → Prop
  | .finished a => Q a
  | .asleep _ rest => rest.Ensures I Q

theorem ensures_start {p : Program α} (hp : p.Ensures I Q) {w : World} (hw : I w.store) :
    I (start p w).2.store ∧ (start p w).1.Ensures I Q := by
  induction p generalizing w with
  | done a => exact ⟨hw, hp⟩
  | ask r next ih =>
    obtain ⟨hserved, hnext⟩ := hp w hw
    by_cases hwait : (w.serve r).2.1 = 0
    · simp only [start, hwait, if_true]
      exact ih _ hnext hserved
    · simp only [start, hwait, if_false]
      exact ⟨hserved, hnext⟩

theorem ensures_wake {task : Task α} (h : task.Ensures I Q) {w : World} (hw : I w.store) :
    I (task.wake w).2.store ∧ (task.wake w).1.Ensures I Q := by
  cases task with
  | finished a => exact ⟨hw, h⟩
  | asleep untilMs rest =>
    rw [wake]
    split
    · exact ensures_start h hw
    · exact ⟨hw, h⟩

theorem ensures_finish {task : Task α} (h : task.Ensures I Q) {w : World} (hw : I w.store) :
    I (task.finish w).2.store ∧ Q (task.finish w).1 := by
  cases task with
  | finished a => exact ⟨hw, h⟩
  | asleep untilMs rest => exact Program.Ensures.run h hw

end Task

namespace World

variable {ι : Type} {I : Store → Prop} {Q : ι → α → Prop} {R : ι → β → Prop} {labels : List ι}

/-- A world threaded through a list keeps what every step keeps. -/
theorem mapTasks_ensures {f : World → α → β × World}
    (hf : ∀ i w a, I w.store → Q i a → I (f w a).2.store ∧ R i (f w a).1) {w : World}
    (hw : I w.store) {xs : List α} (hxs : List.Forall₂ Q labels xs) :
    I (mapTasks f w xs).2.store ∧ List.Forall₂ R labels (mapTasks f w xs).1 := by
  induction hxs generalizing w with
  | nil => exact ⟨hw, .nil⟩
  | cons ha _ ih =>
    obtain ⟨hfirst, hb⟩ := hf _ w _ hw ha
    obtain ⟨hlast, hbs⟩ := ih hfirst
    exact ⟨hlast, .cons hb hbs⟩

theorem runTasks_ensures (rounds : Nat) {w : World} (hw : I w.store) {tasks : List (Task α)}
    (htasks : List.Forall₂ (fun i task => Task.Ensures I (Q i) task) labels tasks) :
    I (runTasks rounds w tasks).2.store ∧
      List.Forall₂ Q labels (runTasks rounds w tasks).1 := by
  have hfinish {w : World} (hw : I w.store) {tasks : List (Task α)}
      (htasks : List.Forall₂ (fun i task => Task.Ensures I (Q i) task) labels tasks) :
      I (mapTasks Task.finish w tasks).2.store ∧
        List.Forall₂ Q labels (mapTasks Task.finish w tasks).1 :=
    mapTasks_ensures (fun i w task hw h => Task.ensures_finish h hw) hw htasks
  induction rounds generalizing w tasks with
  | zero => exact hfinish hw htasks
  | succ rounds ih =>
    rw [runTasks]
    split
    · exact hfinish hw htasks
    · rename_i t ht
      -- the clock moves on to the next task that is due, and all due by then go on
      have hwoken := mapTasks_ensures (Q := fun i task => Task.Ensures I (Q i) task)
        (R := fun i task => Task.Ensures I (Q i) task)
        (w := { w with clockMs := max w.clockMs t })
        (fun i w task hw h => Task.ensures_wake h hw) hw htasks
      exact ih hwoken.1 hwoken.2

end World

/-- **Run at once**, programs do what they all guarantee, each with a result of its own. -/
theorem Program.Ensures.runTogether {ι : Type} {I : Store → Prop} {Q : ι → α → Prop}
    {labels : List ι} (rounds : Nat) {w : World} (hw : I w.store) {programs : List (Program α)}
    (h : List.Forall₂ (fun i p => Program.Ensures I (Q i) p) labels programs) :
    I (w.runTogether rounds programs).2.store ∧
      List.Forall₂ Q labels (w.runTogether rounds programs).1 := by
  have hstarted := World.mapTasks_ensures (Q := fun i p => Program.Ensures I (Q i) p)
    (R := fun i task => Task.Ensures I (Q i) task)
    (fun i w p hw hp => Task.ensures_start hp hw) hw h
  exact World.runTasks_ensures rounds hstarted.1 hstarted.2

/-! ### Sequences and loops -/

/-- A judgement on the results of work that can be read off its parts. -/
structure Judgement (m : Type → Type) [Monad m] where
  holds {α : Type} (Q : α → Prop) (work : m α) : Prop
  mono {α : Type} {Q Q' : α → Prop} (h : ∀ a, Q a → Q' a) {work : m α} :
    holds Q work → holds Q' work
  ofPure {α : Type} {Q : α → Prop} {a : α} : Q a → holds Q (pure a)
  bind {α β : Type} {Q : α → Prop} {R : β → Prop} {work : m α} {f : α → m β} :
    holds Q work → (∀ a, Q a → holds R (f a)) → holds R (work >>= f)

namespace Judgement

variable {m : Type → Type} [Monad m] (J : Judgement m) {Q : α → Prop} {R : β → Prop}

/-- One result for each item. -/
theorem forall₂_mapM {f : α → m β} {R : α → β → Prop} {xs : List α}
    (h : ∀ a ∈ xs, J.holds (R a) (f a)) : J.holds (List.Forall₂ R xs) (xs.mapM f) := by
  -- the loop collects its results in reverse, in front of those that are done
  suffices ∀ (before : List α) (done : List β), List.Forall₂ R before done.reverse →
      J.holds (List.Forall₂ R (before ++ xs)) (List.mapM.loop f xs done) from
    this [] [] .nil
  induction xs with
  | nil =>
    intro before done hdone
    exact J.ofPure (by rwa [List.append_nil])
  | cons a rest ih =>
    intro before done hdone
    refine J.bind (h a List.mem_cons_self) fun b hb => ?_
    rw [show before ++ a :: rest = (before ++ [a]) ++ rest by simp]
    refine ih (fun a ha => h a (List.mem_cons_of_mem _ ha)) (before ++ [a]) (b :: done) ?_
    rw [List.reverse_cons]
    exact List.rel_append hdone (.cons hb .nil)

/-- What holds of the result for each item holds of all results. -/
theorem mapM {f : α → m β} {xs : List α} (h : ∀ a ∈ xs, J.holds R (f a)) :
    J.holds (fun bs => ∀ b ∈ bs, R b) (xs.mapM f) := by
  refine J.mono (fun bs hbs b hb => ?_) (J.forall₂_mapM (R := fun _ => R) h)
  obtain ⟨_, _, hR⟩ := Outcome.exists_of_forall₂ hbs hb
  exact hR

/-- A fold whose steps keep what is known of the state. -/
theorem foldlM {f : β → α → m β} {xs : List α}
    (h : ∀ b, R b → ∀ a ∈ xs, J.holds R (f b a)) {b : β} (hb : R b) :
    J.holds R (xs.foldlM f b) := by
  induction xs generalizing b with
  | nil => exact J.ofPure hb
  | cons a rest ih =>
    exact J.bind (h b hb a List.mem_cons_self) fun b hb =>
      ih (fun b hb a ha => h b hb a (List.mem_cons_of_mem _ ha)) hb

/-- A loop that is run for what it does. -/
theorem forIn {f : α → PUnit → m (ForInStep PUnit)} {xs : List α}
    (h : ∀ a ∈ xs, J.holds (fun _ => True) (f a ⟨⟩)) :
    J.holds (fun _ => True) (forIn xs PUnit.unit f) := by
  induction xs with
  | nil => exact J.ofPure trivial
  | cons a rest ih =>
    rw [List.forIn_cons]
    refine J.bind (h a List.mem_cons_self) fun step _ => ?_
    cases step with
    | done b => exact J.ofPure trivial
    | yield b => exact ih fun a ha => h a (List.mem_cons_of_mem _ ha)

end Judgement

/-! ### Work that may fail -/

namespace StoreAction

/-- **What work on the store guarantees**: it keeps `I`, and if it succeeds its result
satisfies `Q`. -/
def Ensures (I : Store → Prop) (Q : α → Prop) (work : StoreAction α) : Prop :=
  Program.Ensures I (fun r => ∀ a, r = .ok a → Q a) work.run

variable {I : Store → Prop} {Q : α → Prop} {R : β → Prop}

namespace Ensures

theorem mono {Q' : α → Prop} (h : ∀ a, Q a → Q' a) {work : StoreAction α}
    (hwork : work.Ensures I Q) : work.Ensures I Q' :=
  Program.Ensures.mono (fun _ hr a ha => h a (hr a ha)) hwork

theorem pure {a : α} (h : Q a) : (Pure.pure a : StoreAction α).Ensures I Q :=
  fun _ hb => Except.ok.inj hb ▸ h

/-- Guarantees that are each given are given together. -/
theorem all {ι : Type} {I : ι → Store → Prop} {Q : ι → α → Prop} {work : StoreAction α}
    (h : ∀ i, work.Ensures (I i) (Q i)) :
    work.Ensures (fun s => ∀ i, I i s) fun a => ∀ i, Q i a :=
  Program.Ensures.mono (fun _ hr a ha i => hr i a ha) (Program.Ensures.all h)

/-- Work keeps what every call keeps. -/
theorem of_calls (h : ∀ s c, I s → I (s.run c).store) (work : StoreAction α) :
    work.Ensures I fun _ => True :=
  Program.Ensures.mono (fun _ _ _ _ => trivial) (Program.Ensures.of_calls h work.run)

theorem throw {e : EngineError} : (MonadExcept.throw e : StoreAction α).Ensures I Q :=
  nofun

theorem bind {work : StoreAction α} {f : α → StoreAction β} (hwork : work.Ensures I Q)
    (hf : ∀ a, Q a → (f a).Ensures I R) : (work >>= f).Ensures I R := by
  refine Program.Ensures.bind hwork fun r hr => ?_
  cases r with
  | ok a => exact hf a (hr a rfl)
  | error e => exact fun b hb => absurd hb (by simp)

theorem ite {p : Prop} [Decidable p] {work work' : StoreAction α}
    (hwork : p → work.Ensures I Q) (hwork' : ¬p → work'.Ensures I Q) :
    StoreAction.Ensures I Q (if p then work else work') := by
  split
  · exact hwork ‹p›
  · exact hwork' ‹¬p›

/-- A choice whose branches go on in the same way. -/
theorem ite_bind {p : Prop} [Decidable p] {work work' : StoreAction α} {f : α → StoreAction β}
    (hwork : p → work.Ensures I Q) (hwork' : ¬p → work'.Ensures I Q)
    (hf : ∀ a, Q a → (f a).Ensures I R) :
    StoreAction.Ensures I R (if p then work >>= f else work' >>= f) :=
  .ite (fun h => .bind (hwork h) hf) fun h => .bind (hwork' h) hf

theorem call {c : Store.Call} {Q : c.Answer → Prop}
    (h : ∀ s, I s → I (s.run c).store ∧ ∀ a, (s.run c).outcome = .ok a → Q a) :
    StoreAction.Ensures I Q (Program.call c) :=
  Program.Ensures.request fun w hw => h w.store hw

theorem outcome {x : Outcome α} (h : ∀ a, x = .ok a → Q a) :
    StoreAction.Ensures I Q (liftM x) :=
  h

theorem lift {p : Program α} (h : p.Ensures I Q) :
    StoreAction.Ensures I Q (ExceptT.lift p) :=
  Program.Ensures.bind h fun _ ha => StoreAction.Ensures.pure ha

/-- Work whose failure is passed over. -/
theorem outcomeOf {work : StoreAction α} (h : work.Ensures I Q) :
    StoreAction.Ensures I (fun r => ∀ a, r = .ok a → Q a) (Batch.outcomeOf work) :=
  lift h

end Ensures

/-- **Work in two parts** fails with the first part, or goes on with its result. -/
theorem run_bind (work : StoreAction α) (f : α → StoreAction β) (w : World) :
    (work >>= f).run.run w = match work.run.run w with
      | (.ok a, v) => (f a).run.run v
      | (.error e, v) => (.error e, v) := by
  refine (Program.run_bind work.run _ w).trans ?_
  rcases work.run.run w with ⟨_ | a, v⟩ <;> rfl

theorem run_bind_eq_ok {work : StoreAction α} {f : α → StoreAction β} {w v : World} {b : β} :
    (work >>= f).run.run w = (.ok b, v) ↔
      ∃ a u, work.run.run w = (.ok a, u) ∧ (f a).run.run u = (.ok b, v) := by
  rw [run_bind]
  rcases work.run.run w with ⟨_ | a, u⟩
  · simp
  · constructor
    · exact fun h => ⟨a, u, rfl, h⟩
    · rintro ⟨a', u', heq, h⟩
      obtain ⟨⟨⟩, rfl⟩ := Prod.mk.inj heq
      exact h

/-- Work whose failure is passed over goes on with its outcome. -/
theorem run_outcomeOf_bind (work : StoreAction α) (f : Outcome α → StoreAction β) (w : World) :
    (Batch.outcomeOf work >>= f).run.run w =
      (f (work.run.run w).1).run.run (work.run.run w).2 := by
  have hlift : (Batch.outcomeOf work).run.run w =
      (.ok (work.run.run w).1, (work.run.run w).2) := Program.run_bind work.run _ w
  rw [run_bind, hlift]

/-- The judgement of what work on the store guarantees. -/
def judgement (I : Store → Prop) : Judgement (ExceptT EngineError Program) where
  holds Q work := Ensures I Q work
  mono h := Ensures.mono h
  ofPure := Ensures.pure
  bind := Ensures.bind

end StoreAction

/-! ### Work with a schema cache -/

namespace Action

/-- What work guarantees that starts with a given cache: it keeps `I`, leaves a cache with `J`,
and if it succeeds its result satisfies `Q`. -/
def EnsuresFrom (I : Store → Prop) (J : SchemaCache → Prop) (Q : α → Prop) (cache : SchemaCache)
    (work : Action α) : Prop :=
  Program.Ensures I (fun r => J r.2 ∧ ∀ a, r.1 = .ok a → Q a) (work.run.run cache)

/-- **What work with a cache guarantees**: it keeps `I` and the invariant `J` of the cache, and
if it succeeds its result satisfies `Q`. -/
def Ensures (I : Store → Prop) (J : SchemaCache → Prop) (Q : α → Prop) (work : Action α) : Prop :=
  ∀ cache, J cache → EnsuresFrom I J Q cache work

variable {I : Store → Prop} {J : SchemaCache → Prop} {Q : α → Prop} {R : β → Prop}

namespace EnsuresFrom

variable {cache : SchemaCache}

theorem get_bind {f : SchemaCache → Action β} (h : EnsuresFrom I J R cache (f cache)) :
    EnsuresFrom I J R cache (get >>= f) :=
  h

theorem set_bind {cache' : SchemaCache} {f : PUnit → Action β}
    (h : EnsuresFrom I J R cache' (f ⟨⟩)) : EnsuresFrom I J R cache (set cache' >>= f) :=
  h

theorem modify_bind {change : SchemaCache → SchemaCache} {f : PUnit → Action β}
    (h : EnsuresFrom I J R (change cache) (f ⟨⟩)) :
    EnsuresFrom I J R cache (modify change >>= f) :=
  h

theorem ofStore_bind {work : StoreAction α} {f : α → Action β} (hcache : J cache)
    (hwork : work.Ensures I Q) (hf : ∀ a, Q a → EnsuresFrom I J R cache (f a)) :
    EnsuresFrom I J R cache (Action.ofStore work >>= f) := by
  refine Program.Ensures.bind (Program.Ensures.bind hwork fun r hr => ?_) fun r hr => hr
  cases r with
  | ok a => exact hf a (hr a rfl)
  | error e => exact ⟨hcache, nofun⟩

theorem lift_bind {work : StoreAction α} {f : α → Action β} (hcache : J cache)
    (hwork : work.Ensures I Q) (hf : ∀ a, Q a → EnsuresFrom I J R cache (f a)) :
    EnsuresFrom I J R cache (liftM work >>= f) :=
  ofStore_bind hcache hwork hf

end EnsuresFrom

namespace Ensures

theorem mono {Q' : α → Prop} (h : ∀ a, Q a → Q' a) {work : Action α}
    (hwork : work.Ensures I J Q) : work.Ensures I J Q' := fun cache hcache =>
  Program.Ensures.mono (fun _ hr => ⟨hr.1, fun a ha => h a (hr.2 a ha)⟩) (hwork cache hcache)

theorem pure {a : α} (h : Q a) : (Pure.pure a : Action α).Ensures I J Q :=
  fun _ hcache => ⟨hcache, fun _ hb => Except.ok.inj hb ▸ h⟩

theorem throw {e : EngineError} : (MonadExcept.throw e : Action α).Ensures I J Q :=
  fun _ hcache => ⟨hcache, nofun⟩

theorem bind {work : Action α} {f : α → Action β} (hwork : work.Ensures I J Q)
    (hf : ∀ a, Q a → (f a).Ensures I J R) : (work >>= f).Ensures I J R := by
  intro cache hcache
  refine Program.Ensures.bind (hwork cache hcache) fun r hr => ?_
  obtain ⟨_ | a, cache'⟩ := r
  · exact ⟨hr.1, nofun⟩
  · exact hf a (hr.2 a rfl) cache' hr.1

theorem ite {p : Prop} [Decidable p] {work work' : Action α} (hwork : p → work.Ensures I J Q)
    (hwork' : ¬p → work'.Ensures I J Q) :
    Action.Ensures I J Q (if p then work else work') := by
  split
  · exact hwork ‹p›
  · exact hwork' ‹¬p›

/-- A choice whose branches go on in the same way. -/
theorem ite_bind {p : Prop} [Decidable p] {work work' : Action α} {f : α → Action β}
    (hwork : p → work.Ensures I J Q) (hwork' : ¬p → work'.Ensures I J Q)
    (hf : ∀ a, Q a → (f a).Ensures I J R) :
    Action.Ensures I J R (if p then work >>= f else work' >>= f) :=
  .ite (fun h => .bind (hwork h) hf) fun h => .bind (hwork' h) hf

/-- Work that goes on unless something is refused. -/
theorem guard {p : Prop} [Decidable p] {e : EngineError} {f : α → Action β} {work : Action β}
    (hwork : ¬p → work.Ensures I J R) :
    Action.Ensures I J R (if p then MonadExcept.throw e >>= f else work) :=
  .ite (fun _ => .bind (Q := fun _ => False) .throw nofun) hwork

theorem ofStore {work : StoreAction α} (h : work.Ensures I Q) :
    Action.Ensures I J Q (Action.ofStore work) := fun _ hcache =>
  Program.Ensures.bind h fun _ hr => ⟨hcache, hr⟩

theorem lift {work : StoreAction α} (h : work.Ensures I Q) :
    Action.Ensures I J Q (liftM work) :=
  ofStore h

theorem outcome {x : Outcome α} (h : ∀ a, x = .ok a → Q a) :
    Action.Ensures I J Q (liftM x) :=
  fun _ hcache => ⟨hcache, h⟩

/-- Work whose failure is passed over. -/
theorem outcomeOf {work : Action α} (h : work.Ensures I J Q) :
    Action.Ensures I J (fun r : Outcome α => ∀ a, r = .ok a → Q a) (ExceptT.lift work.run) :=
  fun cache hcache => Program.Ensures.bind (h cache hcache) fun _ hr =>
    ⟨hr.1, fun _ ha => Except.ok.inj ha ▸ hr.2⟩

/-- Work that is replaced where it fails. -/
theorem tryCatch {work : Action α} {handler : EngineError → Action α} (h : work.Ensures I J Q)
    (hhandler : ∀ e, (handler e).Ensures I J Q) :
    (MonadExcept.tryCatch work handler).Ensures I J Q := by
  intro cache hcache
  refine Program.Ensures.bind (h cache hcache) fun r hr => ?_
  obtain ⟨e | a, cache'⟩ := r
  · exact hhandler e cache' hr.1
  · exact hr

/-- Work whose errors leave in another form. -/
theorem guarded {config : Config} {work : Action α} (h : work.Ensures I J Q) :
    Action.Ensures I J Q (Engine.guarded config work) :=
  .tryCatch h fun _ => .throw

/-- **Run in a world**, work does what it guarantees. -/
theorem runIn {work : Action α} (h : work.Ensures I J Q) {cache : SchemaCache}
    (hcache : J cache) {w : World} (hw : I w.store) :
    I (work.runIn cache w).2.store ∧ J (work.runIn cache w).1.2 ∧
      ∀ a, (work.runIn cache w).1.1 = .ok a → Q a :=
  Program.Ensures.run (h cache hcache) hw

end Ensures

/-- **Work in two parts** fails with the first part, or goes on with its result. -/
theorem runIn_bind (work : Action α) (f : α → Action β) (cache : SchemaCache) (w : World) :
    (work >>= f).runIn cache w = match work.runIn cache w with
      | ((.ok a, cache'), w') => (f a).runIn cache' w'
      | ((.error e, cache'), w') => ((.error e, cache'), w') := by
  refine (Program.run_bind (work.run.run cache) _ w).trans ?_
  rw [show work.runIn cache w = (work.run.run cache).run w from rfl]
  obtain ⟨⟨_ | a, cache'⟩, w'⟩ := (work.run.run cache).run w
  · rfl
  · rfl

/-- Work that succeeds did all of its parts. -/
theorem exists_of_runIn_bind {work : Action α} {f : α → Action β} {cache : SchemaCache}
    {w : World} {b : β} (h : ((work >>= f).runIn cache w).1.1 = .ok b) :
    ∃ a cache' w', work.runIn cache w = ((.ok a, cache'), w') ∧
      ((f a).runIn cache' w').1.1 = .ok b := by
  rw [runIn_bind] at h
  rcases hwork : work.runIn cache w with ⟨⟨_ | a, cache'⟩, w'⟩
  · simp [hwork] at h
  · rw [hwork] at h
    exact ⟨a, cache', w', rfl, h⟩

theorem runIn_bind_eq_ok {work : Action α} {f : α → Action β} {cache cache' : SchemaCache}
    {w v : World} {b : β} :
    (work >>= f).runIn cache w = ((.ok b, cache'), v) ↔
      ∃ a kept u, work.runIn cache w = ((.ok a, kept), u) ∧
        (f a).runIn kept u = ((.ok b, cache'), v) := by
  rw [runIn_bind]
  rcases hwork : work.runIn cache w with ⟨⟨_ | a, kept⟩, u⟩
  · simp
  · constructor
    · exact fun h => ⟨a, kept, u, rfl, h⟩
    · rintro ⟨a', kept', u', heq, h⟩
      obtain ⟨hout, rfl⟩ := Prod.mk.inj heq
      obtain ⟨⟨⟩, rfl⟩ := Prod.mk.inj hout
      exact h

/-- Work whose failure is passed over comes to its outcome. -/
theorem runIn_outcomeOf (work : Action α) (cache : SchemaCache) (w : World) :
    Action.runIn (ExceptT.lift work.run) cache w =
      ((.ok (work.runIn cache w).1.1, (work.runIn cache w).1.2), (work.runIn cache w).2) :=
  Program.run_bind (work.run.run cache) _ w

/-- Guarded work does what the work does, and its errors are shown in another form. -/
theorem runIn_guarded (config : Config) (work : Action α) (cache : SchemaCache) (w : World) :
    (Engine.guarded config work).runIn cache w = match work.runIn cache w with
      | ((.ok a, cache'), w') => ((.ok a, cache'), w')
      | ((.error e, cache'), w') =>
        ((.error (e.sanitized config.sanitizeErrors), cache'), w') := by
  refine (Program.run_bind (work.run.run cache) _ w).trans ?_
  rw [show work.runIn cache w = (work.run.run cache).run w from rfl]
  obtain ⟨⟨_ | a, cache'⟩, w'⟩ := (work.run.run cache).run w
  · rfl
  · rfl

/-- Guarded work that succeeds is the work itself. -/
theorem runIn_of_guarded {config : Config} {work : Action α} {cache : SchemaCache} {w : World}
    {a : α} (h : ((Engine.guarded config work).runIn cache w).1.1 = .ok a) :
    (work.runIn cache w).1.1 = .ok a := by
  rw [runIn_guarded] at h
  rcases hwork : work.runIn cache w with ⟨⟨_ | a', cache'⟩, w'⟩
  · simp [hwork] at h
  · rw [hwork] at h
    exact h

/-- The judgement of what work with a cache guarantees. -/
def judgement (I : Store → Prop) (J : SchemaCache → Prop) :
    Judgement (ExceptT EngineError (StateT SchemaCache Program)) where
  holds Q work := Ensures I J Q work
  mono h := Ensures.mono h
  ofPure := Ensures.pure
  bind := Ensures.bind

end Action

end ObjectEngine
