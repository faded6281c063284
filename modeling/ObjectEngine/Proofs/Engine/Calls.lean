import ObjectEngine.Proofs.Engine.Ensures

/-!
# The calls that a program makes

`Program.Makes p log a` says that the program `p` may make the calls of `log`, with the outcomes
that are written there, and come to `a`. Nothing is said about who answers: every outcome is
possible for every call. What all logs of a program have in common holds of it with any store and
with any calls failing.

`Program.runUnder` runs a program alone and keeps the log, while a schedule sets up faults before
each request. Its logs are ones that the program makes (`Program.makes_runUnder`), and without
faults of its own it is `Program.run` (`Program.runUnder_undisturbed`).
-/

namespace ObjectEngine

variable {α β : Type}

/-- A call to the store with what it came to. -/
structure Exchange where
  call : Store.Call
  outcome : Outcome call.Answer

namespace Exchange

/-- Whether the call succeeded. -/
def Succeeded (x : Exchange) : Prop := ∃ a, x.outcome = .ok a

end Exchange

/-- The calls to the store in a request: one or none. -/
def Request.exchanges : (r : Request) → r.Answer → List Exchange
  | .store call, outcome => [⟨call, outcome⟩]
  | _, _ => []

namespace Program

/-! ### Logs -/

/-- **The calls that a program makes**, in their order, and its result. -/
def Makes : Program α → List Exchange → α → Prop
  | .done a, log, b => log = [] ∧ a = b
  | .ask r next, log, b =>
    ∃ (answer : r.Answer) (rest : List Exchange),
      log = r.exchanges answer ++ rest ∧ (next answer).Makes rest b

/-- **A program in two parts** makes the calls of the one and then those of the other. -/
theorem makes_bind {p : Program α} {f : α → Program β} {log : List Exchange} {b : β} :
    (p >>= f).Makes log b ↔
      ∃ before after a, log = before ++ after ∧ p.Makes before a ∧ (f a).Makes after b := by
  induction p generalizing log with
  | done a =>
    constructor
    · exact fun h => ⟨[], log, a, rfl, ⟨rfl, rfl⟩, h⟩
    · rintro ⟨before, after, a', rfl, ⟨rfl, rfl⟩, h⟩
      exact h
  | ask r next ih =>
    constructor
    · rintro ⟨answer, rest, rfl, h⟩
      obtain ⟨before, after, a, rfl, hp, hf⟩ := (ih answer).1 h
      exact ⟨_, after, a, (List.append_assoc ..).symm, ⟨answer, before, rfl, hp⟩, hf⟩
    · rintro ⟨_, after, a, rfl, ⟨answer, before, rfl, hp⟩, hf⟩
      exact ⟨answer, before ++ after, List.append_assoc .., (ih answer).2 ⟨_, _, a, rfl, hp, hf⟩⟩

theorem makes_request {r : Request} {log : List Exchange} {answer : r.Answer} :
    (Program.request r).Makes log answer ↔ log = r.exchanges answer := by
  constructor
  · rintro ⟨answer', rest, rfl, rfl, rfl⟩
    exact List.append_nil _
  · rintro rfl
    exact ⟨answer, [], (List.append_nil _).symm, rfl, rfl⟩

instance : LawfulMonad Program :=
  LawfulMonad.mk' Program
    (fun p => by
      induction p with
      | done a => rfl
      | ask r next ih => exact congrArg (Program.ask r) (funext ih))
    (fun _ _ => rfl)
    (fun p f g => by
      induction p with
      | done a => rfl
      | ask r next ih => exact congrArg (Program.ask r) (funext ih))

/-! ### Runs with faults -/

/-- A change of the faults that are due in a store. -/
abbrev Disturbance := List Store.Fault → List Store.Fault

/-- Runs a program alone and keeps its log. Before request `n` the schedule changes the faults
that are due. -/
def runUnder (schedule : Nat → Disturbance) : Program α → Nat → World → (α × List Exchange) × World
  | .done a, _, w => ((a, []), w)
  | .ask r next, n, w =>
    let w := { w with store := { w.store with faults := schedule n w.store.faults } }
    let (answer, waitMs, w) := w.serve r
    let ((a, log), w) := (next answer).runUnder schedule (n + 1) (w.advance waitMs)
    ((a, r.exchanges answer ++ log), w)

/-- **A run makes its calls.** -/
theorem makes_runUnder (schedule : Nat → Disturbance) (p : Program α) (n : Nat) (w : World) :
    p.Makes (p.runUnder schedule n w).1.2 (p.runUnder schedule n w).1.1 := by
  induction p generalizing n w with
  | done a => exact ⟨rfl, rfl⟩
  | ask r next ih => exact ⟨_, _, rfl, ih _ _ _⟩

/-- **A schedule without faults** leaves a run as it is. -/
theorem runUnder_undisturbed (p : Program α) (n : Nat) (w : World) :
    (p.runUnder (fun _ faults => faults) n w).1.1 = (p.run w).1 ∧
      (p.runUnder (fun _ faults => faults) n w).2 = (p.run w).2 := by
  induction p generalizing n w with
  | done a => exact ⟨rfl, rfl⟩
  | ask r next ih => exact ih _ _ _

end Program

namespace StoreAction

/-! ### Work that may fail -/

/-- **The calls that work makes**, and its outcome. -/
def Makes (work : StoreAction α) (log : List Exchange) (outcome : Outcome α) : Prop :=
  Program.Makes work.run log outcome

variable {log : List Exchange}

theorem makes_pure {a : α} {outcome : Outcome α} :
    StoreAction.Makes (pure a) log outcome ↔ log = [] ∧ outcome = .ok a :=
  and_congr_right fun _ => eq_comm

theorem makes_throw {e : EngineError} {outcome : Outcome α} :
    StoreAction.Makes (throw e) log outcome ↔ log = [] ∧ outcome = .error e :=
  and_congr_right fun _ => eq_comm

theorem makes_call {c : Store.Call} {outcome : Outcome c.Answer} :
    StoreAction.Makes (Program.call c) log outcome ↔ log = [⟨c, outcome⟩] :=
  Program.makes_request

/-- **Work in two parts** fails with the first part, or goes on with its result. -/
theorem makes_bind {work : StoreAction α} {f : α → StoreAction β} {outcome : Outcome β} :
    StoreAction.Makes (work >>= f) log outcome ↔
      (∃ e, work.Makes log (.error e) ∧ outcome = .error e) ∨
        ∃ before after a, log = before ++ after ∧ work.Makes before (.ok a) ∧
          (f a).Makes after outcome := by
  refine Program.makes_bind.trans ⟨?_, ?_⟩
  · rintro ⟨before, after, _ | a, rfl, hwork, hrest⟩
    · obtain ⟨rfl, rfl⟩ := hrest
      exact .inl ⟨_, by rwa [List.append_nil], rfl⟩
    · exact .inr ⟨before, after, a, rfl, hwork, hrest⟩
  · rintro (⟨e, hwork, rfl⟩ | ⟨before, after, a, rfl, hwork, hrest⟩)
    · exact ⟨log, [], .error e, (List.append_nil _).symm, hwork, rfl, rfl⟩
    · exact ⟨before, after, .ok a, rfl, hwork, hrest⟩

/-- Work that cannot fail goes on with its result. -/
theorem makes_lift_bind {p : Program α} {f : α → StoreAction β} {outcome : Outcome β} :
    StoreAction.Makes (ExceptT.lift p >>= f) log outcome ↔
      ∃ before after a, log = before ++ after ∧ p.Makes before a ∧
        (f a).Makes after outcome := by
  have hrun : (ExceptT.lift p >>= f).run = p >>= fun a => (f a).run := by
    simp only [ExceptT.run_bind_lift]
  refine (Iff.of_eq ?_).trans Program.makes_bind
  exact congrArg (Program.Makes · log outcome) hrun

/-- **Work whose failure is passed over** goes on with its outcome. -/
theorem makes_outcomeOf_bind {work : StoreAction α} {f : Outcome α → StoreAction β}
    {outcome : Outcome β} :
    StoreAction.Makes (Batch.outcomeOf work >>= f) log outcome ↔
      ∃ before after r, log = before ++ after ∧ work.Makes before r ∧
        (f r).Makes after outcome :=
  makes_lift_bind

/-! ### Work that stops where a call fails -/

/-- **Calls up to the first that fails**, and what they come to: without a failure a result, and
otherwise the error of the last call. -/
def Stops (log : List Exchange) : Outcome α → Prop
  | .ok _ => ∀ x ∈ log, x.Succeeded
  | .error e => ∃ before call, log = before ++ [⟨call, .error e⟩] ∧ ∀ x ∈ before, x.Succeeded

/-- **Work in a straight line**: all its calls are of one kind, it stops where a call fails, and
otherwise its result is of one kind. -/
def Straight (P : Store.Call → Prop) (Q : α → Prop) (work : StoreAction α) : Prop :=
  ∀ log outcome, work.Makes log outcome →
    (∀ x ∈ log, P x.call) ∧ Stops log outcome ∧ ∀ a, outcome = .ok a → Q a

namespace Straight

variable {P : Store.Call → Prop} {Q : α → Prop} {R : β → Prop}

theorem mono {Q' : α → Prop} (h : ∀ a, Q a → Q' a) {work : StoreAction α}
    (hwork : work.Straight P Q) : work.Straight P Q' := fun log outcome hmakes =>
  let ⟨hcalls, hstops, hresult⟩ := hwork log outcome hmakes
  ⟨hcalls, hstops, fun a ha => h a (hresult a ha)⟩

theorem pure {a : α} (h : Q a) : StoreAction.Straight P Q (Pure.pure a) := by
  intro log outcome hmakes
  obtain ⟨rfl, rfl⟩ := makes_pure.1 hmakes
  exact ⟨by simp, by simp [Stops], fun b hb => Except.ok.inj hb ▸ h⟩

theorem call {c : Store.Call} (h : P c) :
    StoreAction.Straight P (fun _ => True) (Program.call c) := by
  intro log outcome hmakes
  obtain rfl := makes_call.1 hmakes
  refine ⟨fun x hx => List.mem_singleton.1 hx ▸ h, ?_, fun _ _ => trivial⟩
  cases outcome with
  | ok a => exact fun x hx => List.mem_singleton.1 hx ▸ ⟨a, rfl⟩
  | error e => exact ⟨[], c, rfl, by simp⟩

/-- **Work in two straight parts.** -/
theorem bind {work : StoreAction α} {f : α → StoreAction β} (hwork : work.Straight P Q)
    (hf : ∀ a, Q a → (f a).Straight P R) : StoreAction.Straight P R (work >>= f) := by
  intro log outcome hmakes
  rcases makes_bind.1 hmakes with ⟨e, hfirst, rfl⟩ | ⟨before, after, a, rfl, hbefore, hafter⟩
  · obtain ⟨hcalls, hstops, -⟩ := hwork _ _ hfirst
    exact ⟨hcalls, hstops, nofun⟩
  · obtain ⟨hcalls, hstops, hresult⟩ := hwork _ _ hbefore
    obtain ⟨hcalls', hstops', hresult'⟩ := hf a (hresult a rfl) _ _ hafter
    refine ⟨List.forall_mem_append.2 ⟨hcalls, hcalls'⟩, ?_, hresult'⟩
    cases outcome with
    | ok b => exact List.forall_mem_append.2 ⟨hstops, hstops'⟩
    | error e =>
      obtain ⟨middle, c, rfl, hmiddle⟩ := hstops'
      exact ⟨before ++ middle, c, (List.append_assoc ..).symm,
        List.forall_mem_append.2 ⟨hstops, hmiddle⟩⟩

theorem ite {p : Prop} [Decidable p] {work work' : StoreAction α}
    (hwork : p → work.Straight P Q) (hwork' : ¬p → work'.Straight P Q) :
    StoreAction.Straight P Q (if p then work else work') := by
  split
  · exact hwork ‹p›
  · exact hwork' ‹¬p›

/-- A choice whose branches go on in the same way. -/
theorem ite_bind {p : Prop} [Decidable p] {work work' : StoreAction α} {f : α → StoreAction β}
    (hwork : p → work.Straight P Q) (hwork' : ¬p → work'.Straight P Q)
    (hf : ∀ a, Q a → (f a).Straight P R) :
    StoreAction.Straight P R (if p then work >>= f else work' >>= f) :=
  .ite (fun h => .bind (hwork h) hf) fun h => .bind (hwork' h) hf

end Straight

/-- The judgement of what straight work does. -/
def straight (P : Store.Call → Prop) : Judgement (ExceptT EngineError Program) where
  holds Q work := Straight P Q work
  mono h := Straight.mono h
  ofPure := Straight.pure
  bind := Straight.bind

end StoreAction

end ObjectEngine
