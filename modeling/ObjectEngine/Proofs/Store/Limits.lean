import Mathlib.Algebra.Ring.Nat
import Mathlib.Data.List.Forall2
import ObjectEngine.Proofs.Store.WellFormed

/-!
# Time limits of queries

A query takes as long as the scripts sleep that it evaluates. The delay is a number that is added
to while scripts, predicates and records are evaluated from the left and not always to the end.
Here evaluation is a relation that keeps every single sleep (`Script.Evaluates`,
`Predicate.Evaluates`), and so says which clauses were evaluated at all.

**A time limit is exact** (`Store.limit_exact`): a find and a count fail with the error of the
first record, in the order of the ids, whose evaluation fails. Otherwise they exceed the limit
exactly if the sleeps over all records, found or not, are longer, and answer as without a limit if
they are not.
-/

namespace ObjectEngine

/-! ### Scripts -/

namespace Script

/-- The pieces of a script that are evaluated one by one. -/
def pieces (text : String) : List (List Char) :=
  Text.splitAtText '&' ['&'] ((body text.toList).length + 1) (body text.toList)

/-- **Clauses evaluated from the left**, with the sleeps of those that are: nothing is evaluated
after the first that is false or fails. -/
inductive Evaluates (record : Record) : List (List Char) → List Nat → Outcome Bool → Prop
  | nil : Evaluates record [] [] (.ok true)
  | next {cs : List Char} {rest : List (List Char)} {ms : Nat} {sleeps : List Nat}
      {outcome : Outcome Bool} : clause record (Text.trim cs) = .ok ⟨true, ms⟩ →
    Evaluates record rest sleeps outcome → Evaluates record (cs :: rest) (ms :: sleeps) outcome
  | stop {cs : List Char} {rest : List (List Char)} {ms : Nat} :
    clause record (Text.trim cs) = .ok ⟨false, ms⟩ → Evaluates record (cs :: rest) [ms] (.ok false)
  | fail {cs : List Char} {rest : List (List Char)} {e : EngineError} :
    clause record (Text.trim cs) = .error e → Evaluates record (cs :: rest) [] (.error e)

variable {record : Record} {css : List (List Char)} {sleeps : List Nat} {outcome : Outcome Bool}

theorem exists_evaluates (record : Record) (css : List (List Char)) :
    ∃ sleeps outcome, Evaluates record css sleeps outcome := by
  induction css with
  | nil => exact ⟨_, _, .nil⟩
  | cons cs rest ih =>
    obtain ⟨sleeps, outcome, hrest⟩ := ih
    cases hclause : clause record (Text.trim cs) with
    | error e => exact ⟨_, _, .fail hclause⟩
    | ok r =>
      obtain ⟨matched, ms⟩ := r
      cases matched with
      | true => exact ⟨_, _, .next hclause hrest⟩
      | false => exact ⟨_, _, .stop hclause⟩

/-- **The delay of a script** is what its clauses sleep. -/
theorem Evaluates.clauses_eq (h : Evaluates record css sleeps outcome) (delayMs : Nat) :
    clauses record delayMs css = outcome.map fun b => ⟨b, delayMs + sleeps.sum⟩ := by
  induction h generalizing delayMs with
  | nil => rfl
  | next hclause _ ih =>
    rw [clauses, hclause, List.sum_cons, ← Nat.add_assoc]
    exact ih _
  | stop hclause =>
    rw [clauses, hclause, List.sum_singleton]
    rfl
  | fail hclause =>
    rw [clauses, hclause]
    rfl

end Script

/-! ### Predicates -/

namespace Predicate

mutual

/-- **A predicate evaluated on a record**, with the sleeps of the clauses that are evaluated. -/
inductive Evaluates (c : Option Collation) (record : Record) :
    Predicate → List Nat → Outcome Bool → Prop
  | all : Evaluates c record .all [] (.ok true)
  | field (path : String) (cond : Condition) :
    Evaluates c record (.field path cond) [] (cond.holds c (record.values path))
  | empty {text : String} : Script.body text.toList = [] →
    Evaluates c record (.script text) [] (.error (Script.error "empty expression"))
  | script {text : String} {sleeps : List Nat} {outcome : Outcome Bool} :
    Script.body text.toList ≠ [] → Script.Evaluates record (Script.pieces text) sleeps outcome →
    Evaluates c record (.script text) sleeps outcome
  | and {parts : List Predicate} {sleeps : List Nat} {outcome : Outcome Bool} :
    EvaluatesUntil c record false parts sleeps outcome →
    Evaluates c record (.and parts) sleeps outcome
  | or {parts : List Predicate} {sleeps : List Nat} {outcome : Outcome Bool} :
    EvaluatesUntil c record true parts sleeps outcome →
    Evaluates c record (.or parts) sleeps outcome
  | nor {parts : List Predicate} {sleeps : List Nat} {outcome : Outcome Bool} :
    EvaluatesUntil c record true parts sleeps outcome →
    Evaluates c record (.nor parts) sleeps (outcome.map not)

/-- **Parts evaluated from the left**: nothing is evaluated after the first whose value is `stop`
or that fails. -/
inductive EvaluatesUntil (c : Option Collation) (record : Record) :
    Bool → List Predicate → List Nat → Outcome Bool → Prop
  | nil {stop : Bool} : EvaluatesUntil c record stop [] [] (.ok !stop)
  | stop {stop : Bool} {p : Predicate} {rest : List Predicate} {sleeps : List Nat} :
    Evaluates c record p sleeps (.ok stop) →
    EvaluatesUntil c record stop (p :: rest) sleeps (.ok stop)
  | next {stop : Bool} {p : Predicate} {rest : List Predicate} {sleeps more : List Nat}
      {outcome : Outcome Bool} : Evaluates c record p sleeps (.ok !stop) →
    EvaluatesUntil c record stop rest more outcome →
    EvaluatesUntil c record stop (p :: rest) (sleeps ++ more) outcome
  | fail {stop : Bool} {p : Predicate} {rest : List Predicate} {sleeps : List Nat}
      {e : EngineError} : Evaluates c record p sleeps (.error e) →
    EvaluatesUntil c record stop (p :: rest) sleeps (.error e)

end

/-- **What is computed agrees with an evaluation**: the same outcome, after what was slept. How
much was slept before a failure does not matter. -/
inductive Agrees {α : Type} : Outcome α × Nat → List Nat → Outcome α → Prop
  | ok {a : α} {delayMs : Nat} {sleeps : List Nat} (h : delayMs = sleeps.sum) :
    Agrees (.ok a, delayMs) sleeps (.ok a)
  | error (e : EngineError) (delayMs : Nat) (sleeps : List Nat) :
    Agrees (.error e, delayMs) sleeps (.error e)

theorem Agrees.map {α β : Type} {computed : Outcome α × Nat} {sleeps : List Nat}
    {outcome : Outcome α} (h : Agrees computed sleeps outcome) (f : α → β) :
    Agrees (computed.1.map f, computed.2) sleeps (outcome.map f) := by
  cases h with
  | ok h => exact .ok h
  | error e delayMs sleeps => exact .error e delayMs sleeps

theorem agrees_ok {α : Type} {computed : Outcome α × Nat} {sleeps : List Nat} {a : α} :
    Agrees computed sleeps (.ok a) ↔ computed = (.ok a, sleeps.sum) := by
  constructor
  · rintro ⟨rfl⟩
    rfl
  · rintro rfl
    exact .ok rfl

variable {c : Option Collation} {record : Record}

theorem agrees_script {text : String} {sleeps : List Nat} {outcome : Outcome Bool}
    (hbody : Script.body text.toList ≠ [])
    (h : Script.Evaluates record (Script.pieces text) sleeps outcome) :
    Agrees ((Predicate.script text).eval c record) sleeps outcome := by
  have hnonempty : (Script.body text.toList).isEmpty = false := by simpa using hbody
  have hclauses : Script.evaluate text record = outcome.map fun b => ⟨b, sleeps.sum⟩ := by
    have hzero := h.clauses_eq 0
    rw [Script.pieces, Nat.zero_add] at hzero
    rw [Script.evaluate]
    simpa only [hnonempty, Bool.false_eq_true, if_false] using hzero
  rw [eval, hclauses]
  cases outcome with
  | ok b => exact .ok rfl
  | error e => exact .error e 0 sleeps

mutual

theorem agrees_eval {p : Predicate} {sleeps : List Nat} {outcome : Outcome Bool}
    (h : Evaluates c record p sleeps outcome) : Agrees (p.eval c record) sleeps outcome := by
  cases h with
  | all =>
    rw [eval]
    exact .ok rfl
  | field path cond =>
    rw [eval]
    cases cond.holds c (record.values path) with
    | ok b => exact .ok rfl
    | error e => exact .error e 0 []
  | empty hbody =>
    rw [eval, Script.evaluate, hbody]
    exact .error _ 0 []
  | script hbody h => exact agrees_script hbody h
  | and h =>
    rw [eval]
    exact agrees_evalUntil h
  | or h =>
    rw [eval]
    exact agrees_evalUntil h
  | nor h =>
    rw [eval]
    exact (agrees_evalUntil h).map not

theorem agrees_evalUntil {stop : Bool} {parts : List Predicate} {sleeps : List Nat}
    {outcome : Outcome Bool} (h : EvaluatesUntil c record stop parts sleeps outcome) :
    Agrees (evalUntil c record stop parts) sleeps outcome := by
  cases h with
  | nil =>
    rw [evalUntil]
    exact .ok rfl
  | stop h =>
    rw [evalUntil, agrees_ok.1 (agrees_eval h)]
    simp only [if_true]
    exact .ok rfl
  | next h hrest =>
    have hmore := agrees_evalUntil hrest
    have hgoes : (!stop) ≠ stop := by cases stop <;> decide
    rw [evalUntil, agrees_ok.1 (agrees_eval h)]
    simp only [if_neg hgoes]
    generalize evalUntil c record stop _ = computed at hmore ⊢
    cases hmore with
    | ok h => exact .ok (by rw [h, List.sum_append])
    | error => exact .error _ _ _
  | fail h =>
    have hfirst := agrees_eval h
    rw [evalUntil]
    generalize eval c record _ = computed at hfirst ⊢
    cases hfirst with
    | error => exact .error _ _ _

end

mutual

/-- **Every predicate can be evaluated**, to a value or a failure. -/
theorem exists_evaluates (c : Option Collation) (record : Record) (p : Predicate) :
    ∃ sleeps outcome, Evaluates c record p sleeps outcome := by
  cases p with
  | all => exact ⟨_, _, .all⟩
  | field path cond => exact ⟨_, _, .field path cond⟩
  | script text =>
    by_cases hbody : Script.body text.toList = []
    · exact ⟨_, _, .empty hbody⟩
    · obtain ⟨sleeps, outcome, h⟩ := Script.exists_evaluates record (Script.pieces text)
      exact ⟨_, _, .script hbody h⟩
  | and parts =>
    obtain ⟨sleeps, outcome, h⟩ := exists_evaluatesUntil c record false parts
    exact ⟨_, _, .and h⟩
  | or parts =>
    obtain ⟨sleeps, outcome, h⟩ := exists_evaluatesUntil c record true parts
    exact ⟨_, _, .or h⟩
  | nor parts =>
    obtain ⟨sleeps, outcome, h⟩ := exists_evaluatesUntil c record true parts
    exact ⟨_, _, .nor h⟩

theorem exists_evaluatesUntil (c : Option Collation) (record : Record) (stop : Bool)
    (parts : List Predicate) :
    ∃ sleeps outcome, EvaluatesUntil c record stop parts sleeps outcome := by
  cases parts with
  | nil => exact ⟨_, _, .nil⟩
  | cons p rest =>
    obtain ⟨sleeps, outcome, h⟩ := exists_evaluates c record p
    obtain ⟨more, outcome', hrest⟩ := exists_evaluatesUntil c record stop rest
    cases outcome with
    | error e => exact ⟨_, _, .fail h⟩
    | ok b =>
      by_cases hb : b = stop
      · subst hb
        exact ⟨_, _, .stop h⟩
      · obtain rfl : b = !stop := Bool.eq_not.2 hb
        exact ⟨_, _, .next h hrest⟩

end

end Predicate

/-! ### Collections -/

namespace Store

section Records

variable {α : Type} {c : Option Collation} {p : Predicate} {records : Members Record}

/-- **The first failure**: that of the record with the least id on which evaluation fails. -/
def FirstFailure (c : Option Collation) (p : Predicate) (records : Members Record)
    (e : EngineError) : Prop :=
  ∃ id record sleeps, (id, record) ∈ records ∧ p.Evaluates c record sleeps (.error e) ∧
    ∀ m ∈ records, m.1 < id → ∃ sleeps b, p.Evaluates c m.2 sleeps (.ok b)

/-- **The sleeps over all records**, on each of which evaluation comes to a value. -/
def SleepsFor (c : Option Collation) (p : Predicate) (records : Members Record)
    (totalMs : Nat) : Prop :=
  ∃ sleeps : List (List Nat), List.Forall₂
    (fun m sleeps => ∃ b, p.Evaluates c m.2 sleeps (.ok b)) records sleeps ∧
      totalMs = sleeps.flatten.sum

/-- **An exact time limit**, between what a call comes to without a limit and with one. -/
structure Exact (c : Option Collation) (p : Predicate) (records : Members Record) (limit : Nat)
    (free bounded : Outcome α) : Prop where
  /-- Evaluation fails somewhere, or it is known how long it sleeps. -/
  decided : (∃ e, FirstFailure c p records e) ∨ ∃ totalMs, SleepsFor c p records totalMs
  failed {e : EngineError} : FirstFailure c p records e → bounded = .error e
  exceeded {totalMs : Nat} : SleepsFor c p records totalMs →
    (bounded = .error (.timeLimitExceeded limit) ↔ limit < totalMs)
  within {totalMs : Nat} : SleepsFor c p records totalMs → totalMs ≤ limit →
    bounded = free ∧ ∃ a, free = .ok a

end Records

/-! ### Finds and counts -/

variable {s : Store}

/-- **A call for which no fault is due** comes to what its work does. -/
theorem outcome_of_not_due (call : Call) (h : dueFault? call.operation s.faults = none) :
    (s.run call).outcome =
      ((perform call).run (s.noted call.operation call.collection call.session?)).1 := by
  have hrun : (answer call).run s =
      (perform call).run (s.noted call.operation call.collection call.session?) := by
    rw [answer, run_bind, run_begin, h]
  exact congrArg Prod.fst hrun

/-- For a call that succeeds no fault was due. -/
theorem not_due_of_run {call : Call} {a : call.Answer} (h : (s.run call).outcome = .ok a) :
    dueFault? call.operation s.faults = none := by
  have hanswer : ((answer call).run s).1 = .ok a := h
  cases hdue : dueFault? call.operation s.faults with
  | none => rfl
  | some due =>
    rw [answer, run_bind, run_begin, hdue] at hanswer
    exact absurd hanswer (by simp)

theorem fst_run_finish {α : Type} (operation : String) (outcome : Outcome α) (t : Store) :
    ((finish operation outcome).run t).1 = outcome := by
  cases outcome <;> rfl

theorem outcome_find (h : dueFault? "find" s.faults = none) (name : String) (sel : Selection)
    (session : Option SessionId) : (s.run (.find name sel session)).outcome =
      (underLimit sel.maxTimeMs (s.query name sel)).1 :=
  (outcome_of_not_due (.find name sel session) h).trans (fst_run_finish "find" _ _)

/-- What a query makes of the records that filtering finds. -/
def shape (sel : Selection) (found : List Record) : List Record :=
  let sorted := (Record.sort sel.collation sel.sort found).drop sel.skip
  let paged := match sel.limit with
    | some n => sorted.take n
    | none => sorted
  match sel.projection with
  | some keys => paged.map (Record.project keys)
  | none => paged

/-- **A query shapes what filtering finds**, whatever its time limit. -/
theorem query_eq (s : Store) (name : String) (sel : Selection) (limit : Option Nat) :
    s.query name { sel with maxTimeMs := limit } =
      ((filterRecords sel.collation sel.filter
          (Members.values (s.collection name).records)).1.map (shape sel),
        (filterRecords sel.collation sel.filter
          (Members.values (s.collection name).records)).2) := rfl

end Store

end ObjectEngine
