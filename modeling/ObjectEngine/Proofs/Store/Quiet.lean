import ObjectEngine.Proofs.Outcome
import ObjectEngine.Proofs.Store.Query

/-!
# A store without faults

A fault makes a call fail whatever the call is about. Where none is due (`Store.Quiet`) a call is
recorded and performed. This file says what that means for the two things that those who use the
store look at.

The first is whether to try again: a predicate that cannot be evaluated, an update that does not
fit a record, a key that is taken fail again however often the work is repeated. None of these
errors is transient (`Outcome.Lasting`), and only a fault can bring one in.

The second is how a query depends on the store: it is a function of the records of its collection
(`Store.query_congr`), and without a script among its predicates it takes no time
(`Store.waitMs_find`).
-/

namespace ObjectEngine

variable {α β : Type}

/-! ### Errors that last -/

namespace Outcome

/-- **An outcome that would be the same again**: it is no transient error. -/
def Lasting (x : Outcome α) : Prop := ∀ e, x = .error e → e.isTransient = false

theorem Lasting.ok (a : α) : Lasting (.ok a : Outcome α) := nofun

theorem Lasting.error {e : EngineError} (h : e.isTransient = false) :
    Lasting (.error e : Outcome α) :=
  fun _ he => Except.error.inj he ▸ h

theorem Lasting.bind {x : Outcome α} {f : α → Outcome β} (hx : x.Lasting)
    (hf : ∀ a, (f a).Lasting) : (x >>= f).Lasting := by
  cases x with
  | ok a => exact hf a
  | error e => exact .error (hx e rfl)

theorem Lasting.map {x : Outcome α} (hx : x.Lasting) (f : α → β) :
    Lasting (x.map f : Outcome β) := by
  cases x with
  | ok a => exact .ok _
  | error e => exact .error (hx e rfl)

theorem Lasting.ite {p : Prop} [Decidable p] {x y : Outcome α} (hx : x.Lasting)
    (hy : y.Lasting) : Lasting (if p then x else y) := by
  split
  · exact hx
  · exact hy

end Outcome

open Outcome (Lasting)

namespace Script

theorem lasting_literal (cs : List Char) : (literal cs).Lasting := by
  unfold literal
  refine .ite (.ok _) (.ite (.ok _) (.ite (.ok _) ?_))
  split
  · exact .ok _
  · split
    · exact .ok _
    · split
      · exact .ok _
      · exact .error rfl

theorem lasting_clause (r : Record) (cs : List Char) : (clause r cs).Lasting := by
  unfold clause
  refine .ite (.ok _) (.ite (.ok _) ?_)
  split
  · split
    · exact .ok _
    · exact .error rfl
  · split
    · exact .bind (lasting_literal _) fun _ => .ok _
    · exact .error rfl

theorem lasting_clauses (r : Record) (delayMs : Nat) (css : List (List Char)) :
    (clauses r delayMs css).Lasting := by
  induction css generalizing delayMs with
  | nil => exact .ok _
  | cons cs rest ih => exact .bind (lasting_clause _ _) fun _ => .ite (ih _) (.ok _)

theorem lasting_evaluate (script : String) (r : Record) : (evaluate script r).Lasting := by
  unfold evaluate
  exact .ite (.error rfl) (lasting_clauses _ _ _)

end Script

namespace Predicate

theorem lasting_holds (c : Option Collation) (values : List Datum) (cond : Condition) :
    (cond.holds c values).Lasting := by
  cases cond with
  | regex pattern options =>
    rw [Condition.holds]
    split
    · exact .ok _
    · exact .error rfl
  | _ => exact .ok _

mutual

/-- **A predicate that cannot be evaluated** cannot be evaluated again. -/
theorem lasting_eval (c : Option Collation) (r : Record) (p : Predicate) :
    (p.eval c r).1.Lasting := by
  cases p with
  | all => exact .ok _
  | and parts =>
    rw [eval]
    exact lasting_evalUntil c r false parts
  | or parts =>
    rw [eval]
    exact lasting_evalUntil c r true parts
  | nor parts =>
    rw [eval]
    exact (lasting_evalUntil c r true parts).map not
  | field path cond =>
    rw [eval]
    exact lasting_holds c _ cond
  | script text =>
    rw [eval]
    have h := Script.lasting_evaluate text r
    split
    case h_1 => exact .ok _
    case h_2 e he =>
      rw [he] at h
      exact .error (h e rfl)

theorem lasting_evalUntil (c : Option Collation) (r : Record) (stop : Bool)
    (parts : List Predicate) : (evalUntil c r stop parts).1.Lasting := by
  cases parts with
  | nil => exact .ok _
  | cons p rest =>
    rw [evalUntil]
    have hfirst := lasting_eval c r p
    have hrest := lasting_evalUntil c r stop rest
    rcases heval : p.eval c r with ⟨_ | b, delay⟩
    · rw [heval] at hfirst
      exact hfirst
    · simp only
      split
      · exact .ok _
      · exact hrest

end

end Predicate

namespace Record

theorem lasting_alterAlong (path : String) {change : Option Datum → Outcome Datum}
    (hchange : ∀ d?, (change d?).Lasting) (segments : List String) (r : Record) :
    (alterAlong path change segments r).1.Lasting := by
  induction segments generalizing r with
  | nil => exact .ok _
  | cons s rest ih =>
    cases rest with
    | nil =>
      rw [alterAlong]
      have h := hchange (r.lookup s)
      split
      case h_1 => exact .ok _
      case h_2 e he =>
        rw [he] at h
        exact .error (h e rfl)
    | cons s' rest =>
      rw [alterAlong]
      · split
        · exact ih _
        · exact ih _
        · exact .error rfl
      · simp

theorem lasting_setPath (path : String) (d : Datum) (r : Record) :
    (setPath path d r).1.Lasting :=
  lasting_alterAlong path (fun _ => .ok d) _ r

end Record

namespace Edit

theorem lasting_addNumbers (path : String) (current amount : Datum) :
    (addNumbers path current amount).Lasting := by
  unfold addNumbers
  split
  · split
    · exact .ok _
    · exact .error rfl
  · split
    · exact .ok _
    · exact .error rfl

theorem lasting_incPath (r : Record) (path : String) (amount : Datum) :
    (incPath r path amount).1.Lasting := by
  unfold incPath
  split
  · rename_i current _
    have h := lasting_addNumbers path current amount
    split
    case h_1 => exact Record.lasting_setPath _ _ _
    case h_2 e he =>
      rw [he] at h
      exact .error (h e rfl)
  · exact Record.lasting_setPath _ _ _

theorem lasting_arrayPath (op : String) (change : List Datum → List Datum) (r : Record)
    (path : String) : (arrayPath op change r path).1.Lasting := by
  refine Record.lasting_alterAlong path (fun d? => ?_) _ r
  rcases d? with _ | d
  · exact .ok _
  · cases d <;> first | exact .ok _ | exact .error rfl

theorem lasting_pullPath (r : Record) (path : String) (ds : List Datum) :
    (pullPath r path ds).1.Lasting := by
  unfold pullPath
  split
  · exact .ok _
  · exact Record.lasting_setPath _ _ _
  · exact .error rfl

theorem lasting_applySteps {step : Record → α → Outcome Unit × Record}
    (hstep : ∀ r a, (step r a).1.Lasting) (r : Record) (steps : List α) :
    (applySteps step r steps).1.Lasting := by
  induction steps generalizing r with
  | nil => exact .ok _
  | cons a rest ih =>
    rw [applySteps]
    have h := hstep r a
    split
    · exact ih _
    · exact h

theorem lasting_andThen {x : Outcome Unit × Record} {next : Record → Outcome Unit × Record}
    (hx : x.1.Lasting) (hnext : ∀ r, (next r).1.Lasting) : (andThen x next).1.Lasting := by
  unfold andThen
  split
  · exact hnext _
  · exact hx

theorem lasting_setAll (members : Members Datum) (r : Record) : (setAll members r).1.Lasting :=
  lasting_applySteps (fun _ _ => Record.lasting_setPath _ _ _) r members

/-- **An update that does not fit a record** does not fit it again. -/
theorem lasting_apply (edit : Edit) (inserting : Bool) (r : Record) :
    (edit.apply inserting r).Lasting := by
  have h : (edit.applyFrom inserting r).1.Lasting := by
    refine lasting_andThen (lasting_setAll _ _) fun r => lasting_andThen (.ok _) fun r => ?_
    refine lasting_andThen (lasting_applySteps (fun _ _ => lasting_incPath _ _ _) _ _) fun r => ?_
    refine lasting_andThen (lasting_applySteps (fun _ _ => lasting_arrayPath _ _ _ _) _ _)
      fun r => ?_
    refine lasting_andThen (lasting_applySteps (fun _ _ => lasting_arrayPath _ _ _ _) _ _)
      fun r => ?_
    refine lasting_andThen (lasting_applySteps (fun _ _ => lasting_pullPath _ _ _) _ _)
      fun r => ?_
    split
    · exact lasting_setAll _ _
    · exact .ok _
  unfold apply
  split
  case h_1 => exact .ok _
  case h_2 e r he =>
    rw [he] at h
    exact .error (h e rfl)

end Edit

namespace Store

theorem lasting_checkUnique (name : String) (c : Collection) (r : Record) :
    (checkUnique name c r).Lasting := by
  unfold checkUnique
  split
  · exact .error rfl
  · exact .ok _

theorem lasting_admission (name : String) (c : Collection) (id : String) (r : Record) :
    (admission name c id r).Lasting :=
  .ite (.error rfl) (lasting_checkUnique _ _ _)

theorem lasting_stage (name : String) (c : Collection) (edit : Edit) (ids : List String) :
    (stage name c edit ids).Lasting := by
  induction ids with
  | nil => exact .ok _
  | cons id rest ih =>
    rw [stage]
    split
    · exact ih
    · refine .bind (Edit.lasting_apply _ _ _) fun next => ?_
      exact .bind (lasting_checkUnique _ _ _) fun _ => .bind ih fun _ => .ok _

theorem lasting_matchingIds (firstOnly : Bool) (p : Predicate) (records : Members Record) :
    (matchingIds firstOnly p records).Lasting := by
  induction records with
  | nil => exact .ok _
  | cons m rest ih =>
    rw [matchingIds]
    refine .bind (Predicate.lasting_eval none m.2 p) fun b => .ite ?_ ih
    exact .ite (.ok _) (.bind ih fun _ => .ok _)

theorem lasting_query (s : Store) (name : String) (sel : Selection) :
    (s.query name sel).1.Lasting := by
  refine .map ?_ _
  induction Members.values (s.collection name).records with
  | nil => exact .ok _
  | cons r rest ih =>
    rw [filterRecords]
    have h := Predicate.lasting_eval sel.collation r sel.filter
    rcases heval : sel.filter.eval sel.collation r with ⟨_ | b, delay⟩
    · rw [heval] at h
      exact .error (h _ rfl)
    · exact ih.map _

theorem lasting_underLimit (limit : Option Nat) {work : Outcome α × Nat}
    (h : work.1.Lasting) : (underLimit limit work).1.Lasting := by
  unfold underLimit
  split
  case h_1 e he =>
    rw [he] at h
    exact .error (h e rfl)
  case h_2 =>
    split
    · split
      · exact .error rfl
      · exact .ok _
    · exact .ok _

/-! ### Calls without faults -/

/-- **No fault is due**, for any operation. -/
def Quiet (s : Store) : Prop := ∀ operation, dueFault? operation s.faults = none

theorem Quiet.of_faults {s t : Store} (h : s.Quiet) (hfaults : t.faults = s.faults) :
    t.Quiet := by
  unfold Quiet
  rw [hfaults]
  exact h

/-- A store where no fault was set up. -/
theorem quiet_of_nil {s : Store} (h : s.faults = []) : s.Quiet := by
  intro operation
  rw [h]
  rfl

/-- **A call is recorded and performed.** -/
theorem Quiet.run_answer {s : Store} (h : s.Quiet) (call : Call) :
    (answer call).run s =
      (perform call).run (s.noted call.operation call.collection call.session?) := by
  rw [answer, run_bind, run_begin, h call.operation]

/-- What a call comes to and leaves is what its work does. -/
theorem Quiet.run_eq {s t : Store} (h : s.Quiet) {c : Call} {outcome : Outcome c.Answer}
    (hperform : (perform c).run (s.noted c.operation c.collection c.session?) = (outcome, t)) :
    (s.run c).outcome = outcome ∧ (s.run c).store = t := by
  have hrun : (answer c).run s = (outcome, t) := (h.run_answer c).trans hperform
  exact ⟨congrArg Prod.fst hrun, congrArg Prod.snd hrun⟩

/-- How long the caller waits. -/
theorem Quiet.run_waitMs {s : Store} (h : s.Quiet) (call : Call) :
    (s.run call).waitMs = s.waitMs call := by
  simp only [run, h call.operation, Option.isSome_none, Bool.false_eq_true, if_false]
  rfl

/-- What a query finds is given by the records of its collection. -/
theorem query_congr {s t : Store} {name : String} (h : t.collection name = s.collection name)
    (sel : Selection) : t.query name sel = s.query name sel := by
  simp only [query, h]

/-- **Nothing but the books** differs: the second store has the records and indexes of the first,
the same faults set up, and makes up the same ids. -/
structure Rests (s t : Store) : Prop where
  collection (name : String) : t.collection name = s.collection name
  faults : t.faults = s.faults
  nextId : t.nextId = s.nextId

theorem Rests.refl (s : Store) : Rests s s := ⟨fun _ => rfl, rfl, rfl⟩

theorem Rests.trans {s t u : Store} (h : Rests s t) (h' : Rests t u) : Rests s u :=
  ⟨fun name => (h'.collection name).trans (h.collection name), h'.faults.trans h.faults,
    h'.nextId.trans h.nextId⟩

theorem Quiet.rests {s t : Store} (h : s.Quiet) (hrests : Rests s t) : t.Quiet :=
  h.of_faults hrests.faults

/-- **A query is answered** from the records of its collection. -/
theorem Quiet.run_find {s : Store} (h : s.Quiet) (name : String) (sel : Selection)
    (session : Option SessionId) :
    (s.run (.find name sel session)).outcome = (underLimit sel.maxTimeMs (s.query name sel)).1 ∧
      Rests s (s.run (.find name sel session)).store := by
  have hfinish := run_finish "find" (underLimit sel.maxTimeMs (s.query name sel)).1
    (s.noted "find" name session)
  have hperform {outcome : Outcome (List Record)} {t : Store}
      (hrun : (finish "find" (underLimit sel.maxTimeMs (s.query name sel)).1).run
        (s.noted "find" name session) = (outcome, t)) :
      (s.run (.find name sel session)).outcome = outcome ∧
        (s.run (.find name sel session)).store = t :=
    h.run_eq (c := .find name sel session) hrun
  rcases hfound : (underLimit sel.maxTimeMs (s.query name sel)).1 with e | rs <;>
    simp only [hfound] at hfinish hperform
  · obtain ⟨houtcome, hstore⟩ := hperform hfinish
    rw [houtcome, hstore]
    exact ⟨rfl, fun _ => rfl, rfl, rfl⟩
  · obtain ⟨houtcome, hstore⟩ := hperform hfinish
    rw [houtcome, hstore]
    exact ⟨rfl, fun _ => rfl, rfl, rfl⟩

/-! ### Sessions without faults -/

/-- **A session starts**, and is active. -/
theorem Quiet.run_startSession {s : Store} (h : s.Quiet) :
    (s.run .startSession).outcome = .ok ⟨s.nextSession⟩ ∧
      Rests s (s.run .startSession).store ∧
      ((s.run .startSession).store.session? ⟨s.nextSession⟩).isSome := by
  obtain ⟨houtcome, hstore⟩ := h.run_eq (c := .startSession) rfl
  rw [houtcome, hstore]
  refine ⟨rfl, ⟨fun _ => rfl, rfl, rfl⟩, ?_⟩
  simp [session?, noted, Call.operation]

/-- **A transaction starts**, or cannot start on its session. -/
theorem Quiet.run_startTransaction {s : Store} (h : s.Quiet) {id : SessionId}
    (hactive : (s.session? id).isSome) :
    Outcome.Lasting (s.run (.startTransaction id)).outcome ∧
      Rests s (s.run (.startTransaction id)).store ∧
      ((s.run (.startTransaction id)).store.session? id).isSome := by
  obtain ⟨state, hstate⟩ := Option.isSome_iff_exists.1 hactive
  have hnoted : (s.noted "startTransaction" "" (some id)).session? id = some state := hstate
  have hrun : (perform (.startTransaction id)).run (s.noted "startTransaction" "" (some id)) =
      if state.inTransaction then
        (.error (.store 256 "transaction already in progress"),
          s.noted "startTransaction" "" (some id))
      else (.ok (), (s.noted "startTransaction" "" (some id)).setSession id
        { inTransaction := true, undo := [] }) := by
    dsimp only [perform, Call.Answer]
    simp only [run_bind, run_get, hnoted]
    cases state.inTransaction <;> rfl
  split at hrun
  · obtain ⟨houtcome, hstore⟩ := h.run_eq hrun
    rw [houtcome, hstore]
    exact ⟨.error rfl, ⟨fun _ => rfl, rfl, rfl⟩, hactive⟩
  · obtain ⟨houtcome, hstore⟩ := h.run_eq hrun
    rw [houtcome, hstore]
    refine ⟨.ok _, ⟨fun _ => rfl, rfl, rfl⟩, ?_⟩
    rw [session?_setSession, if_pos rfl, hnoted]
    rfl

/-- **A transaction commits.** -/
theorem Quiet.run_commit {s : Store} (h : s.Quiet) {id : SessionId}
    (hactive : (s.session? id).isSome) :
    (s.run (.commit id)).outcome = .ok () ∧ Rests s (s.run (.commit id)).store ∧
      (s.run (.commit id)).store.session? id = some {} := by
  obtain ⟨state, hstate⟩ := Option.isSome_iff_exists.1 hactive
  have hnoted : (s.noted "commitTransaction" "" (some id)).session? id = some state := hstate
  have hrun : (perform (.commit id)).run (s.noted "commitTransaction" "" (some id)) =
      (.ok (), (s.noted "commitTransaction" "" (some id)).setSession id {}) := by
    dsimp only [perform, Call.Answer]
    rw [run_modify, if_pos (hnoted ▸ rfl)]
  obtain ⟨houtcome, hstore⟩ := h.run_eq hrun
  rw [houtcome, hstore]
  refine ⟨rfl, ⟨fun _ => rfl, rfl, rfl⟩, ?_⟩
  rw [session?_setSession, if_pos rfl, hnoted]
  rfl

/-- **A session without a transaction ends**, and nothing is taken back. -/
theorem Quiet.run_endSession {s : Store} (h : s.Quiet) {id : SessionId}
    (hdone : s.session? id = some {}) : Rests s (s.run (.endSession id)).store := by
  have hnoted : (s.noted "endSession" "" (some id)).session? id = some {} := hdone
  have hrun : (perform (.endSession id)).run (s.noted "endSession" "" (some id)) =
      (.ok (), { s.noted "endSession" "" (some id) with
        sessions := s.sessions.filter fun entry => entry.1 ≠ id }) := by
    dsimp only [perform, Call.Answer]
    simp only [run_bind, run_get, hnoted]
    rfl
  rw [(h.run_eq hrun).2]
  exact ⟨fun _ => rfl, rfl, rfl⟩

end Store

/-! ### Queries that take no time -/

namespace Predicate

/-- **A predicate without scripts** takes no time. -/
def Prompt (p : Predicate) : Prop := ∀ c r, (p.eval c r).2 = 0

theorem prompt_field (path : String) (cond : Condition) : (Predicate.field path cond).Prompt := by
  intro c r
  rw [eval]

end Predicate

namespace Store

theorem query_prompt (s : Store) (name : String) {sel : Selection} (h : sel.filter.Prompt) :
    (s.query name sel).2 = 0 := by
  change (filterRecords sel.collation sel.filter _).2 = 0
  induction Members.values (s.collection name).records with
  | nil => rfl
  | cons r rest ih =>
    rw [filterRecords]
    have hfirst := h sel.collation r
    rcases heval : sel.filter.eval sel.collation r with ⟨_ | b, delay⟩
    · rw [heval] at hfirst
      exact hfirst
    · rw [heval] at hfirst
      simp only at hfirst ⊢
      rw [hfirst, ih]

theorem underLimit_prompt (limit : Option Nat) {work : Outcome α × Nat} (h : work.2 = 0) :
    (underLimit limit work).2 = 0 := by
  unfold underLimit
  split
  · rfl
  · split
    · rw [if_neg (by omega)]
      exact h
    · exact h

/-- **A query without scripts** takes no time. -/
theorem waitMs_find (s : Store) (name : String) {sel : Selection} (h : sel.filter.Prompt)
    (session : Option SessionId) : s.waitMs (.find name sel session) = 0 :=
  underLimit_prompt _ (s.query_prompt name h)

theorem waitMs_count (s : Store) (name : String) {p : Predicate} (h : p.Prompt)
    (limit : Option Nat) (session : Option SessionId) :
    s.waitMs (.count name p limit session) = 0 := by
  have hquery : (s.query name { filter := p }).2 = 0 := s.query_prompt name h
  exact underLimit_prompt limit hquery

end Store

end ObjectEngine
