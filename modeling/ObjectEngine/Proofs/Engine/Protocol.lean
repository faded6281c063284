import ObjectEngine.Proofs.Engine.Calls
import ObjectEngine.Proofs.Store.Effect

/-!
# The protocol of a transaction

The calls that a batch in a transaction makes, under any faults. A run is a sequence of attempts
(`Batch.Trying`). Each attempt opens a session and ends it (`Batch.Attempting`); in between it
opens a transaction on it, runs the writes and commits or aborts (`Batch.Transacting`); and the
writes run in order up to the first that fails, all of their calls on the session
(`Batch.Writing`).

The predicates are grammars of logs: each constructor is one way in which a piece of work may go,
with the calls that are made then and what comes of it. `Batch.protocol` says that every run of a
batch is one of them, whatever faults are set up before each of its calls.
-/

namespace ObjectEngine

/-! ### The calls of a write -/

/-- A call on the records of a collection, within a session. -/
def Store.Call.OnSession (id : SessionId) : Store.Call → Prop
  | .find _ _ session | .count _ _ _ session | .insert _ _ session | .update _ _ _ session
  | .findAndUpdate _ _ _ session | .upsert _ _ _ session | .delete _ _ session =>
    session = some id
  | _ => False

theorem straight_call {id : SessionId} (c : Store.Call) (h : c.OnSession id) :
    StoreAction.Straight (Store.Call.OnSession id) (fun _ => True) (Program.call c) :=
  .call h

namespace Join

/-- The calls that edit the edges of an owner. -/
theorem straight_apply (id : SessionId) (className owner : String) (e : Plan.RelationEdit) :
    (apply className owner e (some id)).Straight (Store.Call.OnSession id) fun _ => True := by
  refine .bind (Q := fun _ => True) ?_ fun _ _ => ?_
  · refine (StoreAction.straight _).forIn fun related _ => ?_
    exact .bind (straight_call (.upsert ..) rfl) fun _ _ => .pure trivial
  · split
    · exact .bind (straight_call (.delete ..) rfl) fun _ _ => .pure trivial
    · exact .pure trivial

theorem straight_removeOwners (id : SessionId) (className field : String) (owners : List String) :
    (removeOwners className field owners (some id)).Straight (Store.Call.OnSession id)
      fun _ => True :=
  .ite (fun _ => .pure trivial) fun _ => straight_call (.delete ..) rfl

end Join

namespace Write

theorem straight_matchingIds (id : SessionId) (name : String) (p : Predicate)
    (limit : Option Nat) :
    (matchingIds name p limit (some id)).Straight (Store.Call.OnSession id) fun _ => True :=
  .bind (straight_call (.find ..) rfl) fun _ _ => .pure trivial

theorem straight_updateRecords (id : SessionId) (name : String) (p : Predicate) (edit : Edit)
    (many : Bool) :
    (updateRecords name p edit many (some id)).Straight (Store.Call.OnSession id)
      fun _ => True := by
  refine .ite (fun _ => ?_) fun _ => .ite (fun _ => ?_) fun _ => ?_
  · exact .bind (straight_call (.count ..) rfl) fun _ _ => .pure trivial
  · exact .bind (straight_call (.update ..) rfl) fun _ _ => .pure trivial
  · exact .bind (straight_call (.findAndUpdate ..) rfl) fun _ _ => .pure trivial

/-- **The calls of a write** all carry its session, those on edges included, and it stops at the
first that fails. -/
theorem straight_run (id : SessionId) (write : Write) :
    (write.run (some id)).Straight (Store.Call.OnSession id) fun _ => True := by
  cases write with
  | insert name record => exact .bind (straight_call (.insert ..) rfl) fun _ _ => .pure trivial
  | update name p plan many =>
    refine .ite_bind (fun _ => .pure trivial) (fun _ => straight_matchingIds id name p _)
      fun owners _ => ?_
    refine .bind (straight_updateRecords id name p plan.edit many) fun out _ => ?_
    refine .bind ((StoreAction.straight _).forIn fun owner _ => ?_) fun _ _ => .pure trivial
    refine .bind ((StoreAction.straight _).forIn fun e _ => ?_) fun _ _ => .pure trivial
    exact .bind (Join.straight_apply id name owner e) fun _ _ => .pure trivial
  | upsert name p edit => exact .bind (straight_call (.upsert ..) rfl) fun _ _ => .pure trivial
  | delete name p fields =>
    refine .ite_bind (fun _ => .pure trivial) (fun _ => straight_matchingIds id name p _)
      fun owners _ => ?_
    refine .bind (straight_call (.delete ..) rfl) fun _ _ => ?_
    refine .bind ((StoreAction.straight _).forIn fun field _ => ?_) fun _ _ => .pure trivial
    exact .bind (Join.straight_removeOwners id name field owners) fun _ _ => .pure trivial

end Write

namespace Batch

variable {writes : List Write} {log : List Exchange}

/-! ### Logs of transactions -/

/-- **The calls of one write** on a session: the write's own, all on the session, up to the
first that fails. -/
structure Issues (id : SessionId) (write : Write) (log : List Exchange)
    (outcome : Outcome WriteResult) : Prop where
  made : (write.run (some id)).Makes log outcome
  onSession : ∀ x ∈ log, x.call.OnSession id
  stops : StoreAction.Stops log outcome

/-- **The calls of writes in order**, up to the first that fails. -/
inductive Writing (id : SessionId) :
    List Write → List Exchange → Outcome (List WriteResult) → Prop
  | done : Writing id [] [] (.ok [])
  | failed {write : Write} {rest : List Write} {log : List Exchange} {e : EngineError} :
    Issues id write log (.error e) → Writing id (write :: rest) log (.error e)
  | succeeded {write : Write} {rest : List Write} {log later : List Exchange}
      {result : WriteResult} {outcome : Outcome (List WriteResult)} :
    Issues id write log (.ok result) → Writing id rest later outcome →
      Writing id (write :: rest) (log ++ later) (outcome.map (result :: ·))

/-- **The calls on a session** between its start and its end. A transaction that has been opened
is committed if all writes succeeded, and it is aborted if a write or the commit failed. What
comes of an abort makes no difference. -/
inductive Transacting (id : SessionId) (writes : List Write) :
    List Exchange → Outcome (List WriteResult) → Prop
  | unopened (e : EngineError) :
    Transacting id writes [⟨.startTransaction id, .error e⟩] (.error e)
  | aborted {log : List Exchange} {e : EngineError} (answer : Outcome Unit) :
    Writing id writes log (.error e) →
      Transacting id writes
        ([⟨.startTransaction id, .ok ()⟩] ++ log ++ [⟨.abort id, answer⟩]) (.error e)
  | uncommitted {log : List Exchange} {results : List WriteResult} (e : EngineError)
      (answer : Outcome Unit) :
    Writing id writes log (.ok results) →
      Transacting id writes
        ([⟨.startTransaction id, .ok ()⟩] ++ log ++ [⟨.commit id, .error e⟩, ⟨.abort id, answer⟩])
        (.error e)
  | committed {log : List Exchange} {results : List WriteResult} :
    Writing id writes log (.ok results) →
      Transacting id writes
        ([⟨.startTransaction id, .ok ()⟩] ++ log ++ [⟨.commit id, .ok ()⟩]) (.ok results)

/-- **The calls of one attempt.** Its session is ended once, after all other calls, whatever came
of them, and what comes of that makes no difference. -/
inductive Attempting (writes : List Write) : List Exchange → Outcome (List WriteResult) → Prop
  | refused (e : EngineError) : Attempting writes [⟨.startSession, .error e⟩] (.error e)
  | ended {id : SessionId} {log : List Exchange} {outcome : Outcome (List WriteResult)}
      (answer : Outcome Unit) :
    Transacting id writes log outcome →
      Attempting writes ([⟨.startSession, .ok id⟩] ++ log ++ [⟨.endSession id, answer⟩]) outcome

/-- **The attempts of a batch** with a number of retries left: a transient error is tried again
while there are any, and nothing else is. -/
inductive Trying (writes : List Write) :
    Nat → List (List Exchange) → Outcome (List WriteResult) → Prop
  | last {retries : Nat} {log : List Exchange} {outcome : Outcome (List WriteResult)} :
    Attempting writes log outcome →
      (∀ e, outcome = .error e → e.isTransient = true → retries = 0) →
      Trying writes retries [log] outcome
  | again {retries : Nat} {log : List Exchange} {logs : List (List Exchange)} {e : EngineError}
      {outcome : Outcome (List WriteResult)} :
    Attempting writes log (.error e) → e.isTransient = true → Trying writes retries logs outcome →
      Trying writes (retries + 1) (log :: logs) outcome

/-! ### What a batch does is in the grammar -/

theorem writing_of_makes (id : SessionId) {outcome : Outcome (List WriteResult)}
    (h : StoreAction.Makes (writes.mapM (Write.run (some id))) log outcome) :
    Writing id writes log outcome := by
  have hissues {write : Write} {log : List Exchange} {outcome : Outcome WriteResult}
      (hmade : (write.run (some id)).Makes log outcome) : Issues id write log outcome :=
    let ⟨hcalls, hstops, _⟩ := Write.straight_run id write log outcome hmade
    ⟨hmade, hcalls, hstops⟩
  induction writes generalizing log outcome with
  | nil =>
    obtain ⟨rfl, rfl⟩ := StoreAction.makes_pure.1 h
    exact .done
  | cons write rest ih =>
    rw [List.mapM_cons] at h
    rcases StoreAction.makes_bind.1 h with ⟨e, hwrite, rfl⟩ | ⟨_, after, result, rfl, hwrite, h⟩
    · exact .failed (hissues hwrite)
    rcases StoreAction.makes_bind.1 h with ⟨e, hrest, rfl⟩ | ⟨_, _, results, rfl, hrest, h⟩
    · exact .succeeded (hissues hwrite) (ih hrest)
    · obtain ⟨rfl, rfl⟩ := StoreAction.makes_pure.1 h
      rw [List.append_nil]
      exact .succeeded (hissues hwrite) (ih hrest)

/-- An abort makes one call and gives back the error that caused it. -/
theorem makes_abort {α : Type} {id : SessionId} {cause : EngineError} {outcome : Outcome α}
    (h : StoreAction.Makes (abort id cause) log outcome) :
    ∃ answer, log = [⟨.abort id, answer⟩] ∧ outcome = .error cause := by
  obtain ⟨_, _, answer, rfl, hcall, hthrow⟩ := StoreAction.makes_outcomeOf_bind.1 h
  obtain rfl := StoreAction.makes_call.1 hcall
  obtain ⟨rfl, rfl⟩ := StoreAction.makes_throw.1 hthrow
  exact ⟨answer, List.append_nil _, rfl⟩

theorem transacting_of_makes {id : SessionId} {outcome : Outcome (List WriteResult)}
    (h : (runOn id writes).Makes log outcome) : Transacting id writes log outcome := by
  rcases StoreAction.makes_bind.1 h with ⟨e, hopen, rfl⟩ | ⟨_, _, u, rfl, hopen, hopened⟩
  · obtain rfl := StoreAction.makes_call.1 hopen
    exact .unopened e
  obtain rfl := StoreAction.makes_call.1 hopen
  obtain ⟨_, _, r, rfl, hwriting, hwritten⟩ := StoreAction.makes_outcomeOf_bind.1 hopened
  have hwriting := writing_of_makes id hwriting
  cases r with
  | error e =>
    obtain ⟨answer, rfl, rfl⟩ := makes_abort hwritten
    rw [← List.append_assoc]
    exact .aborted answer hwriting
  | ok results =>
    obtain ⟨_, _, r, rfl, hcommit, hcommitted⟩ := StoreAction.makes_outcomeOf_bind.1 hwritten
    obtain rfl := StoreAction.makes_call.1 hcommit
    cases r with
    | error e =>
      obtain ⟨answer, rfl, rfl⟩ := makes_abort hcommitted
      rw [← List.append_assoc]
      exact .uncommitted e answer hwriting
    | ok u =>
      obtain ⟨rfl, rfl⟩ := StoreAction.makes_pure.1 hcommitted
      rw [List.append_nil, ← List.append_assoc]
      exact .committed hwriting

theorem attempting_of_makes {outcome : Outcome (List WriteResult)}
    (h : (attempt writes).Makes log outcome) : Attempting writes log outcome := by
  rcases StoreAction.makes_bind.1 h with ⟨e, hstart, rfl⟩ | ⟨_, _, id, rfl, hstart, hstarted⟩
  · obtain rfl := StoreAction.makes_call.1 hstart
    exact .refused e
  obtain rfl := StoreAction.makes_call.1 hstart
  obtain ⟨_, _, r, rfl, hrun, hdone⟩ := StoreAction.makes_outcomeOf_bind.1 hstarted
  obtain ⟨_, _, answer, rfl, hend, hended⟩ := StoreAction.makes_outcomeOf_bind.1 hdone
  obtain rfl := StoreAction.makes_call.1 hend
  obtain ⟨rfl, rfl⟩ : _ ∧ outcome = r := by
    cases r with
    | ok results => exact StoreAction.makes_pure.1 hended
    | error e => exact StoreAction.makes_throw.1 hended
  rw [List.append_nil, ← List.append_assoc]
  exact .ended answer (transacting_of_makes hrun)

/-- **The attempts of a batch.** -/
theorem trying_of_makes {retries number : Nat} {outcome : Outcome (List WriteResult)}
    (h : (transaction writes retries number).Makes log outcome) :
    ∃ attempts, Trying writes retries attempts outcome ∧ log = attempts.flatten := by
  induction retries generalizing number log with
  | zero =>
    have hattempt : Attempting writes log outcome := attempting_of_makes h
    exact ⟨[log], .last hattempt fun _ _ _ => rfl, by simp⟩
  | succ retries ih =>
    obtain ⟨first, _, r, rfl, hfirst, hrest⟩ := StoreAction.makes_outcomeOf_bind.1 h
    have hattempt := attempting_of_makes hfirst
    cases r with
    | ok results =>
      obtain ⟨rfl, rfl⟩ := StoreAction.makes_pure.1 hrest
      exact ⟨[first], .last hattempt nofun, by simp⟩
    | error e =>
      by_cases htransient : e.isTransient = true
      · simp only [htransient, if_true] at hrest
        -- the pause before the next attempt is no call
        obtain ⟨_, _, u, rfl, hpause, hagain⟩ := StoreAction.makes_lift_bind.1 hrest
        obtain rfl := Program.makes_request.1 hpause
        obtain ⟨attempts, htrying, rfl⟩ := ih hagain
        exact ⟨first :: attempts, .again hattempt htransient htrying, rfl⟩
      · simp only [htransient] at hrest
        obtain ⟨rfl, rfl⟩ := StoreAction.makes_throw.1 hrest
        refine ⟨[first], .last hattempt fun e' he' htransient' => ?_, by simp⟩
        obtain rfl := Except.error.inj he'
        exact absurd htransient' htransient

end Batch

/-! ### Commits and sessions in a log -/

namespace Exchange

/-- Whether a transaction was committed. -/
def commits : Exchange → Bool
  | ⟨.commit _, .ok _⟩ => true
  | _ => false

/-- The session that was started, if one was. -/
def started? : Exchange → Option SessionId
  | ⟨.startSession, .ok id⟩ => some id
  | _ => none

theorem commits_of_onSession {id : SessionId} {x : Exchange} (h : x.call.OnSession id) :
    x.commits = false := by
  obtain ⟨call, outcome⟩ := x
  cases call <;> first | rfl | exact absurd h not_false

end Exchange

/-- A session that is started has the next number, which is used up. -/
theorem Store.nextSession_run (s : Store) (call : Store.Call) :
    s.nextSession ≤ (s.run call).store.nextSession ∧
      ∀ id, Exchange.started? ⟨call, (s.run call).outcome⟩ = some id →
        id.number = s.nextSession ∧ s.nextSession < (s.run call).store.nextSession := by
  cases hrun : (s.run call).outcome with
  | error e =>
    have hnext := (Store.run_error hrun).nextSession
    refine ⟨by omega, fun id h => ?_⟩
    cases call <;> exact absurd h (by simp [Exchange.started?])
  | ok a =>
    have hnext := (Store.run_ok hrun).nextSession
    cases call with
    | startSession =>
      change _ = s.nextSession + 1 at hnext
      refine ⟨by omega, fun id h => ?_⟩
      obtain rfl : a = id := Option.some.inj h
      have hid : a = ⟨s.nextSession⟩ := (Store.run_ok hrun).answers
      exact ⟨congrArg SessionId.number hid, by omega⟩
    | _ =>
      change _ = s.nextSession at hnext
      exact ⟨by omega, fun id h => absurd h (by simp [Exchange.started?])⟩

/-- **The sessions that a program starts** are new, and each is another one. -/
theorem Program.started_runUnder {α : Type} (schedule : Nat → Disturbance) (p : Program α)
    (n : Nat) (w : World) :
    ((p.runUnder schedule n w).1.2.filterMap Exchange.started?).Pairwise
        (fun a b => a.number < b.number) ∧
      ∀ id ∈ (p.runUnder schedule n w).1.2.filterMap Exchange.started?,
        w.store.nextSession ≤ id.number := by
  induction p generalizing n w with
  | done a => exact ⟨List.Pairwise.nil, by simp [runUnder]⟩
  | ask r next ih =>
    cases r with
    | store call =>
      let s : Store := { w.store with faults := schedule n w.store.faults }
      obtain ⟨hpairwise, hlater⟩ := ih (s.run call).outcome (n + 1)
        ((World.mk (s.run call).store w.clockMs w.epoch w.nextObject).advance (s.run call).waitMs)
      obtain ⟨hle, hstarted⟩ := s.nextSession_run call
      change (List.filterMap Exchange.started? (⟨call, (s.run call).outcome⟩ :: _)).Pairwise _ ∧
        ∀ id ∈ List.filterMap Exchange.started? (⟨call, (s.run call).outcome⟩ :: _),
          s.nextSession ≤ id.number
      change ∀ id : SessionId, id ∈ _ → (s.run call).store.nextSession ≤ id.number at hlater
      rw [List.filterMap_cons]
      cases hid : Exchange.started? ⟨call, (s.run call).outcome⟩ with
      | none =>
        refine ⟨hpairwise, fun id hmem => ?_⟩
        have := hlater id hmem
        omega
      | some id =>
        obtain ⟨hnumber, hlt⟩ := hstarted id hid
        refine ⟨List.pairwise_cons.2 ⟨fun other hmem => ?_, hpairwise⟩, fun other hmem => ?_⟩
        · have := hlater other hmem
          omega
        · rcases List.mem_cons.1 hmem with rfl | hmem
          · omega
          · have := hlater other hmem
            omega
    | pause ms => exact ih _ _ _
    | newId => exact ih _ _ _
    | now => exact ih _ _ _

namespace Batch

variable {writes : List Write} {log : List Exchange} {outcome : Outcome (List WriteResult)}

/-- An attempt that commits. -/
def Commits (log : List Exchange) : Prop := log.any Exchange.commits = true

theorem Writing.onSession {id : SessionId} (h : Writing id writes log outcome) :
    ∀ x ∈ log, x.call.OnSession id := by
  induction h with
  | done => simp
  | failed hwrite => exact hwrite.onSession
  | succeeded hwrite _ ih => exact List.forall_mem_append.2 ⟨hwrite.onSession, ih⟩

/-- One result for each write. -/
theorem Writing.length_eq {id : SessionId} (h : Writing id writes log outcome) :
    ∀ results, outcome = .ok results → results.length = writes.length := by
  induction h with
  | done => exact fun results hok => Except.ok.inj hok ▸ rfl
  | failed _ => exact nofun
  | succeeded _ _ ih =>
    intro results hok
    obtain ⟨later, hlater, rfl⟩ := Outcome.map_eq_ok.1 hok
    rw [List.length_cons, List.length_cons, ih later hlater]

theorem Attempting.length_eq (h : Attempting writes log outcome) :
    ∀ results, outcome = .ok results → results.length = writes.length := by
  rcases h with ⟨e⟩ | ⟨answer, ⟨e⟩ | ⟨answer', hwriting⟩ | ⟨e, answer', hwriting⟩ | ⟨hwriting⟩⟩
  · exact nofun
  · exact nofun
  · exact nofun
  · exact nofun
  · exact hwriting.length_eq

/-- **An attempt succeeds if and only if it commits.** -/
theorem Attempting.commits_iff (h : Attempting writes log outcome) :
    Commits log ↔ ∃ results, outcome = .ok results := by
  have hno {id : SessionId} {log : List Exchange} {outcome : Outcome (List WriteResult)}
      (hwriting : Writing id writes log outcome) : log.any Exchange.commits = false := by
    refine List.any_eq_false.2 fun x hx => ?_
    rw [Exchange.commits_of_onSession (hwriting.onSession x hx)]
    exact Bool.false_ne_true
  unfold Commits
  rcases h with ⟨e⟩ | ⟨answer, ⟨e⟩ | ⟨answer', hwriting⟩ | ⟨e, answer', hwriting⟩ | ⟨hwriting⟩⟩
  · simp [Exchange.commits]
  · simp [Exchange.commits]
  · simp [List.any_append, hno hwriting, Exchange.commits]
  · simp [List.any_append, hno hwriting, Exchange.commits]
  · simp [Exchange.commits]

theorem Trying.length_le {retries : Nat} {attempts : List (List Exchange)}
    (h : Trying writes retries attempts outcome) :
    1 ≤ attempts.length ∧ attempts.length ≤ retries + 1 := by
  induction h with
  | last _ _ => simp
  | again _ _ _ ih => simp only [List.length_cons]; omega

theorem Trying.length_eq {retries : Nat} {attempts : List (List Exchange)}
    (h : Trying writes retries attempts outcome) :
    ∀ results, outcome = .ok results → results.length = writes.length := by
  induction h with
  | last hattempt _ => exact hattempt.length_eq
  | again _ _ _ ih => exact ih

/-- **Only the last attempt may commit.** -/
theorem Trying.commits_iff {retries : Nat} {attempts : List (List Exchange)}
    (h : Trying writes retries attempts outcome) :
    ((∃ results, outcome = .ok results) ↔ ∃ last ∈ attempts.getLast?, Commits last) ∧
      ∀ earlier ∈ attempts.dropLast, ¬Commits earlier := by
  induction h with
  | last hattempt _ => exact ⟨by simpa using hattempt.commits_iff.symm, by simp⟩
  | again hattempt _ hlater ih =>
    obtain ⟨hlast, hearlier⟩ := ih
    have hne := List.length_pos_iff.1 hlater.length_le.1
    rw [List.getLast?_cons_of_ne_nil hne, List.dropLast_cons_of_ne_nil hne]
    refine ⟨hlast, fun earlier hmem => ?_⟩
    rcases List.mem_cons.1 hmem with rfl | hmem
    · rw [hattempt.commits_iff]
      exact nofun
    · exact hearlier earlier hmem

/-! ### Every run -/

/-- Runs a batch in a transaction while a schedule sets up faults, and keeps its log. -/
def executeUnder (schedule : Nat → Program.Disturbance) (retries : Nat) (writes : List Write)
    (w : World) : (Outcome (List (Outcome WriteResult)) × List Exchange) × World :=
  let ((outcome, log), w) := (transaction writes retries 1).run.runUnder schedule 0 w
  ((outcome.map fun results => results.map .ok, log), w)

/-- A batch is run under a schedule without faults of its own. -/
theorem execute_eq (retries : Nat) (writes : List Write) (w : World) :
    execute retries writes true w =
      ((executeUnder (fun _ faults => faults) retries writes w).1.1,
        (executeUnder (fun _ faults => faults) retries writes w).2) := by
  obtain ⟨houtcome, hworld⟩ :=
    Program.runUnder_undisturbed (transaction writes retries 1).run 0 w
  simp only [execute, executeUnder, if_true, houtcome, hworld]

/-- **The protocol of a batch in a transaction**, for all writes, all numbers of retries and all
faults set up before any of its calls. Its log falls into at least one attempt and at most one
more than there are retries, each tried only after a transient error of the one before it and
each of the form that `Attempting` gives. The result is that of the last attempt: it has one
result for each write if that attempt committed, and otherwise is its error. No other attempt
committed. The sessions of the attempts are new ones, and no two of them are the same. -/
theorem protocol (schedule : Nat → Program.Disturbance) (retries : Nat) (writes : List Write)
    (w : World) :
    ∃ attempts outcome,
      (executeUnder schedule retries writes w).1 =
        (outcome.map fun results => results.map .ok, attempts.flatten) ∧
      Trying writes retries attempts outcome ∧
      (1 ≤ attempts.length ∧ attempts.length ≤ retries + 1) ∧
      (∀ results, outcome = .ok results → results.length = writes.length) ∧
      ((∃ results, outcome = .ok results) ↔ ∃ last ∈ attempts.getLast?, Commits last) ∧
      (∀ earlier ∈ attempts.dropLast, ¬Commits earlier) ∧
      (attempts.flatten.filterMap Exchange.started?).Pairwise (fun a b => a.number < b.number) ∧
      ∀ id ∈ attempts.flatten.filterMap Exchange.started?, w.store.nextSession ≤ id.number := by
  let p := (transaction writes retries 1).run
  have hmakes : (transaction writes retries 1).Makes (p.runUnder schedule 0 w).1.2
      (p.runUnder schedule 0 w).1.1 := Program.makes_runUnder schedule p 0 w
  obtain ⟨attempts, htrying, hlog⟩ := trying_of_makes hmakes
  obtain ⟨hlast, hearlier⟩ := htrying.commits_iff
  obtain ⟨hdistinct, hnew⟩ := Program.started_runUnder schedule p 0 w
  rw [hlog] at hdistinct hnew
  refine ⟨attempts, (p.runUnder schedule 0 w).1.1, ?_, htrying, htrying.length_le,
    htrying.length_eq, hlast, hearlier, hdistinct, hnew⟩
  rw [← hlog]
  rfl

end Batch

end ObjectEngine
