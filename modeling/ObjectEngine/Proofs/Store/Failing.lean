import ObjectEngine.Proofs.Store.Quiet

/-!
# Calls that fail

An update goes through its records one after the other, and may get stuck at any of them: at a
filter that cannot be decided there, at an operator that does not fit the record, or at a key that
is taken (`Store.Stuck`). By then it has been through other records, and its operators may have
been through a part of this one. Where no fault is due and the session is active, this is the only
way in which an update fails (`Store.Quiet.run_update_eq_error`).

Nothing of it is seen afterwards. A call that fails, for this reason or for a fault or for its
session, leaves every collection and the undo log of every session as they were
(`Store.unchanged_of_run_error`).
-/

namespace ObjectEngine

namespace Store

variable {s : Store} {name : String} {c : Collection} {filter : Predicate} {edit : Edit}
  {session : Option SessionId} {id : String} {e : EngineError}

/-! ### Stuck half-way -/

/-- **An update that is stuck** at a record, after it has been through those before: it cannot be
decided whether to update that one, or the operators do not fit it, or it would take the key of
another. -/
inductive Stuck (name : String) (c : Collection) (filter : Predicate) (edit : Edit)
    (e : EngineError) : Prop
  | search {before rest : Members Record} {m : String × Record} {found : List String}
    (hrecords : c.records = before ++ m :: rest)
    (hbefore : matchingIds false filter before = .ok found)
    (hstuck : (filter.eval none m.2).1 = .error e) : Stuck name c filter edit e
  | rewrite {before rest : List String} {id : String} {r : Record}
    {staged : List (String × Record × Record)}
    (hids : matchingIds false filter c.records = .ok (before ++ id :: rest))
    (hbefore : stage name c edit before = .ok staged) (hr : c.records.lookup id = some r)
    (hstuck : (edit.apply false r >>= checkUnique name c) = .error e) : Stuck name c filter edit e

/-- **Work along a list** that goes on past some items and fails at others: it fails at an item
that comes after such as it gets past. -/
theorem exists_stuck {α : Type} (goes fails : α → Prop) (past stuck : List α → Prop)
    (hpast : past []) (hstuck : ¬stuck [])
    (hpast_cons : ∀ a l, past (a :: l) ↔ goes a ∧ past l)
    (hstuck_cons : ∀ a l, stuck (a :: l) ↔ fails a ∨ goes a ∧ stuck l) (l : List α) :
    stuck l ↔ ∃ before a rest, l = before ++ a :: rest ∧ past before ∧ fails a := by
  induction l with
  | nil => simp [hstuck]
  | cons a l ih =>
    rw [hstuck_cons, ih]
    constructor
    · rintro (h | ⟨ha, before, b, rest, rfl, hbefore, h⟩)
      · exact ⟨[], a, l, rfl, hpast, h⟩
      · exact ⟨a :: before, b, rest, rfl, (hpast_cons a before).2 ⟨ha, hbefore⟩, h⟩
    · rintro ⟨before, b, rest, hl, hbefore, h⟩
      cases before with
      | nil =>
        obtain ⟨rfl, -⟩ := List.cons.inj hl
        exact .inl h
      | cons a' before =>
        obtain ⟨rfl, rfl⟩ := List.cons.inj hl
        obtain ⟨ha, hbefore⟩ := (hpast_cons a before).1 hbefore
        exact .inr ⟨ha, before, b, rest, rfl, hbefore, h⟩

/-- **A search fails** at the first record for which its filter cannot be decided. -/
theorem matchingIds_eq_error (records : Members Record) :
    matchingIds false filter records = .error e ↔
      ∃ before m rest, records = before ++ m :: rest ∧
        (∃ found, matchingIds false filter before = .ok found) ∧
        (filter.eval none m.2).1 = .error e := by
  refine exists_stuck (fun m => ∃ b, (filter.eval none m.2).1 = .ok b) _
    (fun l => ∃ found, matchingIds false filter l = .ok found)
    (fun l => matchingIds false filter l = .error e) ⟨[], rfl⟩ (by simp [matchingIds])
    (fun m l => ?_) (fun m l => ?_) records
  all_goals
    cases hm : (filter.eval none m.2).1 with
    | error e' => simp [matchingIds, hm, bind, Except.bind]
    | ok b =>
      cases hl : matchingIds false filter l <;> cases b <;>
        simp [matchingIds, hm, hl, bind, Except.bind, pure, Except.pure]

/-- **Rewriting fails** at the first record that the operators do not fit or that would take the
key of another. -/
theorem stage_eq_error (ids : List String) :
    stage name c edit ids = .error e ↔
      ∃ before id rest, ids = before ++ id :: rest ∧
        (∃ staged, stage name c edit before = .ok staged) ∧
        ∃ r, c.records.lookup id = some r ∧
          (edit.apply false r >>= checkUnique name c) = .error e := by
  refine exists_stuck
    (fun id => ∀ r, c.records.lookup id = some r →
      (edit.apply false r >>= checkUnique name c) = .ok ()) _
    (fun l => ∃ staged, stage name c edit l = .ok staged)
    (fun l => stage name c edit l = .error e) ⟨[], rfl⟩ (by simp [stage])
    (fun id l => ?_) (fun id l => ?_) ids
  all_goals
    cases hid : c.records.lookup id with
    | none => simp [stage, hid]
    | some r =>
      cases hnext : edit.apply false r with
      | error e' => simp [stage, hid, hnext, bind, Except.bind]
      | ok next =>
        cases hcheck : checkUnique name c next <;> cases hl : stage name c edit l <;>
          simp [stage, hid, hnext, hcheck, hl, bind, Except.bind, pure, Except.pure]

/-- **A search and what is rewritten after it** fail together where they are stuck. -/
theorem bind_stage_eq_error :
    (matchingIds false filter c.records >>= stage name c edit) = .error e ↔
      Stuck name c filter edit e := by
  constructor
  · intro h
    cases hids : matchingIds false filter c.records with
    | error e' =>
      obtain rfl : e' = e := by simpa [hids, bind, Except.bind] using h
      obtain ⟨before, m, rest, hrecords, ⟨found, hbefore⟩, hstuck⟩ :=
        (matchingIds_eq_error c.records).1 hids
      exact .search hrecords hbefore hstuck
    | ok ids =>
      have hstage : stage name c edit ids = .error e := by simpa [hids, bind, Except.bind] using h
      obtain ⟨before, id, rest, rfl, ⟨staged, hbefore⟩, r, hr, hstuck⟩ :=
        (stage_eq_error ids).1 hstage
      exact .rewrite hids hbefore hr hstuck
  · intro h
    cases h with
    | search hrecords hbefore hstuck =>
      have hids := (matchingIds_eq_error c.records).2 ⟨_, _, _, hrecords, ⟨_, hbefore⟩, hstuck⟩
      simp [hids, bind, Except.bind]
    | @rewrite before rest id r staged hids hbefore hr hstuck =>
      have hstage := (stage_eq_error _).2 ⟨before, id, rest, rfl, ⟨staged, hbefore⟩, r, hr, hstuck⟩
      simp [hids, hstage, bind, Except.bind]

/-- **An update fails where it is stuck**, with the error that it gets there. -/
theorem Quiet.run_update_eq_error (h : s.Quiet)
    (hsession : ∀ id ∈ session, (s.session? id).isSome) :
    (s.run (.update name filter edit session)).outcome = .error e ↔
      Stuck name (s.collection name) filter edit e := by
  rw [← bind_stage_eq_error]
  have hactive : (checkSession session).run (s.noted "update" name session) =
      (.ok ⟨⟩, s.noted "update" name session) := by
    cases session with
    | none => rfl
    | some id =>
      have hsome : ((s.noted "update" name (some id)).session? id).isSome := hsession id rfl
      simp [checkSession, Option.isSome_iff_ne_none.1 hsome]
  have hnoted : (s.noted "update" name session).collection name = s.collection name := rfl
  have houtcome {outcome : Outcome Nat} {t : Store}
      (hperform : ExceptT.run (α := Nat) (perform (.update name filter edit session))
        (s.noted "update" name session) = (outcome, t)) :
      (s.run (.update name filter edit session)).outcome = outcome :=
    (h.run_eq (c := .update name filter edit session) hperform).1
  simp only [perform, run_bind, hactive, run_get, run_finish, hnoted] at houtcome
  cases hids : matchingIds false filter (s.collection name).records with
  | error e' =>
    simp only [hids] at houtcome
    rw [houtcome rfl]
    change (Except.error e' : Outcome Nat) = .error e ↔ _
    simp [bind, Except.bind]
  | ok ids =>
    simp only [hids, run_updateIds, hnoted] at houtcome
    cases hstage : stage name (s.collection name) edit ids with
    | error e' =>
      simp only [hstage] at houtcome
      rw [houtcome rfl]
      change (Except.error e' : Outcome Nat) = .error e ↔ _
      simp [hstage, bind, Except.bind]
    | ok staged =>
      simp only [hstage] at houtcome
      rw [houtcome rfl]
      simp [hstage, bind, Except.bind]

/-- **A call that fails leaves the content of the store as it was**, whatever it has failed for and
however far it has got: the records and the indexes of every collection, and of every session
whether it is active, whether its transaction is open and what that has written. -/
theorem unchanged_of_run_error {call : Call} (h : (s.run call).outcome = .error e) :
    (∀ name, ((s.run call).store.collection name).records = (s.collection name).records ∧
      ((s.run call).store.collection name).indexes = (s.collection name).indexes) ∧
    ∀ id, (s.run call).store.session? id = s.session? id := by
  have hsame := run_error h
  refine ⟨fun name => ?_, session?_congr hsame.sessions⟩
  rw [hsame.collection]
  exact ⟨rfl, rfl⟩

/-- A transaction that has put in the first of two records goes on to mark and count all of them,
but the second has a text where there should be a number. -/
def halting : Store where
  collections := [("N", { records :=
    [("a", [("_id", .string "a"), ("n", .int 1)]),
      ("b", [("_id", .string "b"), ("n", .string "x")])] })]
  sessions := [(⟨0⟩, { inTransaction := true, undo := [⟨"N", "a", none, none⟩] })]
  nextSession := 1

/-- The update of all records that marks them and adds one to their numbers. -/
def counting : Edit where
  set := [("m", .bool true)]
  inc := [("n", .int 1)]

/-- The update gets through the first record and through the mark of the second. -/
theorem unchanged_of_run_error_halting :
    (counting.applyFrom false [("_id", .string "b"), ("n", .string "x")]).2.lookup "m" =
      some (.bool true) ∧
    ∃ e, (halting.run (.update "N" .all counting (some ⟨0⟩))).outcome = .error e ∧
      ((halting.run (.update "N" .all counting (some ⟨0⟩))).store.collection "N").records =
        (halting.collection "N").records ∧
      (halting.run (.update "N" .all counting (some ⟨0⟩))).store.session? ⟨0⟩ =
        some { inTransaction := true, undo := [⟨"N", "a", none, none⟩] } := by
  -- the update is stuck at the second record
  have hstuck : Stuck "N" (halting.collection "N") .all counting
      (.store 14 "cannot apply $inc to non-numeric field 'n'") :=
    .rewrite (show _ = Except.ok (["a"] ++ "b" :: []) from rfl) rfl rfl rfl
  have hfails : (halting.run (.update "N" .all counting (some ⟨0⟩))).outcome = .error _ :=
    ((quiet_of_nil rfl).run_update_eq_error fun _ h => Option.some.inj h ▸ rfl).2 hstuck
  obtain ⟨hcollections, hsessions⟩ := unchanged_of_run_error hfails
  exact ⟨rfl, _, hfails, (hcollections "N").1, hsessions ⟨0⟩⟩

end Store

end ObjectEngine
