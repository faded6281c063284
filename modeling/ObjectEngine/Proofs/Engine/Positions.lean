import ObjectEngine.Proofs.Engine.Issuing
import ObjectEngine.Proofs.Engine.Proceeding
import ObjectEngine.Proofs.Engine.Refusing
import ObjectEngine.Proofs.Store.Limits

/-!
# The answers of an independent batch, position by position

A batch plans all of its writes, runs those that were planned at once, and puts what they came to
into the places of the writes. If no filter of the batch has a script that sleeps, no planned write
waits (`Engine.ensures_punctual`), and they run as if one after another
(`World.runTogether_eq_of_forall`). The places are kept for every pattern of writes that do not plan
and writes that fail (`Engine.getElem?_fillIn`): each write that was planned has the outcome of a
run after all that were planned before it.

What is asked of the store is told by its log of calls (`Store.Logs`). Planning only looks for
records, and no write of the batch carries a session.
-/

namespace ObjectEngine

/-! ### Filters without a sleep -/

namespace Script

/-- Whether a clause without blanks around it is a sleep, however long. -/
def isSleep (cs : List Char) : Bool :=
  ((Text.dropStart? "sleep(".toList cs).bind (Text.dropEnding? [')'])).isSome

/-- Whether a clause of a script is a sleep. -/
def sleeps (text : String) : Bool := (pieces text).any fun cs => isSleep (Text.trim cs)

variable {record : Record} {r : Result}

theorem delayMs_clause {cs : List Char} (h : isSleep cs = false)
    (hclause : clause record cs = .ok r) : r.delayMs = 0 := by
  have hnone : (Text.dropStart? "sleep(".toList cs).bind (Text.dropEnding? [')']) = none :=
    Option.isNone_iff_eq_none.1 (Option.isSome_eq_false_iff.1 h)
  unfold clause at hclause
  rw [hnone] at hclause
  dsimp only at hclause
  split at hclause
  · rw [← Except.ok.inj hclause]
  split at hclause
  · rw [← Except.ok.inj hclause]
  split at hclause
  · obtain ⟨value, -, hclause⟩ := Outcome.bind_eq_ok.1 hclause
    rw [← Except.ok.inj hclause]
  · exact nomatch hclause

theorem delayMs_clauses {css : List (List Char)} (h : ∀ cs ∈ css, isSleep (Text.trim cs) = false)
    {delayMs : Nat} (hclauses : clauses record delayMs css = .ok r) : r.delayMs = delayMs := by
  induction css generalizing delayMs with
  | nil => exact (congrArg Result.delayMs (Except.ok.inj hclauses)).symm
  | cons cs rest ih =>
    obtain ⟨first, hfirst, hrest⟩ := Outcome.bind_eq_ok.1 hclauses
    have hzero := delayMs_clause (h cs List.mem_cons_self) hfirst
    simp only [hzero, Nat.add_zero] at hrest
    split at hrest
    · exact ih (fun cs hcs => h cs (List.mem_cons_of_mem _ hcs)) hrest
    · exact (congrArg Result.delayMs (Except.ok.inj hrest)).symm

end Script

namespace Predicate

/-- **A script without a sleep** takes no time. -/
theorem prompt_script {text : String} (h : Script.sleeps text = false) :
    (Predicate.script text).Prompt := by
  intro c record
  rw [eval]
  cases hrun : Script.evaluate text record with
  | error e => rfl
  | ok r =>
    have hpieces : ∀ cs ∈ Script.pieces text, Script.isSleep (Text.trim cs) = false := by
      simpa [Script.sleeps] using h
    unfold Script.evaluate at hrun
    simp only at hrun
    split at hrun
    · exact absurd hrun (by simp)
    · exact Script.delayMs_clauses hpieces hrun

end Predicate

mutual

/-- Whether a script of a filter sleeps. -/
def Filter.sleeps : Filter → Bool
  | .and parts => Filter.anySleeps parts
  | .or parts => Filter.anySleeps parts
  | .raw text => Script.sleeps text
  | _ => false

/-- Whether a script of one of some filters sleeps. -/
def Filter.anySleeps : List Filter → Bool
  | [] => false
  | f :: rest => Filter.sleeps f || Filter.anySleeps rest

end

/-- Whether a script of a write's filter sleeps. -/
def WriteOp.sleeps : WriteOp → Bool
  | .updateMany _ f _ | .upsert _ f _ | .delete _ f => f.sleeps
  | .create .. | .update .. => false

namespace Engine

mutual

/-- Sets of ids in place of relation constraints do not sleep. -/
theorem sleeps_substitute (found : List (RelationLookup × List String)) (f : Filter) :
    (substitute found f).sleeps = f.sleeps := by
  cases f with
  | and parts => exact anySleeps_substituteAll found parts
  | or parts => exact anySleeps_substituteAll found parts
  | raw text =>
    rw [substitute.eq_def]
    rfl
  | _ =>
    rw [substitute.eq_def]
    simp only
    split <;> rfl

theorem anySleeps_substituteAll (found : List (RelationLookup × List String))
    (parts : List Filter) :
    Filter.anySleeps (substituteAll found parts) = Filter.anySleeps parts := by
  cases parts with
  | nil => rfl
  | cons f rest =>
    rw [substituteAll, Filter.anySleeps, Filter.anySleeps, sleeps_substitute found f,
      anySleeps_substituteAll found rest]

end

end Engine

namespace Plan

variable {schema : ClassSchema} {policy : Policy}

mutual

/-- **A filter without a sleep** is planned as a predicate that takes no time. -/
theorem prompt_filter {f : Filter} {planned : FilterPlan} (hf : f.sleeps = false)
    (h : filter schema policy f = .ok planned) : planned.filter.Prompt := by
  cases f with
  | all =>
    obtain rfl := Except.ok.inj h
    exact Predicate.prompt_all
  | and parts => exact prompt_conjunction hf h Predicate.prompt_all
  | or parts =>
    rw [filter] at h
    split at h
    · exact absurd h (by simp)
    · obtain ⟨out, hparts, h⟩ := Outcome.bind_eq_ok.1 h
      obtain rfl := Except.ok.inj h
      exact Predicate.prompt_or (prompt_alternatives hf hparts)
  | field path c =>
    obtain ⟨target, -, cond, -, hfilter⟩ := exists_of_fieldFilter h
    rw [hfilter]
    exact Predicate.prompt_field _ _
  | relatedTo owner key => exact absurd h (by simp [filter])
  | raw text =>
    rw [filter] at h
    split at h
    · obtain rfl := Except.ok.inj h
      exact Predicate.prompt_script hf
    · exact absurd h (by simp)

theorem prompt_conjunction {acc planned : FilterPlan} {parts : List Filter}
    (hparts : Filter.anySleeps parts = false)
    (h : conjunction schema policy acc parts = .ok planned) (hacc : acc.filter.Prompt) :
    planned.filter.Prompt := by
  cases parts with
  | nil =>
    obtain rfl := Except.ok.inj h
    exact hacc
  | cons part rest =>
    rw [Filter.anySleeps, Bool.or_eq_false_iff] at hparts
    obtain ⟨p, hp, h⟩ := Outcome.bind_eq_ok.1 h
    exact prompt_conjunction hparts.2 h
      (Predicate.prompt_both hacc (prompt_filter hparts.1 hp))

theorem prompt_alternatives {parts : List Filter} {out : List Predicate × Option Collation}
    (hparts : Filter.anySleeps parts = false) (h : alternatives schema policy parts = .ok out) :
    ∀ p ∈ out.1, p.Prompt := by
  cases parts with
  | nil =>
    obtain rfl := Except.ok.inj h
    exact fun p hp => absurd hp List.not_mem_nil
  | cons part rest =>
    rw [Filter.anySleeps, Bool.or_eq_false_iff] at hparts
    obtain ⟨p, hp, h⟩ := Outcome.bind_eq_ok.1 h
    obtain ⟨out', hrest, h⟩ := Outcome.bind_eq_ok.1 h
    obtain rfl := Except.ok.inj h
    exact List.forall_mem_cons.2 ⟨prompt_filter hparts.1 hp, prompt_alternatives hparts.2 hrest⟩

end

end Plan

/-! ### Writes that do not wait -/

open StoreAction (Punctual)

namespace Write

theorem punctual_insert (name : String) (record : Record) (session : Option SessionId) :
    Punctual ((Write.insert name record).run session) :=
  .bind (.call fun _ => rfl) fun _ => .pure _

/-- **A deletion by a predicate without sleeps does not wait.** -/
theorem punctual_delete (name : String) {p : Predicate} (hp : p.Prompt) (fields : List String)
    (session : Option SessionId) : Punctual ((Write.delete name p fields).run session) := by
  have hfind (limit : Option Nat) (projection : Option (List String)) (s : Store) :
      s.waitMs (.find name { filter := p, limit, projection } session) = 0 :=
    Store.waitMs_find s name hp session
  refine .ite_bind (.pure _) (.bind (.call (hfind _ _)) fun _ => .pure _) fun owners => ?_
  refine .bind (.call fun _ => rfl) fun _ => .bind (.forIn fun field => ?_) fun _ => .pure _
  exact .bind (.ite (.pure _) (.call fun _ => rfl)) fun _ => .pure _

end Write

namespace Engine

variable {config : Config} {caller : Caller}

theorem prompt_scoped {schema : ClassSchema} {policy : Plan.Policy} {f : Filter}
    {found : List (RelationLookup × List String)} {scope : Plan.FilterPlan} {permKey : String}
    (hf : f.sleeps = false) (h : Plan.filter schema policy (substitute found f) = .ok scope) :
    (scope.filter.both (Plan.permission permKey caller)).Prompt :=
  Predicate.prompt_both (Plan.prompt_filter ((sleeps_substitute found f).trans hf) h)
    (Predicate.prompt_permission _ _)

/-- **What is planned for a write without a sleep does not wait.** -/
theorem ensures_punctual {op : WriteOp} (hop : op.sleeps = false) :
    (prepare config caller op).Ensures (fun _ => True) (fun _ => True)
      fun write => (write.run none).Punctual := by
  have hany : Store.Stable fun _ => True := fun _ _ _ _ => trivial
  have hschema (className : String) := Action.ensures_schema_any hany className
  have hupdate (className : String) {p : Predicate} (hp : p.Prompt) (ops : UpdateMap)
      (many : Bool) : (prepareUpdate caller className p ops many).Ensures (fun _ => True)
        (fun _ => True) fun write => (write.run none).Punctual := by
    refine .mono ?_ (ensures_plansUpdate (hschema className) p ops many)
    rintro _ ⟨schema, -, hplans⟩
    cases hplans with
    | intro plan t hplan => exact Write.punctual_update className hp _ many none
  cases op with
  | create className d =>
    refine .bind (ensures_plansCreate (hschema className) d) fun out hout => .pure ?_
    obtain ⟨schema, -, hplans⟩ := hout
    cases hplans with
    | intro d' r hfields hencoded => exact Write.punctual_insert className r none
  | update className objectId ops =>
    exact hupdate className (Predicate.prompt_byId_both _ _ _) ops false
  | updateMany className f ops =>
    refine .bind (hschema className) fun schema _ => ?_
    refine .bind (.lift (ensures_scopedFilter_eq hany config caller schema _ f)) fun p hp => ?_
    obtain ⟨found, scope, hscope, rfl⟩ := hp
    exact hupdate className (prompt_scoped hop hscope) ops true
  | upsert className f ops =>
    refine .mono ?_ (ensures_plansUpsert (hschema className) hany.keptByFinds f ops)
    rintro _ ⟨schema, -, hplans⟩
    cases hplans with
    | intro plan found scope t onInsert hplan hunrelated hscope hidentified =>
      exact Write.punctual_upsert className _ _ none
  | delete className f =>
    refine .bind (hschema className) fun schema _ => ?_
    refine .bind (.lift (ensures_scopedFilter_eq hany config caller schema _ f)) fun p hp => ?_
    obtain ⟨found, scope, hscope, rfl⟩ := hp
    exact .pure (Write.punctual_delete className (prompt_scoped hop hscope) _ none)

end Engine

/-! ### The log of calls -/

namespace Store

variable {P : CallRecord → Prop} {s t : Store}

/-- **What was called in between**: only calls of a kind were recorded, and no fault is due. -/
structure Logs (P : CallRecord → Prop) (s t : Store) : Prop where
  quiet : t.Quiet
  calls : ∃ made, t.calls = made ++ s.calls ∧ ∀ c ∈ made, P c

theorem Quiet.logs (h : s.Quiet) : Logs P s s := ⟨h, [], rfl, nofun⟩

theorem Logs.run (h : Logs P s t) {call : Call} (hcall : ∀ id, call ≠ .endSession id)
    (hP : P ⟨call.operation, call.collection, call.session?⟩) : Logs P s (t.run call).store := by
  obtain ⟨made, hmade, hall⟩ := h.calls
  refine ⟨h.quiet.advances (h.quiet.run_advances call), _ :: made, ?_,
    List.forall_mem_cons.2 ⟨hP, hall⟩⟩
  rw [h.quiet.calls_run hcall, hmade, List.cons_append]

/-- A look for records outside a session. -/
def CallRecord.Looks (c : CallRecord) : Prop := c.operation = "find" ∧ c.session = none

theorem Logs.keptByFinds : KeptByFinds (Logs CallRecord.Looks s) :=
  fun _ _ _ h => h.run (fun _ => nofun) ⟨rfl, rfl⟩

end Store

namespace Write

/-- A write that is planned for no session ends none. -/
theorem Issues.ne_endSession {session : Option SessionId} {name : String} {call : Store.Call}
    (h : Issues session name call) (id : SessionId) : call ≠ .endSession id := by
  rintro rfl
  cases h with
  | own hwrites => exact hwrites

theorem Issues.session?_eq {session : Option SessionId} {name : String} {call : Store.Call}
    (h : Issues session name call) : call.session? = session := by
  cases h with
  | own hwrites hname hsession => exact hsession
  | _ => rfl

/-- **The calls of a write** outside a session. -/
theorem ensures_logs (write : Write) (s : Store) :
    (write.run none).Ensures (Store.Logs (fun c => c.session = none) s) fun _ => True :=
  write.ensures_run_of_issues fun _ hissues _ ht => ht.run hissues.ne_endSession hissues.session?_eq

end Write

/-! ### Positions -/

namespace Engine

variable {config : Config} {caller : Caller}

/-- What is planned for a write in a state. -/
def plan (config : Config) (caller : Caller) (op : WriteOp) (state : SchemaCache × World) :
    Outcome Write :=
  ((prepare config caller op).runIn state.1 state.2).1.1

/-- The state that is left when some writes have been planned, one after another. -/
def planning (config : Config) (caller : Caller) (writes : List WriteOp)
    (state : SchemaCache × World) : SchemaCache × World :=
  writes.foldl (fun state op => (prepare config caller op).after state) state

/-- What is planned for some writes, one after another. -/
def plans (config : Config) (caller : Caller) :
    List WriteOp → SchemaCache × World → List (Outcome Write)
  | [], _ => []
  | op :: rest, state =>
    plan config caller op state :: plans config caller rest ((prepare config caller op).after state)

theorem runIn_prepareAll (writes : List WriteOp) (cache : SchemaCache) (w : World) :
    (prepareAll config caller writes).runIn cache w =
      ((.ok (plans config caller writes (cache, w)),
        (planning config caller writes (cache, w)).1),
          (planning config caller writes (cache, w)).2) := by
  induction writes generalizing cache w with
  | nil => rfl
  | cons op rest ih =>
    have hrest := ih ((prepare config caller op).runIn cache w).1.2
      ((prepare config caller op).runIn cache w).2
    rw [prepareAll] at hrest ⊢
    rw [List.mapM_cons, Action.runIn_bind, Action.runIn_outcomeOf]
    simp only
    rw [Action.runIn_bind, hrest]
    rfl

/-- What is planned for a write, in the state that is left by planning those before it. -/
theorem getElem?_plans (writes : List WriteOp) (state : SchemaCache × World) (i : Nat) :
    (plans config caller writes state)[i]? = (writes[i]?).map fun op =>
      plan config caller op (planning config caller (writes.take i) state) := by
  induction writes generalizing state i with
  | nil => rfl
  | cons op rest ih =>
    cases i with
    | zero => rfl
    | succ i => exact ih _ i

theorem length_plans (writes : List WriteOp) (state : SchemaCache × World) :
    (plans config caller writes state).length = writes.length := by
  induction writes generalizing state with
  | nil => rfl
  | cons op rest ih => exact congrArg (· + 1) (ih _)

theorem punctual_of_mem_plans {writes : List WriteOp} (h : ∀ op ∈ writes, op.sleeps = false)
    {state : SchemaCache × World} {write : Write}
    (hwrite : .ok write ∈ plans config caller writes state) : (write.run none).Punctual := by
  obtain ⟨i, hi⟩ := List.getElem?_of_mem hwrite
  rw [getElem?_plans] at hi
  obtain ⟨op, hop, hplan⟩ := Option.map_eq_some_iff.1 hi
  exact ((ensures_punctual (h op (List.mem_of_getElem? hop))).runIn trivial trivial).2.2 _ hplan

/-- The outcome of a write outside a session. -/
def outcome (w : World) (write : Write) : Outcome WriteResult := ((write.run none).run.run w).1

theorem length_fillIn (planned : List (Outcome Write)) (executed : List (Outcome WriteResult)) :
    (fillIn planned executed).length = planned.length := by
  fun_induction fillIn planned executed with
  | case1 => rfl
  | case2 e rest executed ih => exact congrArg (· + 1) ih
  | case3 write rest r executed ih => exact congrArg (· + 1) ih
  | case4 write rest ih => exact congrArg (· + 1) ih

/-- **Every outcome goes to the place of its write**: a write that was planned has the outcome of a
run after those that were planned before it, and any other keeps its error. -/
theorem getElem?_fillIn (planned : List (Outcome Write)) (w : World) (i : Nat) :
    (fillIn planned (w.runInOrder ((planned.filterMap Except.toOption).map
      fun write => (write.run none).run)).1)[i]? =
        (planned[i]?).map fun p => p.bind (outcome (inOrder (planned.take i) w)) := by
  induction planned generalizing w i with
  | nil => rfl
  | cons p rest ih =>
    cases p with
    | error e =>
      cases i with
      | zero => rfl
      | succ i => exact ih w i
    | ok write =>
      cases i with
      | zero => rfl
      | succ i => exact ih ((write.run none).run.run w).2 i

/-- The planned writes that are run make calls outside a session. -/
theorem logs_inOrder (planned : List (Outcome Write)) {s : Store} {w : World}
    (h : Store.Logs (fun c => c.session = none) s w.store) :
    Store.Logs (fun c => c.session = none) s (inOrder planned w).store := by
  induction planned generalizing w with
  | nil => exact h
  | cons p rest ih =>
    cases p with
    | error e => exact ih h
    | ok write => exact ih (Program.Ensures.run (write.ensures_logs s) h).1

/-- Planning only looks for records. -/
theorem logs_planning (writes : List WriteOp) {s : Store} {state : SchemaCache × World}
    (h : Store.Logs Store.CallRecord.Looks s state.2.store) :
    Store.Logs Store.CallRecord.Looks s (planning config caller writes state).2.store := by
  induction writes generalizing state with
  | nil => exact h
  | cons op rest ih =>
    exact ih ((ensures_prepare_of_finds Store.Logs.keptByFinds op).runIn trivial h).1

/-- **An independent batch answers position by position.** The store may hold anything, but no
fault is due, and no filter has a script that sleeps. Then the batch answers as many outcomes as
it has writes. A write that does not plan, in the state that is left by planning those before it,
has the error as its outcome; a write that does has the outcome of a run after all planned writes
before it, whether those succeeded or failed. The planning only looks for records and changes
nothing, and in the end the planned writes have run one after another, and no call of theirs
carried a session. -/
theorem answers_by_position (config : Config) (caller : Caller) {writes : List WriteOp}
    (hsleeps : ∀ op ∈ writes, op.sleeps = false) (cache : SchemaCache) {w : World}
    (hquiet : w.store.Quiet) :
    let planned := plans config caller writes (cache, w)
    let v := (planning config caller writes (cache, w)).2
    let shown (e : EngineError) := e.sanitized config.sanitizeErrors
    ∃ results,
      executeBatch config caller writes false cache w =
        ((.ok results, (planning config caller writes (cache, w)).1), inOrder planned v) ∧
      results.length = writes.length ∧
      (∀ (i : Nat) (op : WriteOp), writes[i]? = some op →
        (∀ e, plan config caller op (planning config caller (writes.take i) (cache, w)) = .error e →
          results[i]? = some (.error (shown e))) ∧
        ∀ write, plan config caller op (planning config caller (writes.take i) (cache, w)) =
            .ok write →
          results[i]? = some ((outcome (inOrder (planned.take i) v) write).mapError shown)) ∧
      Store.SameContent w.store v.store ∧ Store.Logs Store.CallRecord.Looks w.store v.store ∧
      Store.Logs (fun c => c.session = none) v.store (inOrder planned v).store := by
  intro planned v shown
  have hplan : (prepareAll config caller writes).runIn cache w =
      ((.ok planned, (planning config caller writes (cache, w)).1), v) := runIn_prepareAll ..
  have hlogs : Store.Logs Store.CallRecord.Looks w.store v.store := logs_planning writes hquiet.logs
  have hsame : Store.SameContent w.store
      ((prepareAll config caller writes).runIn cache w).2.store := sameContent_prepareAll writes
  rw [hplan] at hsame
  have hinOrder : Batch.independent (planned.filterMap Except.toOption) v =
      v.runInOrder ((planned.filterMap Except.toOption).map fun write => (write.run none).run) := by
    refine World.runTogether_eq_of_forall (fun p hp => ?_) _ v
    obtain ⟨write, hwrite, rfl⟩ := List.mem_map.1 hp
    obtain ⟨outcome, hmem, houtcome⟩ := List.mem_filterMap.1 hwrite
    obtain rfl := Outcome.toOption_eq_some.1 houtcome
    exact punctual_of_mem_plans hsleeps hmem
  refine ⟨(fillIn planned (Batch.independent (planned.filterMap Except.toOption) v).1).map
    (Except.mapError shown), ?_, ?_, fun i op hop => ?_, hsame, hlogs,
    logs_inOrder planned hlogs.quiet.logs⟩
  · rw [executeBatch, hplan]
    simp only [Bool.false_eq_true, if_false]
    rw [hinOrder]
    rfl
  · rw [List.length_map, length_fillIn, length_plans]
  · have hplanned : planned[i]? = some
        (plan config caller op (planning config caller (writes.take i) (cache, w))) := by
      rw [getElem?_plans, hop]
      rfl
    rw [hinOrder, List.getElem?_map, getElem?_fillIn, hplanned]
    exact ⟨fun e he => by rw [he]; rfl, fun write hwrite => by rw [hwrite]; rfl⟩

/-- A creation, one with a field that the class does not have, one under an id that is taken by
then, and an update of the objects that a script finds. -/
def mixed : List WriteOp :=
  [.create "N" ⟨"N", "y", none, none, [("tag", .string "t")]⟩,
    .create "N" ⟨"N", "z", none, none, [("undeclared", .bool true)]⟩,
    .create "N" ⟨"N", "y", none, none, []⟩,
    .updateMany "N" (.raw "this.tag == 't' && true") [("name", .set (.string "m"))]]

/-- What is planned for one of these writes, and what it comes to. -/
def mixedPlan (i : Nat) (op : WriteOp) : Outcome Write :=
  plan {} master op (planning {} master (mixed.take i) ({ ttlMs := 5000 }, handedOver))

/-- The world before one of these writes. -/
def mixedWorld (i : Nat) : World :=
  inOrder ((plans {} master mixed ({ ttlMs := 5000 }, handedOver)).take i)
    (planning {} master mixed ({ ttlMs := 5000 }, handedOver)).2

theorem answers_by_position_mixed :
    handedOver.store.Quiet ∧ (∀ op ∈ mixed, op.sleeps = false) ∧
      ∃ results cache w, executeBatch {} master mixed false { ttlMs := 5000 } handedOver =
          ((.ok results, cache), w) ∧ results.length = 4 ∧
        results[1]? = some (.error (.schemaViolation
          "field undeclared is not defined on class N")) ∧
        results[2]? = some (.error (.duplicate
          "E11000 duplicate key error collection: N index: _id_")) ∧
        ∃ r, results[3]? = some (.ok r) := by
  have hquiet : handedOver.store.Quiet := Store.quiet_of_nil rfl
  have hsleeps : ∀ op ∈ mixed, op.sleeps = false := by decide +kernel
  obtain ⟨results, hrun, hlength, hpositions, -, -, -⟩ :=
    answers_by_position {} master hsleeps { ttlMs := 5000 } hquiet
  have hran {i : Nat} {op : WriteOp} (hop : mixed[i]? = some op)
      (hplan : (mixedPlan i op).isOk = true) : results[i]? = some
        (((mixedPlan i op).bind (outcome (mixedWorld i))).mapError (·.sanitized true)) := by
    cases hwrite : mixedPlan i op with
    | error e => exact absurd (hwrite ▸ hplan) (by simp [Except.isOk, Except.toBool])
    | ok write => exact (hpositions i op hop).2 write hwrite
  refine ⟨hquiet, hsleeps, results, _, _, hrun, hlength, ?_, ?_, ?_⟩
  · have hrefused : (mixedPlan 1 (.create "N" ⟨"N", "z", none, none,
        [("undeclared", .bool true)]⟩)).map (fun _ => ()) =
          .error (.schemaViolation "field undeclared is not defined on class N") := by
      decide +kernel
    exact (hpositions 1 _ rfl).1 _ (Outcome.map_eq_error.1 hrefused)
  · have htaken : ((mixedPlan 2 (.create "N" ⟨"N", "y", none, none, []⟩)).bind
        (outcome (mixedWorld 2))).map (fun _ => ()) =
          .error (.duplicate "E11000 duplicate key error collection: N index: _id_") := by
      decide +kernel
    rw [hran rfl (by decide +kernel), Outcome.map_eq_error.1 htaken]
    rfl
  · have hupdated : ((mixedPlan 3 (.updateMany "N" (.raw "this.tag == 't' && true")
        [("name", .set (.string "m"))])).bind (outcome (mixedWorld 3))).map (fun _ => ()) =
          .ok () := by
      decide +kernel
    obtain ⟨r, hr, -⟩ := Outcome.map_eq_ok.1 hupdated
    rw [hran rfl (by decide +kernel), hr]
    exact ⟨r, rfl⟩

end Engine

end ObjectEngine
