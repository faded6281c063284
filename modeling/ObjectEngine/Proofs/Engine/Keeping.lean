import ObjectEngine.Proofs.Engine.Writing
import ObjectEngine.Proofs.Store.Watching

/-!
# What calls that write keep

A call that writes keeps an invariant of the store if the writes that are planned for it do: one
that runs for itself must keep the invariant, and one inside of a transaction what is known of the
store while the session is at work (`Engine.Kept`). This holds whatever the call answers, whether
it fails, and whatever the cache holds (`Engine.write_keeps`), and so of calls one after another
(`Engine.writeAll_keeps`).

A planned write is allowed by a watch on the records of classes if its call on the class is
(`Store.Watch.AllowsWrite`): the edges that it adds and removes are no objects. Calls for which
only such writes are planned keep what is watched, alone, in batches and in transactions that are
taken back (`Engine.holds_writeAll`).
-/

namespace ObjectEngine

section

/-- The writes that a call asks for. -/
def WriteCall.ops : WriteCall → List WriteOp
  | .one op => [op]
  | .batch writes _ => writes

namespace Engine

/-- Runs calls of several callers, one after another. -/
def writeAll (config : Config) (calls : List (Caller × WriteCall)) (state : SchemaCache × World) :
    SchemaCache × World :=
  calls.foldl (fun state call =>
    let ((_, cache), w) := write config call.1 call.2 state.1 state.2
    (cache, w)) state

/-- The state that the first calls reach. -/
def reached (config : Config) (calls : List (Caller × WriteCall)) (state : SchemaCache × World)
    (n : Nat) : SchemaCache × World :=
  writeAll config (calls.take n) state

/-- The next call takes it from there. -/
theorem reached_succ {config : Config} {calls : List (Caller × WriteCall)}
    {state : SchemaCache × World} {n : Nat} {call : Caller × WriteCall}
    (h : calls[n]? = some call) : reached config calls state (n + 1) =
      ((write config call.1 call.2 (reached config calls state n).1
        (reached config calls state n).2).1.2,
      (write config call.1 call.2 (reached config calls state n).1
        (reached config calls state n).2).2) := by
  rw [reached, writeAll, List.take_add_one, h, Option.toList_some, List.foldl_append]
  rfl

/-- **Planned writes that keep an invariant**, if `P` is known of them. -/
structure Kept (I : Store → Prop) (G : SessionId → Store → Prop) (P : Write → Prop) : Prop where
  stable : Store.Stable I
  watched : Batch.Watched I G
  alone (write : Write) : P write → (write.run none).Ensures I fun _ => True
  inside (write : Write) (id : SessionId) : P write →
    (write.run (some id)).Ensures (G id) fun _ => True

/-- **What is planned for a write** has `P`. A creation also plans what it answers. -/
def Plans (I : Store → Prop) (P : Write → Prop) (config : Config) (caller : Caller) :
    WriteOp → Prop
  | .create className d =>
    (prepareCreate caller className d).Ensures I (fun _ => True) fun out => P out.1
  | op => (prepare config caller op).Ensures I (fun _ => True) P

variable {I : Store → Prop} {G : SessionId → Store → Prop} {P : Write → Prop} {config : Config}
  {caller : Caller}

theorem Plans.prepare {op : WriteOp} (h : Plans I P config caller op) :
    (Engine.prepare config caller op).Ensures I (fun _ => True) P := by
  cases op with
  | create className d =>
    exact .bind (show (prepareCreate caller className d).Ensures I _ _ from h)
      fun out hout => .pure hout
  | _ => exact h

/-! ### Single writes -/

section

variable (hI : Store.Stable I)

include hI

/-- A record that a write answers is read under the schema of its class. -/
theorem ensures_readAnswer (className : String) (r : Record) :
    Action.Ensures I (fun _ => True) (fun _ => True) (do
      let schema ← Action.schema className
      (readDocument schema caller r : Outcome Document)) :=
  .bind (Action.ensures_schema_any hI className) fun _ _ => .outcome fun _ _ => trivial

/-- **A write by itself** is planned and run. -/
theorem ensures_writeOne_keeps
    (halone : ∀ write : Write, P write → (write.run none).Ensures I fun _ => True) {op : WriteOp}
    (hop : Plans I P config caller op) :
    (writeOne config caller op).Ensures I (fun _ => True) fun _ => True := by
  have hrun {α : Type} {f : WriteResult → Action α}
      (hf : ∀ result, (f result).Ensures I (fun _ => True) fun _ => True) :
      Action.Ensures I (fun _ => True) (fun _ => True) (Engine.guarded config (do
        let write ← Engine.prepare config caller op
        let result ← (write.run none : StoreAction WriteResult)
        f result)) :=
    .guarded (.bind hop.prepare fun write hwrite =>
      .bind (.lift (halone write hwrite)) fun result _ => hf result)
  cases op with
  | create className d =>
    refine .bind (Q := fun _ => True) ?_ fun _ _ => .pure trivial
    have hplan : (prepareCreate caller className d).Ensures I _ _ := hop
    exact .guarded (.bind hplan fun out hout =>
      .bind (.lift (halone out.1 hout)) fun _ _ => .pure trivial)
  | update className objectId ops =>
    refine .bind (Q := fun _ => True) (hrun fun result => ?_) fun _ _ => .pure trivial
    split
    · exact ensures_readAnswer hI _ _
    · exact .throw
  | updateMany className f ops =>
    refine .bind (Q := fun _ => True) (hrun fun result => ?_) fun _ _ => .pure trivial
    split <;> exact .pure trivial
  | upsert className f ops =>
    refine .bind (Q := fun _ => True) (hrun fun result => ?_) fun _ _ => .pure trivial
    split
    · exact ensures_readAnswer hI _ _
    · exact .throw
  | delete className f =>
    refine .bind (Q := fun _ => True) (hrun fun result => ?_) fun _ _ => .pure trivial
    split
    · exact .ite (fun _ => .pure trivial) fun _ => .throw
    · exact .throw

end

/-! ### Batches -/

variable (hkept : Kept I G P)

include hkept

/-- **A batch**, in either mode. -/
theorem executeBatch_keeps {writes : List WriteOp}
    (hwrites : ∀ op ∈ writes, Plans I P config caller op) (transactional : Bool)
    (cache : SchemaCache) {w : World} (h : I w.store) :
    I (executeBatch config caller writes transactional cache w).2.store := by
  have hprepared : (prepareAll config caller writes).Ensures I (fun _ => True)
      fun prepared => ∀ planned ∈ prepared, ∀ write, planned = .ok write → P write :=
    (Action.judgement I _).mapM fun op hop => .outcomeOf (hwrites op hop).prepare
  have hplan := @Action.Ensures.runIn _ _ _ _ _ hprepared cache trivial _ h
  unfold executeBatch
  rcases hrun : (prepareAll config caller writes).runIn cache w with ⟨⟨prepared, cache'⟩, w'⟩
  rw [hrun] at hplan
  obtain ⟨h', -, hplanned⟩ := hplan
  cases prepared with
  | error e => exact h'
  | ok prepared =>
    have hP := hplanned prepared rfl
    cases transactional with
    | true =>
      cases hready : (prepared.mapM id : Outcome (List Write)) with
      | error e =>
        simp only [hready]
        exact h'
      | ok ready =>
        have hmem (write : Write) (hwrite : write ∈ ready) : P write := by
          obtain ⟨planned, hplanned, hok⟩ :=
            Outcome.exists_of_forall₂ (Outcome.forall₂_of_mapM hready) hwrite
          exact hP planned hplanned write hok
        simp only [hready, Batch.execute, if_true]
        exact Batch.watched_transaction hkept.watched
          (fun id write hwrite => hkept.inside write id (hmem write hwrite)) _ _ h'
    | false =>
      refine (Batch.ensures_independent (R := fun _ _ => True) (fun write hwrite => ?_) h').1
      obtain ⟨planned, hplanned, hok⟩ := List.mem_filterMap.1 hwrite
      exact hkept.alone write (hP planned hplanned write (Outcome.toOption_eq_some.1 hok))

/-! ### Calls -/

/-- **The step**: a call that writes. -/
theorem write_keeps {call : WriteCall} (hcall : ∀ op ∈ call.ops, Plans I P config caller op)
    (cache : SchemaCache) {w : World} (h : I w.store) :
    I (write config caller call cache w).2.store := by
  cases call with
  | one op =>
    have hop := hcall op (List.mem_singleton.2 rfl)
    have hone := ensures_writeOne_keeps hkept.stable hkept.alone hop
    exact (Program.Ensures.run (hone cache trivial) h).1
  | batch writes transactional => exact executeBatch_keeps hkept hcall transactional cache h

/-- **The run**: calls of several callers, one after another. -/
theorem writeAll_keeps {calls : List (Caller × WriteCall)}
    (hcalls : ∀ call ∈ calls, ∀ op ∈ call.2.ops, Plans I P config call.1 op)
    (state : SchemaCache × World) (h : I state.2.store) :
    I (writeAll config calls state).2.store := by
  induction calls generalizing state with
  | nil => exact h
  | cons call rest ih =>
    obtain ⟨hfirst, hrest⟩ := List.forall_mem_cons.1 hcalls
    exact ih hrest _ (write_keeps hkept hfirst state.1 h)

end Engine

end

open Store (Watch)

variable {W : Watch} {session : Option SessionId}

namespace Store.Watch

theorem Kept.stable (W : Watch) (session : Option SessionId) : Store.Stable (W.Kept session) :=
  fun _ _ hsame h => h.congr hsame

/-- A call on the session that writes and is allowed. -/
theorem Allows.ensures {call : Store.Call} (hallows : W.Allows call) (hwrites : call.Writes)
    (hsession : call.session? = session) :
    StoreAction.Ensures (W.Kept session) (fun _ => True) (Program.call call) :=
  .call fun _ h => ⟨h.run hwrites hallows hsession, fun _ _ => trivial⟩

/-- **A planned write that is allowed**, on whichever session it runs. -/
def AllowsWrite (W : Watch) : Write → Prop
  | .insert name r => ∀ session, W.Allows (.insert name r session)
  | .update name p plan _ => ∀ session, W.Allows (.update name p plan.edit session) ∧
      W.Allows (.findAndUpdate name p plan.edit session)
  | .upsert name p e => ∀ session, W.Allows (.upsert name p e session)
  | .delete name p _ => ∀ session, W.Allows (.delete name p session)

end Store.Watch

/-- **Transactions are watched** by what a rollback would leave. -/
theorem Batch.watched_kept (W : Watch) : Watched (W.Kept none) fun id => W.Kept (some id) where
  start s h := by
    cases hrun : (s.run .startSession).outcome with
    | error e => exact ⟨h.congr (Store.run_error hrun), nofun⟩
    | ok id =>
      have hstarted := h.of_startSession (Store.run_ok hrun)
      exact ⟨hstarted.leave, fun _ hid => Except.ok.inj hid ▸ hstarted⟩
  surrounds id := {
    openTransaction := StoreAction.ensures_of_done (.stable W (some id)) fun _ _ _ h hdone =>
      ⟨h.of_startTransaction hdone, trivial⟩
    commit := StoreAction.ensures_of_done (.stable W (some id)) fun _ _ _ h hdone =>
      ⟨h.of_commit hdone, trivial⟩
    abort := StoreAction.ensures_of_done (.stable W (some id)) fun _ _ _ h hdone =>
      ⟨h.of_close hdone (.inl rfl), trivial⟩
    finish := StoreAction.ensures_of_done (.stable W (some id)) fun _ _ _ h hdone =>
      ⟨h.of_close hdone (.inr rfl), trivial⟩ }
  leave _ _ h := h.leave

/-! ### Planned writes -/

section

variable (hjoins : ∀ field className, ¬W.on (Join.collection field className))

include hjoins

theorem Join.allows {call : Store.Call} {field className : String}
    (h : call.collection = collection field className) : W.Allows call :=
  fun hon => absurd (h ▸ hon) (hjoins field className)

theorem Join.ensures_apply_kept (className owner : String) (e : Plan.RelationEdit) :
    (apply className owner e session).Ensures (W.Kept session) fun _ => True := by
  refine .bind (Q := fun _ => True) ?_ fun _ _ => ?_
  · refine (StoreAction.judgement _).forIn fun related _ => ?_
    exact .bind ((allows hjoins rfl).ensures trivial rfl) fun _ _ => .pure trivial
  · split
    · exact .bind ((allows hjoins rfl).ensures trivial rfl) fun _ _ => .pure trivial
    · exact .pure trivial

theorem Join.ensures_removeOwners_kept (className field : String) (owners : List String) :
    (removeOwners className field owners session).Ensures (W.Kept session) fun _ => True :=
  .ite (fun _ => .pure trivial) fun _ => (allows hjoins rfl).ensures trivial rfl

end

namespace Write

theorem ensures_matchingIds_kept (name : String) (p : Predicate) (limit : Option Nat) :
    (matchingIds name p limit session).Ensures (W.Kept session) fun _ => True :=
  .bind (StoreAction.ensures_find (.stable W session) _ _ _) fun _ _ => .pure trivial

theorem ensures_updateRecords_kept {name : String} {p : Predicate} {e : Edit}
    (hupdate : W.Allows (.update name p e session))
    (hfindAndUpdate : W.Allows (.findAndUpdate name p e session)) (many : Bool) :
    (updateRecords name p e many session).Ensures (W.Kept session) fun _ => True := by
  refine .ite (fun _ => ?_) fun _ => .ite (fun _ => ?_) fun _ => ?_
  · exact .bind (StoreAction.ensures_count (.stable W session) _ _ _ _) fun _ _ => .pure trivial
  · exact .bind (hupdate.ensures trivial rfl) fun _ _ => .pure trivial
  · exact .bind (hfindAndUpdate.ensures trivial rfl) fun _ _ => .pure trivial

/-- **A planned write that is allowed** keeps what is known of the store. -/
theorem ensures_run_kept (hjoins : ∀ field className, ¬W.on (Join.collection field className))
    {w : Write} (h : W.AllowsWrite w) :
    (w.run session).Ensures (W.Kept session) fun _ => True := by
  cases w with
  | insert name r => exact .bind ((h session).ensures trivial rfl) fun _ _ => .pure trivial
  | update name p plan many =>
    refine .ite_bind (Q := fun _ => True) (fun _ => .pure trivial)
      (fun _ => ensures_matchingIds_kept _ _ _) fun owners _ => ?_
    refine .bind (ensures_updateRecords_kept (h session).1 (h session).2 many) fun out _ => ?_
    refine .bind ((StoreAction.judgement _).forIn fun owner _ => ?_) fun _ _ => .pure trivial
    refine .bind ((StoreAction.judgement _).forIn fun e _ => ?_) fun _ _ => .pure trivial
    exact .bind (Join.ensures_apply_kept hjoins _ _ _) fun _ _ => .pure trivial
  | upsert name p e => exact .bind ((h session).ensures trivial rfl) fun _ _ => .pure trivial
  | delete name p fields =>
    refine .ite_bind (Q := fun _ => True) (fun _ => .pure trivial)
      (fun _ => ensures_matchingIds_kept _ _ _) fun owners _ => ?_
    refine .bind ((h session).ensures trivial rfl) fun _ _ => ?_
    refine .bind ((StoreAction.judgement _).forIn fun field _ => ?_) fun _ _ => .pure trivial
    exact .bind (Join.ensures_removeOwners_kept hjoins _ _ _) fun _ _ => .pure trivial

end Write

/-! ### Calls one after another -/

namespace Engine

theorem kept_of_watch (hjoins : ∀ field className, ¬W.on (Join.collection field className)) :
    Kept (W.Kept none) (fun id => W.Kept (some id)) W.AllowsWrite where
  stable := .stable W none
  watched := Batch.watched_kept W
  alone _ h := Write.ensures_run_kept hjoins h
  inside _ _ h := Write.ensures_run_kept hjoins h

end Engine

end ObjectEngine
