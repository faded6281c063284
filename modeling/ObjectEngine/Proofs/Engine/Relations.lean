import ObjectEngine.Proofs.Engine.Proceeding

/-!
# Relations after any history

Calls of any callers write objects and edit relations, by themselves or in batches of either mode.
What a call does to a relation field of a class is what the writes do that are planned for it, one
after another, unless it is a transaction that fails (`Engine.callActs`). So after any calls the
join collection of the field is in order and its owners exist, and the relation of each object is
what its history says, from its creation on (`Engine.relation_writeAll`).

The writes of a batch without a transaction are all under way at once. If one of them waits, another
may run before it has edited relations: an object can be deleted between the search for owners and
the edges that are added to them (`Engine.not_bound_drowsing`). So the writes of such a batch must not
wait, if there are several.
-/

namespace ObjectEngine

namespace Engine

open Store (identity)

/-! ### Histories -/

section

variable (config : Config) (C f : String)

/-- Whether a call is taken back: a transaction that fails. -/
def isTakenBack (call : Caller × WriteCall) (state : SchemaCache × World) : Bool :=
  match call.2 with
  | .batch writes true => !(executeBatch config call.1 writes true state.1 state.2).1.1.isOk
  | _ => false

/-- **What a call does to a relation**: what its writes do, as they are planned, unless it is taken
back. -/
def callActs (call : Caller × WriteCall) (state : SchemaCache × World) : List RelationAct :=
  if isTakenBack config call state then []
  else match (prepareAll config call.1 call.2.ops).runIn state.1 state.2 with
    | ((.ok planned, _), v) => actsInOrder C f call.2.ops planned v
    | ((.error _, _), _) => []

/-- **The history of a relation** in some calls. -/
def relationHistory : List (Caller × WriteCall) → SchemaCache × World → List RelationAct
  | [], _ => []
  | call :: rest, state =>
    callActs config C f call state ++ relationHistory rest (writeAll config [call] state)

end

/-! ### One call -/

/-- **The relations of a class are minded**: they are tended, and the cache is current for the
class. -/
structure Minds (C : String) (schema : ClassSchema) (state : SchemaCache × World) : Prop where
  tended : state.2.store.Tended C (schema.relationFields.map Prod.fst)
  current : state.1.Current C state.2.store
  loaded : Catalog.loaded state.2.store C = .ok (some schema)

variable {config : Config} {caller : Caller} {C : String} {schema : ClassSchema}
  {cache cache' : SchemaCache} {w v : World}

theorem Minds.isClassName {state : SchemaCache × World} (h : Minds C schema state) :
    isClassName C = true := (Catalog.className_of_loaded h.current.keyed h.loaded).2

/-- The plans of a single write are those of a batch of it. -/
theorem runIn_prepareAll_singleton (op : WriteOp) (cache : SchemaCache) (w : World) :
    (prepareAll config caller [op]).runIn cache w =
      ((.ok [((prepare config caller op).runIn cache w).1.1],
        ((prepare config caller op).runIn cache w).1.2),
        ((prepare config caller op).runIn cache w).2) := by
  rw [prepareAll, List.mapM_cons, Action.runIn_bind, Action.runIn_outcomeOf]
  rfl

/-- **Planning** leaves the relations tended, and its plans suit them. -/
theorem Minds.prepareAll (h : Minds C schema (cache, w)) {ops : List WriteOp}
    (hspares : ∀ op ∈ ops, op.SparesIds) {prepared : Outcome (List (Outcome Write))}
    (hplan : (Engine.prepareAll config caller ops).runIn cache w = ((prepared, cache'), v)) :
    v.store.Tended C (schema.relationFields.map Prod.fst) ∧
      Store.Proceeds C (schema.relationFields.map Prod.fst) (fun _ => []) w.store v.store ∧
      cache'.Current C w.store ∧
      ∀ planned, prepared = .ok planned →
        AllSuit C (schema.relationFields.map Prod.fst) ops planned := by
  have hsuits := (@ensures_suits_all config caller _ _ _ h.current.keyed h.loaded _
    hspares).runIn h.current (w := w) (.refl _)
  have hstable : Store.Stable fun t => ∀ name, t.collection name = w.store.collection name :=
    fun _ _ hsame h name => (hsame.collection name).trans (h name)
  have hstays := (ensures_prepareAll hstable config caller ops).runIn h.current.faithful
    (w := w) fun _ => rfl
  have hadvances := h.tended.quiet.advances_run
    ((Engine.prepareAll config caller ops).run.run cache)
  have hwf := h.tended.wellFormed.run_program
    ((Engine.prepareAll config caller ops).run.run cache)
  have hrun : ((Engine.prepareAll config caller ops).run.run cache).run w =
    ((prepared, cache'), v) := hplan
  rw [hplan] at hsuits hstays
  rw [hrun] at hadvances hwf
  obtain ⟨-, hcurrent, hsuit⟩ := hsuits
  have hproceeds := Store.Proceeds.of_collection h.tended.bound hadvances hstays.1
  refine ⟨⟨h.tended.quiet.advances hadvances, hwf, fun name hname id r hr => ?_, hproceeds.bound⟩,
    hproceeds, hcurrent, hsuit⟩
  rw [Store.record?, hstays.1] at hr
  exact h.tended.identified name hname id r hr

section

variable {ops : List WriteOp} {planned : List (Outcome Write)} {fields : List String}
  (htended : v.store.Tended C fields) (hC : isClassName C = true)
  (hplan : (Engine.prepareAll config caller ops).runIn cache w = ((.ok planned, cache'), v))
  (hplanned : Store.Proceeds C fields (fun _ => []) w.store v.store)
  (hsuit : AllSuit C fields ops planned)

include htended hC hplan hplanned hsuit

/-- **A transaction** that is planned does to relations what it says. -/
theorem proceeds_executeBatch_transactional :
    Store.Proceeds C fields (fun f => callActs config C f (caller, .batch ops true) (cache, w))
        w.store (Engine.executeBatch config caller ops true cache w).2.store ∧
      (Engine.executeBatch config caller ops true cache w).1.2 = cache' := by
  have hacts (f : String) : callActs config C f (caller, .batch ops true) (cache, w) =
      if (Engine.executeBatch config caller ops true cache w).1.1.isOk
      then actsInOrder C f ops planned v else [] := by
    simp only [callActs, isTakenBack, WriteCall.ops, hplan]
    cases (Engine.executeBatch config caller ops true cache w).1.1.isOk <;> rfl
  simp only [hacts]
  cases hready : (planned.mapM id : Outcome (List Write)) with
  | error e =>
    have hexecute : Engine.executeBatch config caller ops true cache w =
        ((.error (e.sanitized config.sanitizeErrors), cache'), v) := by
      simp only [Engine.executeBatch, hplan, hready, if_true]
    rw [hexecute]
    exact ⟨hplanned, rfl⟩
  | ok ready =>
    have hproceeds := Batch.proceeds_transaction hC htended hsuit hready
      config.transactionRetryLimit 1
    rcases hrun : (Batch.transaction ready config.transactionRetryLimit 1).run.run v with
      ⟨out, u⟩
    rw [hrun] at hproceeds
    have hexecute : Engine.executeBatch config caller ops true cache w =
        (((out.map fun results => results.map .ok).mapError
          (EngineError.sanitized config.sanitizeErrors), cache'), u) := by
      simp only [Engine.executeBatch, hplan, hready, if_true, Batch.execute, hrun]
    rw [hexecute]
    cases out with
    | error e => exact ⟨hplanned.trans hproceeds, rfl⟩
    | ok results => exact ⟨hplanned.trans hproceeds, rfl⟩

/-- **Independent writes** that are planned do to relations what they say, if none of them waits or
there is only one. -/
theorem proceeds_executeBatch_independent (hwaits : ops.length ≤ 1 ∨
      (Engine.executeBatch config caller ops false cache w).2.clockMs = w.clockMs) :
    Store.Proceeds C fields (fun f => callActs config C f (caller, .batch ops false) (cache, w))
        w.store (Engine.executeBatch config caller ops false cache w).2.store ∧
      (Engine.executeBatch config caller ops false cache w).1.2 = cache' := by
  have hacts (f : String) : callActs config C f (caller, .batch ops false) (cache, w) =
      actsInOrder C f ops planned v := by
    simp only [callActs, isTakenBack, WriteCall.ops, hplan, Bool.false_eq_true, if_false]
  have hworld : (Engine.executeBatch config caller ops false cache w).2 =
      (Batch.independent (planned.filterMap Except.toOption) v).2 := by
    simp only [Engine.executeBatch, hplan, Bool.false_eq_true, if_false]
  have hcache : (Engine.executeBatch config caller ops false cache w).1.2 = cache' := by
    simp only [Engine.executeBatch, hplan, Bool.false_eq_true, if_false]
  refine ⟨?_, hcache⟩
  simp only [hacts, hworld]
  rw [hworld] at hwaits
  refine hplanned.trans (Batch.proceeds_independent hC htended hsuit ?_)
  -- the clock has not moved while the batch was planned, if it has not moved at all
  refine hwaits.imp_right fun hclock => Nat.le_antisymm ?_ (v.le_clockMs_runTogether _ _)
  have hplanning := ((Engine.prepareAll config caller ops).run.run cache).le_clockMs_run w
  rw [show ((Engine.prepareAll config caller ops).run.run cache).run w = _ from hplan]
    at hplanning
  exact hclock ▸ hplanning

end

/-- **A batch** does to relations what it says, and leaves the cache current. -/
theorem Minds.executeBatch (h : Minds C schema (cache, w)) {ops : List WriteOp}
    (hspares : ∀ op ∈ ops, op.SparesIds) {transactional : Bool}
    (hwaits : transactional = false → ops.length ≤ 1 ∨
      (Engine.executeBatch config caller ops transactional cache w).2.clockMs = w.clockMs) :
    Store.Proceeds C (schema.relationFields.map Prod.fst)
        (fun f => callActs config C f (caller, .batch ops transactional) (cache, w)) w.store
        (Engine.executeBatch config caller ops transactional cache w).2.store ∧
      (Engine.executeBatch config caller ops transactional cache w).1.2.Current C w.store := by
  rcases hplan : (Engine.prepareAll config caller ops).runIn cache w with ⟨⟨prepared, cache'⟩, v⟩
  obtain ⟨htended, hplanned, hcurrent, hsuit⟩ := h.prepareAll hspares hplan
  cases prepared with
  | error e =>
    have hexecute : Engine.executeBatch config caller ops transactional cache w =
        ((.error (e.sanitized config.sanitizeErrors), cache'), v) := by
      simp only [Engine.executeBatch, hplan]
    have hacts (f : String) :
        callActs config C f (caller, .batch ops transactional) (cache, w) = [] := by
      simp only [callActs, WriteCall.ops, hplan, ite_self]
    simp only [hacts, hexecute]
    exact ⟨hplanned, hcurrent⟩
  | ok planned =>
    cases transactional with
    | true =>
      obtain ⟨hproceeds, hcache⟩ := proceeds_executeBatch_transactional htended h.isClassName hplan
        hplanned (hsuit planned rfl)
      exact ⟨hproceeds, hcache ▸ hcurrent⟩
    | false =>
      obtain ⟨hproceeds, hcache⟩ := proceeds_executeBatch_independent htended h.isClassName hplan
        hplanned (hsuit planned rfl) (hwaits rfl)
      exact ⟨hproceeds, hcache ▸ hcurrent⟩

/-- **A single write** does to relations what it says, and leaves the cache current. -/
theorem Minds.writeOne (h : Minds C schema (cache, w)) {op : WriteOp} (hspares : op.SparesIds) :
    Store.Proceeds C (schema.relationFields.map Prod.fst)
        (fun f => callActs config C f (caller, .one op) (cache, w)) w.store
        ((Engine.writeOne config caller op).after (cache, w)).2.store ∧
      ((Engine.writeOne config caller op).after (cache, w)).1.Current C w.store := by
  have hop : ∀ op' ∈ [op], op'.SparesIds := fun _ hmem => List.mem_singleton.1 hmem ▸ hspares
  have hplan := @runIn_prepareAll_singleton config caller op cache w
  obtain ⟨htended, hplanned, -, hsuit⟩ := h.prepareAll hop hplan
  have hacts (f : String) : callActs config C f (caller, .one op) (cache, w) =
      actsInOrder C f [op] [((prepare config caller op).runIn cache w).1.1]
        ((prepare config caller op).runIn cache w).2 := by
    simp only [callActs, isTakenBack, WriteCall.ops, hplan, Bool.false_eq_true, if_false]
  have hcarried := (@ensures_carryOut _ config caller _ _ _ h.current.keyed h.loaded
    hspares).runIn h.current (w := w) (.refl _)
  rw [after_writeOne_eq]
  simp only [hacts]
  exact ⟨hplanned.trans (proceeds_carryOut rfl (hsuit _ rfl) h.isClassName htended), hcarried.2.1⟩

/-- **The step**: a call does to relations what it says, and leaves them minded. -/
theorem Minds.write {state : SchemaCache × World} (h : Minds C schema state)
    {call : Caller × WriteCall} (hspares : ∀ op ∈ call.2.ops, op.SparesIds)
    (hwaits : ∀ ops, call.2 = .batch ops false → ops.length ≤ 1 ∨
      (writeAll config [call] state).2.clockMs = state.2.clockMs) :
    Minds C schema (writeAll config [call] state) ∧
      Store.Proceeds C (schema.relationFields.map Prod.fst) (fun f => callActs config C f call state)
        state.2.store (writeAll config [call] state).2.store := by
  obtain ⟨cache, w⟩ := state
  obtain ⟨caller, call⟩ := call
  have hcall : Store.Proceeds C (schema.relationFields.map Prod.fst)
        (fun f => callActs config C f (caller, call) (cache, w)) w.store
        (writeAll config [(caller, call)] (cache, w)).2.store ∧
      (writeAll config [(caller, call)] (cache, w)).1.Current C w.store := by
    cases call with
    | one op => exact h.writeOne (hspares op (List.mem_singleton_self op))
    | batch ops transactional =>
      refine h.executeBatch hspares fun hfalse => ?_
      subst hfalse
      exact hwaits ops rfl
  obtain ⟨hproceeds, hcurrent⟩ := hcall
  have hkept := kept_of_watch (W := identity) Write.not_identity_on
  have hids := @write_keeps _ _ _ config caller hkept call
    (fun op hop => plans_allowed hkept.stable (hspares op hop)) cache _
    (Store.Watch.Kept.of_holds h.tended.wellFormed h.tended.identified)
  refine ⟨⟨⟨h.tended.quiet.advances hproceeds.advances, hids.wellFormed, hids.holds,
    hproceeds.bound⟩, hcurrent.still hproceeds.still, ?_⟩, hproceeds⟩
  exact (hproceeds.still.loaded_eq C).trans h.loaded

/-! ### Calls one after another -/

theorem writeAll_append (calls more : List (Caller × WriteCall)) (state : SchemaCache × World) :
    writeAll config (calls ++ more) state = writeAll config more (writeAll config calls state) :=
  List.foldl_append

theorem relationHistory_append (f : String) (calls more : List (Caller × WriteCall))
    (state : SchemaCache × World) :
    relationHistory config C f (calls ++ more) state =
      relationHistory config C f calls state ++
        relationHistory config C f more (writeAll config calls state) := by
  induction calls generalizing state with
  | nil => rfl
  | cons call rest ih =>
    rw [List.cons_append, relationHistory, relationHistory, ih, List.append_assoc,
      ← writeAll_append, List.singleton_append]

/-- **No write of a batch waits**, if the batch is of several independent writes: the batch leaves
the clock where it was. -/
def Prompt (config : Config) (calls : List (Caller × WriteCall)) (state : SchemaCache × World) :
    Prop :=
  ∀ n caller ops, calls[n]? = some (caller, .batch ops false) → ops.length ≤ 1 ∨
    (reached config calls state (n + 1)).2.clockMs = (reached config calls state n).2.clockMs

/-- **The run**: calls do to relations what their history says, and leave them minded. -/
theorem Minds.reached {calls : List (Caller × WriteCall)} {state : SchemaCache × World}
    (h : Minds C schema state) (hspares : ∀ call ∈ calls, ∀ op ∈ call.2.ops, op.SparesIds)
    (hprompt : Prompt config calls state) (n : Nat) :
    Minds C schema (Engine.reached config calls state n) ∧
      Store.Proceeds C (schema.relationFields.map Prod.fst)
        (fun f => relationHistory config C f (calls.take n) state)
        state.2.store (Engine.reached config calls state n).2.store := by
  induction n with
  | zero => exact ⟨h, .of_collection h.tended.bound (.refl _) fun _ => rfl⟩
  | succ n ih =>
    obtain ⟨hminds, hproceeds⟩ := ih
    cases hcall : calls[n]? with
    | none =>
      have htake : calls.take (n + 1) = calls.take n := by
        rw [List.take_add_one, hcall, Option.toList_none, List.append_nil]
      rw [Engine.reached, htake]
      exact ⟨hminds, hproceeds⟩
    | some call =>
      have htake : calls.take (n + 1) = calls.take n ++ [call] := by
        rw [List.take_add_one, hcall, Option.toList_some]
      have hnext : Engine.reached config calls state (n + 1) =
          writeAll config [call] (Engine.reached config calls state n) := by
        rw [Engine.reached, htake, writeAll_append, Engine.reached]
      obtain ⟨hminds', hproceeds'⟩ := hminds.write
        (fun op hop => hspares call (List.mem_of_getElem? hcall) op hop) fun ops hops => by
          rw [← hnext]
          exact hprompt n call.1 ops (by rw [hcall, ← hops])
      simp only [hnext, htake, relationHistory_append]
      refine ⟨hminds', ?_⟩
      simp only [relationHistory, List.append_nil]
      exact hproceeds.trans hproceeds'

/-- **Relations are sets of ids owned by objects that exist**, whatever the calls: in every reached
state the join collection of a relation field of the class is in order and its owners exist, and the
relation of each object is what the history of the field makes of it. -/
theorem relation_writeAll {calls : List (Caller × WriteCall)}
    (hquiet : w.store.Quiet) (hwf : w.store.WellFormed) (hids : w.store.Identified)
    (hcurrent : cache.Current C w.store)
    (hloaded : Catalog.loaded w.store C = .ok (some schema))
    (hbound : ∀ field ∈ schema.relationFields, w.store.Bound C field.1)
    (hspares : ∀ call ∈ calls, ∀ op ∈ call.2.ops, op.SparesIds)
    (hprompt : Prompt config calls (cache, w)) (n : Nat) :
    ∀ field ∈ schema.relationFields,
      (reached config calls (cache, w) n).2.store.Bound C field.1 ∧
      (reached config calls (cache, w) n).2.store.relation C field.1 =
        (relationHistory config C field.1 (calls.take n) (cache, w)).foldl RelationAct.apply
          (w.store.relation C field.1) := by
  have hminds : Minds C schema (cache, w) := by
    refine ⟨⟨hquiet, hwf, hids, fun f hf => ?_⟩, hcurrent, hloaded⟩
    obtain ⟨field, hfield, rfl⟩ := List.mem_map.1 hf
    exact hbound field hfield
  obtain ⟨-, hproceeds⟩ := hminds.reached hspares hprompt n
  intro field hfield
  have hf := List.mem_map_of_mem (f := Prod.fst) hfield
  exact ⟨hproceeds.bound _ hf, hproceeds.relation _ hf⟩

/-! ### Objects that make friends -/

/-- An engine that has cached nothing, and an object that is related to none. -/
def unrelated : SchemaCache × World := ({ ttlMs := 5000 }, owning [])

theorem wellFormed_unrelated : unrelated.2.store.WellFormed := .of_sorted [] (by decide +kernel)

theorem identified_unrelated : unrelated.2.store.Identified :=
  Store.identified_of_records (by decide +kernel)

theorem bound_unrelated : unrelated.2.store.Bound "N" "rel" := .of_collection_eq_empty rfl

theorem exists_loaded_unrelated : ∃ schema,
    Catalog.loaded unrelated.2.store "N" = .ok (some schema) ∧
      schema.relationFields = [("rel", "T")] := by
  have hfields : (Catalog.loaded unrelated.2.store "N").toOption.join.map
      ClassSchema.relationFields = some [("rel", "T")] := by decide +kernel
  obtain ⟨schema, hschema, hrelations⟩ := Option.map_eq_some_iff.1 hfields
  exact ⟨schema, Outcome.toOption_eq_some.1 (Option.join_eq_some_iff.1 hschema), hrelations⟩

theorem current_unrelated : unrelated.1.Current "N" unrelated.2.store where
  faithful := SchemaCache.faithful_empty 5000
  keyed := by
    have hids : ∀ m ∈ (unrelated.2.store.collection Catalog.collection).records,
        m.2.id? = some m.1 := by decide +kernel
    exact ⟨wellFormed_unrelated.sorted _, fun id r hmem d hd =>
      Option.some.inj (hd.symm.trans (Store.id?_eq_some_iff.1 (hids _ hmem)))⟩
  loaded schema hholds := by
    obtain ⟨-, id, atMs, hslot, -⟩ := SchemaCache.holds_iff.1 hholds
    simp [unrelated] at hslot

/-- An object gets relations, two writes that do not wait edit these and those of another object, a
deletion is taken back with a transaction that fails, and the other object is deleted. -/
def befriending : List (Caller × WriteCall) :=
  [(bob, .one (.create "N" (numbered "x" []))),
    (bob, .one (.update "N" "x" [("rel", .addRelation [⟨"T", "t"⟩, ⟨"T", "u"⟩])])),
    (master, .batch [joinObject,
      .updateMany "N" (.field "rel" (.relationContains ⟨"T", "u"⟩))
        [("rel", .removeRelation [⟨"T", "t"⟩])]] false),
    (master, .batch [.delete "N" (.field "objectId" (.equals (.string "x"))),
      .create "N" (numbered "a" [])] true),
    (master, .one (.delete "N" (.field "objectId" (.equals (.string "a")))))]

theorem relation_writeAll_befriending :
    (∀ call ∈ befriending, ∀ op ∈ call.2.ops, op.SparesIds) ∧ Prompt {} befriending unrelated ∧
      relationHistory {} "N" "rel" befriending unrelated =
        [.create "x", .edit "x" ["t", "u"] [], .edit "a" ["t"] [], .edit "x" [] ["t"],
          .delete "a"] ∧
      ∀ n, (reached {} befriending unrelated n).2.store.Bound "N" "rel" ∧
        (reached {} befriending unrelated n).2.store.relation "N" "rel" =
          (relationHistory {} "N" "rel" (befriending.take n) unrelated).foldl RelationAct.apply
            (unrelated.2.store.relation "N" "rel") := by
  have hspares : ∀ call ∈ befriending, ∀ op ∈ call.2.ops, op.SparesIds := by
    simp only [befriending, joinObject, WriteCall.ops, List.forall_mem_cons, List.not_mem_nil,
      IsEmpty.forall_iff, implies_true, and_true, WriteOp.SparesIds, UpdateMap.Spares, true_and]
    simp [Record.idKey]
  have hprompt : Prompt {} befriending unrelated := by
    intro n caller ops hcall
    have hn : n < befriending.length := (List.getElem?_eq_some_iff.1 hcall).1
    have hclock : ∀ n < befriending.length, (reached {} befriending unrelated (n + 1)).2.clockMs =
        (reached {} befriending unrelated n).2.clockMs := by decide +kernel
    exact .inr (hclock n hn)
  obtain ⟨schema, hloaded, hrelations⟩ := exists_loaded_unrelated
  have hfield : ("rel", "T") ∈ schema.relationFields := hrelations ▸ List.mem_cons_self
  have hbound : ∀ field ∈ schema.relationFields, unrelated.2.store.Bound "N" field.1 := by
    intro field hfield
    rw [hrelations, List.mem_singleton] at hfield
    exact hfield ▸ bound_unrelated
  exact ⟨hspares, hprompt, by decide +kernel, fun n =>
    relation_writeAll (Store.quiet_of_nil rfl) wellFormed_unrelated identified_unrelated
      current_unrelated hloaded hbound hspares hprompt n _ hfield⟩

/-- The first write of a batch relates all objects after it has waited; the second deletes the only
object. -/
def drowsing : List (Caller × WriteCall) :=
  [(master, .batch [.updateMany "N" (.raw "sleep(100)") [("rel", .addRelation [⟨"T", "t"⟩])],
    .delete "N" (.field "objectId" (.equals (.string "a")))] false)]

/-- **A write that waits** may relate an object that is gone: the object has been found before it
is deleted, and the edge is added after that. -/
theorem not_bound_drowsing :
    ¬∀ calls : List (Caller × WriteCall), (∀ call ∈ calls, ∀ op ∈ call.2.ops, op.SparesIds) →
      ∀ n, (reached {} calls unrelated n).2.store.Bound "N" "rel" := by
  intro h
  have hspares : ∀ call ∈ drowsing, ∀ op ∈ call.2.ops, op.SparesIds := by
    simp only [drowsing, WriteCall.ops, List.forall_mem_cons, List.not_mem_nil,
      IsEmpty.forall_iff, implies_true, and_true, WriteOp.SparesIds, UpdateMap.Spares]
    simp [Record.idKey]
  have hlinks : (Members.values ((reached {} drowsing unrelated 1).2.store.collection
      (Join.collection "rel" "N")).records).any (fun edge =>
        edge.string? Join.owningKey = some "a" ∧ edge.string? Join.relatedKey = some "t") = true := by
    decide +kernel
  have hgone : ((reached {} drowsing unrelated 1).2.store.record? "N" "a").isSome = false := by
    decide +kernel
  obtain ⟨edge, hedge, hlinked⟩ := List.any_eq_true.1 hlinks
  have howned := (h drowsing hspares 1).owned "a" "t" ⟨edge, hedge, of_decide_eq_true hlinked⟩
  exact absurd howned (by simp [hgone])

end Engine

end ObjectEngine
