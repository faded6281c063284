import ObjectEngine.Proofs.Engine.Keeping
import ObjectEngine.Proofs.Engine.Rereading
import ObjectEngine.Proofs.Engine.Tallying

/-!
# Upserts that a state serves

A state serves a schema of a class if no fault is due in its store, the store has the schema, and
so has the cache wherever it has a load of the class that is over (`Engine.Serves`). Reading the
schema then succeeds and leaves such a state (`Engine.Serves.runIn_schema`).

An upsert of a caller with privilege, by a filter that asks for values and with operators that
count (`Engine.SimpleUpsert`), is in such a state just the call to the store that is planned for it,
and leaves such a state (`Engine.Serves.stateIn_upsert`).
-/

namespace ObjectEngine

/-! ### Caches -/

namespace SchemaCache

variable {cache : SchemaCache} {className : String} {schema : ClassSchema}

/-- **A cache serves a schema** of a class: a load of the class that is over has loaded it. -/
def Serves (cache : SchemaCache) (className : String) (schema : ClassSchema) : Prop :=
  ∀ id load, cache.slots.lookup className = some id → cache.load? id = some load →
    load = .inFlight ∨ ∃ atMs, load = .loaded schema atMs

theorem serves_of_lookup_none (h : cache.slots.lookup className = none) (schema : ClassSchema) :
    cache.Serves className schema :=
  fun _ _ hid _ => absurd (h.symm.trans hid) (by simp)

/-- **The load that a reader waits for** has loaded the schema, if it is over. -/
theorem Serves.waited (h : cache.Serves className schema) (nowMs : Nat) {id : Nat} {started : Bool}
    {entered : SchemaCache} (hentered : cache.enter className = (id, started, entered)) :
    (if started then entered.complete id (.ok schema) nowMs else entered).Serves className schema ∧
      (if started then entered.complete id (.ok schema) nowMs else entered).slots.lookup className =
        some id := by
  have hslot : entered.slots.lookup className = some id := by
    have hslot := (lookup_enter cache className).1
    rwa [hentered] at hslot
  cases started with
  | false =>
    obtain ⟨-, rfl⟩ := enter_eq_false.1 hentered
    exact ⟨h, hslot⟩
  | true =>
    refine ⟨fun id' load hid hload => ?_, hslot⟩
    obtain rfl := Option.some.inj (hslot.symm.trans hid)
    rw [if_pos rfl, load?_complete, if_pos rfl] at hload
    obtain ⟨-, -, rfl⟩ := Option.map_eq_some_iff.1 hload
    exact .inr ⟨nowMs, rfl⟩

/-- **The schema is read**, in the cache or by a load. -/
theorem Serves.readWithin (h : cache.Serves className schema) (nowMs tries : Nat) :
    ∃ cache', SchemaCache.readWithin className (.ok schema) nowMs tries cache =
      (.ok schema, cache') ∧ cache'.Serves className schema := by
  induction tries generalizing cache with
  | zero => exact ⟨cache, rfl, h⟩
  | succ tries ih =>
    rw [SchemaCache.readWithin]
    rcases hentered : cache.enter className with ⟨id, started, entered⟩
    obtain ⟨hserves, hslot⟩ := h.waited nowMs hentered
    revert hserves hslot
    simp only
    generalize (if started then entered.complete id (.ok schema) nowMs else entered) = waited
    intro hserves hslot
    rcases hconclude : waited.conclude className id nowMs with _ | ⟨verdict, concluded⟩
    · exact ⟨waited, rfl, hserves⟩
    · rcases conclude_eq_some.1 hconclude with
        ⟨loaded, ms, hload, -, rfl, rfl⟩ | ⟨loaded, ms, hload, -, rfl, rfl⟩ | ⟨e, hload, -, -⟩
      · obtain hflight | ⟨atMs, hloaded⟩ := hserves id _ hslot hload
        · exact absurd hflight (by simp)
        · obtain ⟨rfl, -⟩ := Load.loaded.inj hloaded
          exact ⟨concluded, rfl, hserves⟩
      · -- a load that has expired makes room for another
        refine ih (serves_of_lookup_none ?_ schema)
        rw [lookup_evict, if_pos ⟨rfl, hslot⟩]
      · obtain hflight | ⟨atMs, hloaded⟩ := hserves id _ hslot hload
        · exact absurd hflight (by simp)
        · exact absurd hloaded (by simp)

theorem Serves.read (h : cache.Serves className schema) (nowMs : Nat) :
    ∃ cache', cache.read className (.ok schema) nowMs = (.ok schema, cache') ∧
      cache'.Serves className schema := by
  unfold SchemaCache.read
  split
  · exact ⟨cache, rfl, h⟩
  · exact h.readWithin nowMs 2

end SchemaCache

/-! ### What work leaves -/

namespace Action

variable {α β : Type} {cache cache' : SchemaCache} {w v : World}

/-- The state that work leaves. -/
def stateIn (work : Action α) (cache : SchemaCache) (w : World) : SchemaCache × World :=
  ((work.runIn cache w).1.2, (work.runIn cache w).2)

theorem stateIn_bind_ok {work : Action α} {a : α}
    (h : work.runIn cache w = ((.ok a, cache'), v)) (f : α → Action β) :
    (work >>= f).stateIn cache w = (f a).stateIn cache' v := by
  rw [stateIn, runIn_bind, h]
  rfl

theorem stateIn_bind_error {work : Action α} {e : EngineError}
    (h : work.runIn cache w = ((.error e, cache'), v)) (f : α → Action β) :
    (work >>= f).stateIn cache w = (cache', v) := by
  rw [stateIn, runIn_bind, h]

/-- The form in which errors leave makes no difference. -/
theorem stateIn_guarded (config : Config) (work : Action α) :
    (Engine.guarded config work).stateIn cache w = work.stateIn cache w := by
  rw [stateIn, stateIn, runIn_guarded]
  rcases work.runIn cache w with ⟨⟨_ | a, cache'⟩, v⟩ <;> rfl

theorem stateIn_map (work : Action α) (f : α → β) :
    Action.stateIn (do return f (← work)) cache w = work.stateIn cache w := by
  rcases h : work.runIn cache w with ⟨⟨_ | a, cache'⟩, v⟩
  · rw [stateIn_bind_error h, stateIn, h]
  · rw [stateIn_bind_ok h, stateIn, stateIn, h]
    rfl

end Action

/-- **An upsert is a single call.** -/
theorem Write.run_upsert (name : String) (p : Predicate) (edit : Edit) (w : World) :
    ∃ x v, (Write.run none (.upsert name p edit)).run.run w = (x, v) ∧
      v.store = (w.store.run (.upsert name p edit none)).store ∧
      ∀ result, x = .ok result → ∃ matched id r, result = .upserted matched id r := by
  let call : StoreAction Store.Upserted := Program.call (.upsert name p edit none)
  obtain ⟨x, v, hcall, hv⟩ : ∃ x v, call.run.run w = (x, v) ∧
      v.store = (w.store.run (.upsert name p edit none)).store := ⟨_, _, rfl, rfl⟩
  have hbind := StoreAction.run_bind call
    (fun out => pure (WriteResult.upserted out.matched out.id out.record)) w
  rw [hcall] at hbind
  refine ⟨x.map fun out => .upserted out.matched out.id out.record, v, hbind.trans ?_, hv, ?_⟩
  · cases x <;> rfl
  · intro result hresult
    obtain ⟨out, -, rfl⟩ := Outcome.map_eq_ok.1 hresult
    exact ⟨_, _, _, rfl⟩

namespace Engine

/-! ### States -/

/-- **A state that serves a schema** of a class: no fault is due in the store, which has the schema,
and so has the cache. -/
structure Serves (className : String) (schema : ClassSchema) (state : SchemaCache × World) :
    Prop where
  quiet : state.2.store.Quiet
  load : (Action.load className).outcomeIn state.2 = .ok schema
  cache : state.1.Serves className schema

namespace Serves

variable {config : Config} {caller : Caller} {className : String} {schema : ClassSchema}
  {cache : SchemaCache} {w v : World}

/-- The schema stays where the store keeps the schemas. -/
theorem congr (h : Serves className schema (cache, w)) {cache' : SchemaCache}
    (hcache : cache'.Serves className schema) (hfaults : v.store.faults = w.store.faults)
    (hschemas : v.store.collection Catalog.collection = w.store.collection Catalog.collection) :
    Serves className schema (cache', v) where
  quiet := h.quiet.of_faults hfaults
  load := by
    refine Eq.trans ?_ h.load
    refine (Catalog.reads_require className v w ⟨?_, h.quiet.of_faults hfaults, h.quiet⟩).1
    rintro _ rfl
    exact hschemas.symm
  cache := hcache

/-- A class is not the collection of the schemas. -/
theorem collection_ne (h : Serves className schema (cache, w)) : Catalog.collection ≠ className :=
  Catalog.collection_ne_of_isClassName (((Catalog.ensures_require (I := fun _ => True)
    (fun _ _ _ h => h) className).run (w := w) trivial).2 schema h.load).2

/-- **The schema is read**, and the state goes on serving it. -/
theorem runIn_schema (h : Serves className schema (cache, w)) :
    ∃ cache' v, (Action.schema className).runIn cache w = ((.ok schema, cache'), v) ∧
      w.Rests v ∧ Serves className schema (cache', v) := by
  obtain ⟨v, hv, hrun⟩ := Action.runIn_schema h.quiet className cache
  obtain ⟨cache', hread, hserves⟩ := h.cache.read w.now.toMs
  rw [h.load, hread] at hrun
  exact ⟨cache', v, hrun, hv, h.congr hserves hv.store.faults (hv.store.collection _)⟩

end Serves

/-! ### Filters -/

section

variable {wanted : Members Value} {f : Filter}

mutual

/-- Nothing is put in place of a constraint that was not looked up. -/
theorem substitute_nil (f : Filter) : substitute [] f = f := by
  cases f with
  | and parts | or parts => rw [substitute, substituteAll_nil]
  | _ =>
    rw [substitute.eq_def]
    simp only [List.lookup_nil, Option.bind_fun_none]

theorem substituteAll_nil (parts : List Filter) : substituteAll [] parts = parts := by
  cases parts with
  | nil => rfl
  | cons f rest => rw [substituteAll, substitute_nil f, substituteAll_nil rest]

end

/-- A filter that asks for values needs no look-ups. -/
theorem lookups_eq_nil (hf : f.Asks wanted) (schema : ClassSchema) : lookups schema f = [] := by
  induction hf with
  | all | field => rfl
  | @and parts h ih =>
    rw [lookups]
    clear h
    induction parts with
    | nil => rfl
    | cons part rest ihRest =>
      obtain ⟨hfirst, hrest⟩ := List.forall_mem_cons.1 ih
      rw [lookupsOf, hfirst, ihRest hrest, List.append_nil]

theorem reduceRelations_eq_pure (hf : f.Asks wanted) (schema : ClassSchema) :
    reduceRelations schema f = pure f := by
  rw [reduceRelations, lookups_eq_nil hf, List.eraseDups_nil]
  change (pure (substitute [] f) : StoreAction Filter) = pure f
  rw [substitute_nil]

/-- A caller with privilege asks for all. -/
theorem permission_of_privileged {caller : Caller} (hcaller : caller.privileged = true)
    (permKey : String) : Plan.permission permKey caller = .all := by
  rw [Plan.permission, Caller.subjects?, if_pos hcaller]

/-- **What a filter that asks for values is planned as** is what a caller with privilege asks
of the store. -/
theorem run_scopedFilter {config : Config} {caller : Caller} (hcaller : caller.privileged = true)
    (hf : f.Asks wanted) {schema : ClassSchema} {plan : Plan.FilterPlan}
    (hplan : Plan.filter { schema with indexes := [] } (policy config caller) f = .ok plan)
    (permKey : String) (w : World) :
    (scopedFilter config caller schema permKey f).run.run w = (.ok plan.filter, w) := by
  rw [scopedFilter, reduceRelations_eq_pure hf, pure_bind, permission_of_privileged hcaller, hplan,
    StoreAction.run_bind]
  exact Prod.ext (congrArg Except.ok (Predicate.both_all _)) rfl

end

/-! ### Upserts -/

/-- **A simple upsert**: a caller with privilege upserts by a filter that asks for values, but for no
id, with operators that count, and both are accepted. -/
structure SimpleUpsert (config : Config) (caller : Caller) (schema : ClassSchema)
    (wanted : Members Value) (f : Filter) (scope : Plan.FilterPlan) (ops : UpdateMap) : Prop where
  privileged : caller.privileged = true
  asks : f.Asks wanted
  planned : Plan.filter { schema with indexes := [] } (policy config caller) f = .ok scope
  seed_id : scope.filter.seed.lookup Record.idKey = none
  counts : ∀ m ∈ ops, m.2.Counts
  accepted : ∃ out, Plan.update schema caller ops = .ok out

/-- The edit of operators that count, stamped with the time and the next object id. -/
def stampedTally (schema : ClassSchema) (caller : Caller) (ops : UpdateMap) (w : World) : Edit :=
  Plan.stamped w.now (World.objectId w.nextObject) (Plan.tally schema caller ops)

namespace Serves

variable {config : Config} {caller : Caller} {className : String} {schema : ClassSchema}
  {cache : SchemaCache} {w v : World} {wanted : Members Value} {f : Filter} {ops : UpdateMap}
  {scope : Plan.FilterPlan}

/-- **A simple upsert is planned** under the schema. -/
theorem runIn_prepareUpsert (h : Serves className schema (cache, w))
    (hsimple : SimpleUpsert config caller schema wanted f scope ops) :
    ∃ cache' v, (prepareUpsert config caller className f ops).runIn cache w =
        ((.ok (.upsert className scope.filter (stampedTally schema caller ops w)), cache'), v) ∧
      Store.Rests w.store v.store ∧ Serves className schema (cache', v) := by
  obtain ⟨cache', v, hschema, hv, hserves⟩ := h.runIn_schema
  obtain ⟨out, hout⟩ := hsimple.accepted
  obtain ⟨rfl, -, -⟩ := Plan.update_eq_tally hsimple.counts hout
  have hscoped : (Action.ofStore (scopedFilter config caller schema Stored.writePermKey f)).runIn
      cache' v = ((.ok scope.filter, cache'), v) := by
    rw [Action.runIn_ofStore, StoreAction.outcomeIn,
      run_scopedFilter hsimple.privileged hsimple.asks hsimple.planned]
  refine ⟨cache', { v with nextObject := v.nextObject + 1 }, ?_, hv.store,
    hserves.congr hserves.cache rfl rfl⟩
  refine Action.runIn_bind_eq_ok.2 ⟨schema, cache', v, hschema, ?_⟩
  refine Action.runIn_bind_eq_ok.2 ⟨{ edit := Plan.tally schema caller ops }, cache', v, ?_, ?_⟩
  · rw [hout]
    rfl
  refine Action.runIn_bind_eq_ok.2 ⟨scope.filter, cache', v, hscoped, ?_⟩
  -- the filter gives no id, so that one is made up
  rw [Action.runIn_now_bind, hsimple.seed_id, Option.isSome_none, if_neg Bool.false_ne_true]
  refine Action.runIn_bind_eq_ok.2 ⟨World.objectId v.nextObject, cache', _, rfl, ?_⟩
  rw [hv.now, hv.nextObject]
  rfl

/-- A call that touches one record of the class leaves the schema. -/
theorem touches (h : Serves className schema (cache, w)) {id : String} {r? : Option Record}
    (ht : Store.Touches className id w.store r? v.store) : Serves className schema (cache, v) :=
  h.congr h.cache ht.faults (ht.other _ h.collection_ne)

/-- **A record that a call answers** is read under the schema. -/
theorem stateIn_readAnswer (caller : Caller) (h : Serves className schema (cache, w))
    (r : Record) :
    ∃ cache' v, Action.stateIn (do
        let schema ← Action.schema className
        (readDocument schema caller r : Outcome Document)) cache w = (cache', v) ∧
      w.Rests v ∧ Serves className schema (cache', v) := by
  obtain ⟨cache', v, hschema, hv, hserves⟩ := h.runIn_schema
  exact ⟨cache', v, Action.stateIn_bind_ok hschema _, hv, hserves⟩

/-- **A simple upsert is the call to the store** that is planned for it: it changes what the call
changes, whatever it answers. -/
theorem stateIn_upsert (h : Serves className schema (cache, w))
    (hsimple : SimpleUpsert config caller schema wanted f scope ops) {id : String}
    {r? : Option Record}
    (hcall : ∀ s, Store.Rests w.store s → Store.Touches className id s r?
      (s.run (.upsert className scope.filter (stampedTally schema caller ops w) none)).store) :
    ∃ cache' v, (upsert config caller className f ops).stateIn cache w = (cache', v) ∧
      Store.Touches className id w.store r? v.store ∧ Serves className schema (cache', v) := by
  obtain ⟨cache', v, hprepare, hv, hserves⟩ := h.runIn_prepareUpsert hsimple
  obtain ⟨x, u, hrun, hu, hresult⟩ :=
    Write.run_upsert className scope.filter (stampedTally schema caller ops w) v
  have htouches : Store.Touches className id v.store r? u.store := hu ▸ hcall v.store hv
  have hserved : Serves className schema (cache', u) := hserves.touches htouches
  have hkept : Store.Touches className id w.store r? u.store :=
    htouches.congr hv.faults hv.collection
  have hlifted : (Action.ofStore (Write.run none (.upsert className scope.filter
      (stampedTally schema caller ops w)))).runIn cache' v = ((x, cache'), u) := by
    rw [Action.runIn_ofStore, StoreAction.outcomeIn, hrun]
  rw [upsert, Action.stateIn_guarded, Action.stateIn_bind_ok hprepare]
  cases x with
  | error e => exact ⟨cache', u, Action.stateIn_bind_error hlifted _, hkept, hserved⟩
  | ok result =>
    -- the record is read under the schema, which leaves the store as it is
    obtain ⟨matched, objectId, r, rfl⟩ := hresult result rfl
    obtain ⟨cache'', u', hread, hu', hserved'⟩ := hserved.stateIn_readAnswer caller r
    exact ⟨cache'', u', (Action.stateIn_bind_ok hlifted _).trans hread, hkept.rests hu'.store,
      hserved'⟩

end Serves

end Engine

end ObjectEngine
