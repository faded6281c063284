import ObjectEngine.Proofs.Engine.Writing

/-!
# Sound worlds

The engine starts with an empty store and an empty schema cache. Whatever it is asked to do,
and by whom, it leaves a well-formed store and a faithful cache (`Engine.sound_perform`): so
these two hold in every world that operations reach (`Engine.sound_performAll`).

A program keeps the store well formed because every call does, so what there is to show is that
the operations keep the cache faithful. They touch it in two ways only: they read schemas
through it, and they drop what a change makes stale.
-/

namespace ObjectEngine

namespace SchemaCache

/-- A cache stays faithful when loads are dropped. -/
theorem Faithful.apply {cache : SchemaCache} (h : cache.Faithful) (change : SchemaChange) :
    (cache.apply change).Faithful := by
  cases change with
  | ofClass className => exact h.invalidate className
  | all => exact ⟨nofun, nofun, nofun⟩

end SchemaCache

namespace Action

variable {α β : Type}

/-- **Sound work** keeps the store well formed and the cache faithful. -/
def Sound (work : Action α) : Prop :=
  work.Ensures Store.WellFormed SchemaCache.Faithful fun _ => True

namespace Sound

theorem pure (a : α) : (Pure.pure a : Action α).Sound := Ensures.pure trivial

theorem throw (e : EngineError) : (MonadExcept.throw e : Action α).Sound := Ensures.throw

theorem bind {work : Action α} {f : α → Action β} (h : work.Sound) (hf : ∀ a, (f a).Sound) :
    (work >>= f).Sound :=
  Ensures.bind h fun a _ => hf a

theorem guard {p : Prop} [Decidable p] {e : EngineError} {f : α → Action β} {work : Action β}
    (h : work.Sound) : Action.Sound (if p then MonadExcept.throw e >>= f else work) :=
  Ensures.guard fun _ => h

theorem ite {p : Prop} [Decidable p] {work work' : Action α} (h : work.Sound)
    (h' : work'.Sound) : Action.Sound (if p then work else work') :=
  Ensures.ite (fun _ => h) fun _ => h'

/-- Work that may be left out before the rest. -/
theorem when {p : Prop} [Decidable p] {work : Action Unit} {f : Unit → Action β} (h : work.Sound)
    (hf : ∀ u, (f u).Sound) : Action.Sound (if p then work >>= f else f ()) :=
  .ite (.bind h hf) (hf ())

theorem tryCatch {work : Action α} {handler : EngineError → Action α} (h : work.Sound)
    (hhandler : ∀ e, (handler e).Sound) : (MonadExcept.tryCatch work handler).Sound :=
  Ensures.tryCatch h hhandler

/-- Work on the store alone is sound. -/
theorem store (work : StoreAction α) : Action.Sound (liftM work) :=
  Ensures.mono (fun _ _ => trivial) (Ensures.lift (.of_calls (fun _ c h => h.run c) work))

theorem outcome (x : Outcome α) : Action.Sound (liftM x) := Ensures.outcome fun _ _ => trivial

theorem guarded (config : Config) {work : Action α} (h : work.Sound) :
    Action.Sound (Engine.guarded config work) :=
  Ensures.guarded h

theorem forIn {f : α → PUnit → Action (ForInStep PUnit)} {xs : List α}
    (h : ∀ a, (f a ⟨⟩).Sound) : Action.Sound (forIn xs PUnit.unit f) :=
  (judgement Store.WellFormed SchemaCache.Faithful).forIn fun a _ => h a

theorem mapM {f : α → Action β} {xs : List α} (h : ∀ a, (f a).Sound) :
    Action.Sound (xs.mapM f) :=
  Ensures.mono (fun _ _ => trivial)
    ((judgement Store.WellFormed SchemaCache.Faithful).mapM (R := fun _ => True) fun a _ => h a)

end Sound

theorem stable_wellFormed : Store.Stable Store.WellFormed := fun _ _ hsame h => h.congr hsame

theorem sound_schema (className : String) : (schema className).Sound :=
  Ensures.mono (fun _ _ => trivial) (ensures_schema stable_wellFormed className)

theorem sound_publish (change : SchemaChange) : (publish change).Sound :=
  fun _ hcache => ⟨hcache.apply change, fun _ _ => trivial⟩

end Action

namespace Indexing

open Action

theorem sound_ensureIndex (className : String) (index : IndexDescriptor) :
    (ensureIndex className index).Sound := by
  refine .bind (sound_schema className) fun schema => .guard (.bind (.outcome _) fun _ => ?_)
  refine .bind (.store _) fun existing => ?_
  split
  · exact .ite (.pure _) (.throw _)
  · refine .bind (.store _) fun _ => .bind (.store _) fun _ => ?_
    exact .bind (sound_publish _) fun _ => .pure _

theorem sound_dropIndex (className name : String) : (dropIndex className name).Sound := by
  refine .bind (.store _) fun existing => .when (.store _) fun _ => .bind (.store _) fun _ => ?_
  exact .bind (sound_publish _) fun _ => .pure _

theorem sound_deleteFields (className : String) (names : List String) :
    (deleteFields className names).Sound := by
  refine .bind (.store _) fun schema => .bind (.outcome _) fun keys => ?_
  refine .bind (.store _) fun updated => .bind (.store _) fun existing => ?_
  refine .bind (.forIn fun index => .ite (.bind (.store _) fun _ => .pure _) (.pure _)) fun _ => ?_
  refine .bind (.forIn fun entry => .ite (.bind (.store _) fun _ => .pure _) (.pure _)) fun _ => ?_
  refine .bind (.forIn fun name => .ite (.bind (.store _) fun _ => .pure _) (.pure _)) fun _ => ?_
  have hrest (u : Unit) : Action.Sound (do
      Action.publish (.ofClass className)
      let after ← (Catalog.load className : StoreAction (Option ClassSchema))
      return after.getD updated) :=
    .bind (sound_publish _) fun _ => .bind (.store _) fun after => .pure _
  exact .ite (.bind (.store _) fun _ => hrest ()) (hrest ())

theorem sound_ensureClass (className : String) : (ensureClass className).Sound := by
  refine .bind (.store _) fun known => .ite (.bind (.outcome _) fun schema => ?_) (.pure _)
  refine .bind (.tryCatch (.store _) fun e => ?_) fun _ => sound_publish _
  split
  · exact .pure _
  · exact .throw _

theorem sound_ensureDefaults (config : DefaultIndexes) : (ensureDefaults config).Sound :=
  .mapM fun _ => .bind (sound_ensureClass _) fun _ =>
    .bind (sound_ensureIndex _ _) fun _ => .pure _

end Indexing

/-! ### Operations -/

namespace Engine

open Action

variable (config : Config)

theorem sound_createClass (schema : ClassSchema) : (createClass config schema).Sound :=
  .guarded config (.bind (.store _) fun _ => .bind (sound_publish _) fun _ => .pure _)

theorem sound_addField (className name : String) (ty : FieldType) :
    (addField config className name ty).Sound :=
  .guarded config (.bind (.store _) fun _ => .bind (sound_publish _) fun _ => .pure _)

theorem sound_deleteClass (className : String) : (deleteClass config className).Sound := by
  refine .guarded config (.bind (sound_schema className) fun schema => ?_)
  refine .bind (.store _) fun objects => .guard ?_
  refine .bind (.forIn fun field => .bind (.store _) fun _ => .pure _) fun _ => ?_
  refine .bind (.store _) fun _ => .bind (.store _) fun existed => ?_
  exact .bind (sound_publish _) fun _ => .pure _

theorem sound_resolve (caller : Caller) (results : List Document) (paths : List String) :
    (resolve config caller results paths).Sound := by
  have hobjects (className : String) (ids : List String) :
      Action.Sound ((fetcher config caller).objects className ids) :=
    .bind (sound_schema className) fun _ => .bind (.store _) fun _ => .outcome _
  have hlinks (className field : String) (ids : List String) :
      Action.Sound ((fetcher config caller).links className field ids) := .store _
  exact Ensures.mono (fun _ _ => trivial) (Includes.resolve_guarantees
    (judgement Store.WellFormed SchemaCache.Faithful) (P := fun _ => True) (fun _ => .throw)
    (fun _ _ _ _ => trivial)
    (fun c ids => Ensures.mono (fun _ _ _ _ => ⟨trivial, fun _ _ => trivial⟩) (hobjects c ids))
    hlinks _ (fun _ _ _ _ => trivial) paths)

theorem sound_find (caller : Caller) (className : String) (f : Filter) (options : FindOptions) :
    (find config caller className f options).Sound := by
  refine .guarded config (.bind (sound_schema className) fun schema => ?_)
  refine .bind (.store _) fun reduced => .bind (.outcome _) fun selection => ?_
  refine .bind (.store _) fun records => .bind (.outcome _) fun results => ?_
  exact .ite (.pure _) (sound_resolve config caller results _)

theorem sound_count (caller : Caller) (className : String) (f : Filter) :
    (count config caller className f).Sound :=
  .guarded config (.bind (sound_schema className) fun _ => .bind (.store _) fun _ => .store _)

/-- An operation of the engine. -/
inductive Operation
  | connect
  | close
  | createClass (schema : ClassSchema)
  | addField (className name : String) (ty : FieldType)
  | getClass (className : String)
  | allClasses
  | deleteClass (className : String)
  | find (caller : Caller) (className : String) (f : Filter) (options : FindOptions)
  | count (caller : Caller) (className : String) (f : Filter)
  | resolveIncludes (caller : Caller) (results : List Document) (paths : List String)
  | write (caller : Caller) (call : WriteCall)
  | ensureIndex (className : String) (index : IndexDescriptor)
  | dropIndex (className name : String)
  | ensureDefaultIndexes
  | deleteFields (className : String) (names : List String)

/-- What an operation leaves of a cache and a world. -/
def perform : Operation → SchemaCache × World → SchemaCache × World
  | .connect => leaves (Engine.connect config)
  | .close => leaves (Engine.close config)
  | .createClass schema => leaves (Engine.createClass config schema)
  | .addField className name ty => leaves (Engine.addField config className name ty)
  | .getClass className => leaves (Engine.getClass config className)
  | .allClasses => leaves (Engine.allClasses config)
  | .deleteClass className => leaves (Engine.deleteClass config className)
  | .find caller className f options => leaves (Engine.find config caller className f options)
  | .count caller className f => leaves (Engine.count config caller className f)
  | .resolveIncludes caller results paths =>
    leaves (Engine.resolveIncludes config caller results paths)
  | .write caller call => fun (cache, w) =>
    let ((_, cache), w) := Engine.write config caller call cache w
    (cache, w)
  | .ensureIndex className index => leaves (Engine.ensureIndex config className index)
  | .dropIndex className name => leaves (Engine.dropIndex config className name)
  | .ensureDefaultIndexes => leaves (Engine.ensureDefaultIndexes config)
  | .deleteFields className names => leaves (Engine.deleteFields config className names)
where
  /-- What work leaves of a cache and a world. -/
  leaves {α : Type} (work : Action α) : SchemaCache × World → SchemaCache × World
    | (cache, w) =>
      let ((_, cache), w) := work.runIn cache w
      (cache, w)

/-- A faithful cache and a world with a well-formed store. -/
structure Sound (state : SchemaCache × World) : Prop where
  faithful : state.1.Faithful
  wellFormed : state.2.store.WellFormed

theorem Sound.leaves {state : SchemaCache × World} (h : Sound state) {α : Type}
    (work : Action α) (hwork : work.Sound) : Sound (perform.leaves work state) :=
  have hrun := hwork.runIn h.faithful h.wellFormed
  ⟨hrun.2.1, hrun.1⟩

/-- A call that writes leaves a sound world, whoever makes it. -/
theorem Sound.write {state : SchemaCache × World} (h : Sound state) (caller : Caller)
    (call : WriteCall) : Sound (perform config (.write caller call) state) := by
  have hcalls (s : Store) (c : Store.Call) (hs : s.WellFormed) : (s.run c).store.WellFormed :=
    hs.run c
  -- every call keeps a store well formed, so the permission of the writes is not used
  have hrun := write_ensures (D := fun _ _ => True) stable_wellFormed (.of_calls hcalls) config
    (fun write (_ : write.Authorized caller) session =>
      .mono (fun _ _ _ _ _ _ => trivial) (.of_calls hcalls (write.run session)))
    h.faithful h.wellFormed call
  exact ⟨hrun.2.1, hrun.1⟩

/-- **An operation leaves a sound world.** -/
theorem sound_perform {state : SchemaCache × World} (h : Sound state) (op : Operation) :
    Sound (perform config op state) := by
  cases op with
  | connect => exact h.leaves (Engine.connect config) (.guarded config (.store _))
  | close => exact h.leaves (Engine.close config) (.guarded config (.store _))
  | createClass schema => exact h.leaves _ (sound_createClass config schema)
  | addField className name ty => exact h.leaves _ (sound_addField config className name ty)
  | getClass className => exact h.leaves _ (.guarded config (sound_schema className))
  | allClasses => exact h.leaves (Engine.allClasses config) (.guarded config (.store _))
  | deleteClass className => exact h.leaves _ (sound_deleteClass config className)
  | find caller className f options =>
    exact h.leaves _ (sound_find config caller className f options)
  | count caller className f => exact h.leaves _ (sound_count config caller className f)
  | resolveIncludes caller results paths =>
    exact h.leaves _ (.guarded config (sound_resolve config caller results paths))
  | write caller call => exact h.write config caller call
  | ensureIndex className index =>
    exact h.leaves _ (.guarded config (Indexing.sound_ensureIndex className index))
  | dropIndex className name =>
    exact h.leaves _ (.guarded config (Indexing.sound_dropIndex className name))
  | ensureDefaultIndexes =>
    exact h.leaves _ (.guarded config (Indexing.sound_ensureDefaults config.indexes))
  | deleteFields className names =>
    exact h.leaves _ (.guarded config (Indexing.sound_deleteFields className names))

/-- **Every world that operations reach is sound**, whatever faults are set up in its store. -/
theorem sound_performAll (ttlMs : Nat) (faults : List Store.Fault) (ops : List Operation) :
    Sound (ops.foldl (fun state op => perform config op state)
      ({ ttlMs }, { store := { faults } })) :=
  List.foldlRecOn ops _
    ⟨SchemaCache.faithful_empty ttlMs, .of_sorted faults fun _ hm => absurd hm List.not_mem_nil⟩
    fun _ h op _ => sound_perform config h op

end Engine

end ObjectEngine
