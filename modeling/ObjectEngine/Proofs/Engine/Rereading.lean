import ObjectEngine.Proofs.Engine.Reads
import ObjectEngine.Proofs.Engine.Lockstep

/-!
# Schemas read once and again

Reading a schema through the cache is a step of the cache alone, once it is known what a load
comes to. `SchemaCache.read` is that step: what the reader of a class gets at some time, and the
cache that it leaves. In a quiet world nothing waits, so that the whole of a reading happens at
one time, and `Action.runIn_schema` says that it is just this step.

After a class has been read the cache is *settled* on it (`SchemaCache.settled_read`): to read it
again at that time leaves the cache as it is (`SchemaCache.Settled.read`).
-/

namespace ObjectEngine

/-! ### The step of the cache -/

namespace SchemaCache

/-- What the reader of a class gets at a time if a load comes to `loaded`, and the cache that it
leaves. The reader of a schema that has expired starts over. -/
def readWithin (className : String) (loaded : Outcome ClassSchema) (nowMs : Nat) :
    Nat → SchemaCache → Outcome ClassSchema × SchemaCache
  | 0, cache => (loaded, cache)
  | tries + 1, cache =>
    let (id, started, entered) := cache.enter className
    let waited := if started then entered.complete id loaded nowMs else entered
    match waited.conclude className id nowMs with
    | some (.answer outcome, concluded) => (outcome, concluded)
    | some (.expired, concluded) => readWithin className loaded nowMs tries concluded
    | none => (loaded, waited)

/-- What the reader of a class gets at a time if a load comes to `loaded`, and the cache that it
leaves, which may be turned off. -/
def read (cache : SchemaCache) (className : String) (loaded : Outcome ClassSchema)
    (nowMs : Nat) : Outcome ClassSchema × SchemaCache :=
  if cache.ttlMs = 0 then (loaded, cache) else readWithin className loaded nowMs 2 cache

/-- **A cache is settled** on a class at a time: it is turned off, or a reader finds a load there
that is valid or still in flight. -/
def Settled (cache : SchemaCache) (className : String) (nowMs : Nat) : Prop :=
  cache.ttlMs = 0 ∨ ∃ id, cache.slots.lookup className = some id ∧
    ∀ verdict concluded, cache.conclude className id nowMs = some (verdict, concluded) →
      concluded = cache ∧ ∃ schema, verdict = .answer (.ok schema)

/-- Who enters finds the load that is there. -/
theorem enter_of_lookup {cache : SchemaCache} {className : String} {id : Nat}
    (h : cache.slots.lookup className = some id) :
    cache.enter className = (id, false, cache) := by
  rw [enter, h]

/-- **To read a class again** leaves a cache that is settled on it. -/
theorem Settled.read {cache : SchemaCache} {className : String} {nowMs : Nat}
    (h : cache.Settled className nowMs) (loaded : Outcome ClassSchema) :
    (cache.read className loaded nowMs).2 = cache := by
  unfold SchemaCache.read
  split
  · rfl
  · rename_i hon
    obtain ⟨id, hslot, hconclude⟩ := h.resolve_left hon
    rw [readWithin, enter_of_lookup hslot]
    rcases hverdict : cache.conclude className id nowMs with _ | ⟨verdict, concluded⟩
    · simp [hverdict]
    · obtain ⟨rfl, schema, rfl⟩ := hconclude verdict concluded hverdict
      simp [hverdict]

/-- A schema that is answered comes from a load that is kept. -/
theorem conclude_ok {cache concluded : SchemaCache} {className : String} {id nowMs : Nat}
    {schema : ClassSchema}
    (h : cache.conclude className id nowMs = some (.answer (.ok schema), concluded)) :
    concluded = cache := by
  unfold conclude at h
  split at h
  · split at h
    · simp only [Option.some.injEq, Prod.mk.injEq] at h
      exact h.2.symm
    · simp at h
  · simp at h
  · simp at h

/-- A load that has expired is dropped. -/
theorem lookup_of_expired {cache concluded : SchemaCache} {className : String} {id nowMs : Nat}
    (hslot : cache.slots.lookup className = some id)
    (h : cache.conclude className id nowMs = some (.expired, concluded)) :
    concluded.slots.lookup className = none ∧ concluded.ttlMs = cache.ttlMs := by
  have hevict : (cache.evict className id).slots.lookup className = none := by
    rw [evict, if_pos hslot]
    exact (Members.lookup_erase ..).trans (if_pos rfl)
  have httl : (cache.evict className id).ttlMs = cache.ttlMs := by
    unfold evict
    split <;> rfl
  unfold conclude at h
  split at h
  · split at h
    · simp at h
    · simp only [Option.some.injEq, Prod.mk.injEq] at h
      exact h.2 ▸ ⟨hevict, httl⟩
  · simp at h
  · simp at h

/-- Who enters a class has a slot for it, and the life time of schemas stays. -/
theorem lookup_enter (cache : SchemaCache) (className : String) :
    (cache.enter className).2.2.slots.lookup className = some (cache.enter className).1 ∧
      (cache.enter className).2.2.ttlMs = cache.ttlMs := by
  unfold enter
  cases hslot : cache.slots.lookup className with
  | some id => exact ⟨hslot, rfl⟩
  | none => exact ⟨(Members.lookup_insert ..).trans (if_pos rfl), rfl⟩

/-- **A load that has just been made** is valid, or has failed. -/
theorem conclude_complete_enter {cache : SchemaCache} {className : String}
    (hslot : cache.slots.lookup className = none) (hon : cache.ttlMs ≠ 0)
    (loaded : Outcome ClassSchema) (nowMs : Nat) :
    let entered := cache.enter className
    let waited := entered.2.2.complete entered.1 loaded nowMs
    ∃ concluded, waited.conclude className entered.1 nowMs = some (.answer loaded, concluded) := by
  intro entered waited
  have hentered : entered.2.2.load? entered.1 = some .inFlight := by
    simp [entered, enter, hslot, load?]
  have httl : waited.ttlMs = cache.ttlMs := (lookup_enter cache className).2
  have hcomplete := load?_complete entered.2.2 entered.1 loaded nowMs entered.1
  rw [if_pos rfl, hentered] at hcomplete
  cases loaded with
  | error e =>
    have hload : waited.load? entered.1 = some (.failed e) := hcomplete
    refine ⟨waited.evict className entered.1, ?_⟩
    simp only [conclude, hload]
  | ok schema =>
    have hload : waited.load? entered.1 = some (.loaded schema nowMs) := hcomplete
    have hvalid : waited.isValid nowMs nowMs = true := by
      simp only [isValid, Nat.sub_self, httl, decide_eq_true_eq]
      omega
    refine ⟨waited, ?_⟩
    simp only [conclude, hload, hvalid, if_true]

/-- A cache where a schema has been found is settled on its class. -/
theorem settled_of_conclude {cache concluded : SchemaCache} {className : String} {id nowMs : Nat}
    {schema : ClassSchema} (hslot : cache.slots.lookup className = some id)
    (h : cache.conclude className id nowMs = some (.answer (.ok schema), concluded)) :
    concluded.Settled className nowMs := by
  obtain rfl := conclude_ok h
  refine .inr ⟨id, hslot, fun verdict again hagain => ?_⟩
  obtain ⟨rfl, rfl⟩ := Prod.mk.inj (Option.some.inj (h.symm.trans hagain))
  exact ⟨rfl, schema, rfl⟩

/-- **A class that has been read** is settled. -/
theorem settled_read {cache cache' : SchemaCache} {className : String}
    {loaded : Outcome ClassSchema} {nowMs : Nat} {schema : ClassSchema}
    (h : cache.read className loaded nowMs = (.ok schema, cache')) :
    cache'.Settled className nowMs := by
  have hwaited (cache : SchemaCache) {id : Nat} {started : Bool} {entered : SchemaCache}
      (hentered : cache.enter className = (id, started, entered)) :
      (if started then entered.complete id loaded nowMs else entered).slots.lookup className =
        some id := by
    have hslot := (lookup_enter cache className).1
    rw [hentered] at hslot
    split <;> exact hslot
  unfold read at h
  split at h
  case isTrue hoff => exact .inl ((Prod.mk.inj h).2 ▸ hoff)
  case isFalse hon =>
    rw [readWithin] at h
    rcases hentered : cache.enter className with ⟨id, started, entered⟩
    have hslot := hwaited cache hentered
    have httl : (if started then entered.complete id loaded nowMs else entered).ttlMs =
        cache.ttlMs := by
      have httl := (lookup_enter cache className).2
      rw [hentered] at httl
      split <;> exact httl
    rw [hentered] at h
    simp only at h
    revert h hslot httl
    generalize (if started then entered.complete id loaded nowMs else entered) = waited
    intro h hslot httl
    rcases hverdict : waited.conclude className id nowMs with _ | ⟨outcome | _, concluded⟩
    · -- the load is still in flight, and the reader has made one of its own
      simp only [hverdict, Prod.mk.injEq] at h
      obtain ⟨-, rfl⟩ := h
      refine .inr ⟨id, hslot, fun verdict again hagain => ?_⟩
      exact absurd (hverdict.symm.trans hagain) (by simp)
    · simp only [hverdict, Prod.mk.injEq] at h
      obtain ⟨rfl, rfl⟩ := h
      exact settled_of_conclude hslot hverdict
    · -- an expired load makes room for a new one, which does not expire at once
      obtain ⟨hnone, httl'⟩ := lookup_of_expired hslot hverdict
      have hon' : concluded.ttlMs ≠ 0 := by
        rw [httl', httl]
        exact hon
      simp only [hverdict, readWithin] at h
      obtain ⟨again, hagain⟩ := conclude_complete_enter hnone hon' loaded nowMs
      have hstarted : (concluded.enter className).2.1 = true := by
        rw [enter, hnone]
      rcases hentered' : concluded.enter className with ⟨id', started', entered'⟩
      have hslot' := hwaited concluded hentered'
      rw [hentered'] at h hagain hstarted
      simp only at hagain hstarted
      subst hstarted
      simp only [if_true] at h hslot'
      rw [hagain] at h
      simp only [Prod.mk.injEq] at h
      obtain ⟨rfl, rfl⟩ := h
      exact settled_of_conclude hslot' hagain

end SchemaCache

/-! ### Schemas in a quiet world -/

namespace Action

variable {α β : Type} {cache : SchemaCache} {w : World}

theorem runIn_ofStore (work : StoreAction α) (cache : SchemaCache) (w : World) :
    (ofStore work).runIn cache w = ((work.outcomeIn w, cache), (work.run.run w).2) :=
  Program.run_bind work.run _ w

theorem runIn_get_bind (f : SchemaCache → Action β) :
    (get >>= f).runIn cache w = (f cache).runIn cache w := rfl

/-- The time is the same until something waits. -/
theorem runIn_now_bind (f : Instant → Action β) :
    ((liftM now : Action Instant) >>= f).runIn cache w = (f w.now).runIn cache w := rfl

/-- What a load comes to does not depend on the books. -/
theorem outcomeIn_load {v : World} (hquiet : w.store.Quiet) (h : w.Rests v) (className : String) :
    (load className).outcomeIn v = (load className).outcomeIn w :=
  (Catalog.reads_require className v w
    ⟨fun name _ => (h.store.collection name).symm, hquiet.rests h.store, hquiet⟩).1

/-- **A schema read through the cache** is a step of the cache. -/
theorem runIn_schemaWithin (hquiet : w.store.Quiet) (className : String) (tries : Nat) :
    ∃ v, w.Rests v ∧ (schemaWithin className tries).runIn cache w =
      (SchemaCache.readWithin className ((load className).outcomeIn w) w.now.toMs tries cache,
        v) := by
  have hload (cache : SchemaCache) {w : World} (hquiet : w.store.Quiet) :
      ∃ v, w.Rests v ∧ (ofStore (load className)).runIn cache w =
        (((load className).outcomeIn w, cache), v) :=
    ⟨_, (Catalog.reads_require className w w (hquiet.agree _)).2.1, runIn_ofStore _ _ _⟩
  induction tries generalizing cache w with
  | zero => exact hload cache hquiet
  | succ tries ih =>
    -- the reader takes what the load came to, or starts over
    have htail (id : Nat) (waited : SchemaCache) {v : World} (hv : w.Rests v) :
        ∃ u, w.Rests u ∧
          Action.runIn (do
            let t ← now
            match (← get).conclude className id t.toMs with
            | some (.answer outcome, cache) =>
              set cache
              outcome
            | some (.expired, cache) =>
              set cache
              schemaWithin className tries
            | none => load className : Action ClassSchema) waited v =
          (match waited.conclude className id w.now.toMs with
            | some (.answer outcome, concluded) => (outcome, concluded)
            | some (.expired, concluded) =>
              SchemaCache.readWithin className ((load className).outcomeIn w) w.now.toMs tries
                concluded
            | none => ((load className).outcomeIn w, waited), u) := by
      rw [runIn_now_bind, runIn_get_bind, hv.now]
      rcases hconclude : waited.conclude className id w.now.toMs with _ | ⟨outcome | _, concluded⟩
      · obtain ⟨u, hu, hrun⟩ := hload waited (hquiet.rests hv.store)
        rw [outcomeIn_load hquiet hv] at hrun
        exact ⟨u, hv.trans hu, hrun⟩
      · exact ⟨v, hv, rfl⟩
      · obtain ⟨u, hu, hrun⟩ := @ih concluded v (hquiet.rests hv.store)
        rw [outcomeIn_load hquiet hv, hv.now] at hrun
        exact ⟨u, hv.trans hu, hrun⟩
    rw [schemaWithin, runIn_get_bind, SchemaCache.readWithin]
    rcases cache.enter className with ⟨id, started, entered⟩
    cases started with
    | false => exact htail id entered (.refl w)
    | true =>
      have hv := (Catalog.reads_require className w w (hquiet.agree _)).2.1
      obtain ⟨u, hu, htail⟩ :=
        htail id (entered.complete id ((load className).outcomeIn w) w.now.toMs) hv
      have hmade : (ExceptT.mk (do return .ok (← (load className).run)) :
          StoreAction (Outcome ClassSchema)).run.run w =
            (.ok ((load className).outcomeIn w), ((load className).run.run w).2) :=
        Program.run_bind (load className).run _ w
      refine ⟨u, hu, Eq.trans ?_ htail⟩
      change Action.runIn (ofStore _ >>= _) entered w = _
      rw [runIn_bind, runIn_ofStore, StoreAction.outcomeIn, hmade]
      change Action.runIn ((liftM now : Action Instant) >>= _) entered _ = _
      have hnow : World.now ((load className).run.run w).2 = w.now := hv.now
      rw [runIn_now_bind, hnow]
      rfl

/-- **A schema read in a quiet world** is a step of the cache. -/
theorem runIn_schema (hquiet : w.store.Quiet) (className : String) (cache : SchemaCache) :
    ∃ v, w.Rests v ∧ (schema className).runIn cache w =
      (cache.read className ((load className).outcomeIn w) w.now.toMs, v) := by
  unfold schema SchemaCache.read
  rw [runIn_get_bind]
  split
  · exact ⟨_, (Catalog.reads_require className w w (hquiet.agree _)).2.1, runIn_ofStore _ _ _⟩
  · exact runIn_schemaWithin hquiet className 2

end Action

end ObjectEngine
