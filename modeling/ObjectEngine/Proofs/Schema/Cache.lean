import ObjectEngine.Members.Lemmas
import ObjectEngine.Schema.Cache

/-!
# What the operations of a cache do

One lemma for each operation of `SchemaCache`: what a read finds or begins, what becomes of a load
that ends, what a read makes of it, and which loads are dropped. Everything else about the cache is
left alone (`SchemaCache.conclude_frame`, `SchemaCache.loads_evict`, `SchemaCache.loads_apply`).
-/

namespace ObjectEngine

/-- Whether a change concerns a class. -/
def SchemaChange.concerns : SchemaChange → String → Bool
  | .ofClass name, className => name = className
  | .all, _ => true

namespace SchemaCache

variable {cache cache' : SchemaCache} {className other : String} {id : Nat}

/-- The load that is over with an outcome at some time. -/
def Load.over (nowMs : Nat) : Outcome ClassSchema → Load
  | .ok schema => .loaded schema nowMs
  | .error e => .failed e

/-- The classes whose loads a change drops. -/
def dropped (cache : SchemaCache) (change : SchemaChange) : List String :=
  (Members.keys cache.slots).filter change.concerns

/-- A read finds the load that the cache keeps. -/
theorem enter_eq_false :
    cache.enter className = (id, false, cache') ↔
      cache.slots.lookup className = some id ∧ cache' = cache := by
  unfold enter
  cases cache.slots.lookup className <;> simp [eq_comm]

/-- A read begins a load only if the cache keeps none. -/
theorem enter_eq_true :
    cache.enter className = (id, true, cache') ↔
      cache.slots.lookup className = none ∧ id = cache.nextLoad ∧
        cache' = { cache with
          slots := Members.insert className cache.nextLoad cache.slots
          loads := (cache.nextLoad, .inFlight) :: cache.loads
          nextLoad := cache.nextLoad + 1 } := by
  unfold enter
  cases cache.slots.lookup className <;> simp [eq_comm]

theorem complete_eq (cache : SchemaCache) (id : Nat) (outcome : Outcome ClassSchema)
    (nowMs : Nat) :
    cache.complete id outcome nowMs = { cache with
      loads := cache.loads.map fun l => if l.1 = id then (id, .over nowMs outcome) else l } := by
  cases outcome <;> rfl

/-- Only the load that ends is changed. -/
theorem load?_complete (cache : SchemaCache) (id : Nat) (outcome : Outcome ClassSchema)
    (nowMs k : Nat) :
    (cache.complete id outcome nowMs).load? k =
      if k = id then (cache.load? id).map fun _ => .over nowMs outcome else cache.load? k := by
  rw [complete_eq, load?, load?, load?]
  dsimp only
  induction cache.loads with
  | nil => simp
  | cons l loads ih =>
    obtain ⟨k', load⟩ := l
    by_cases hk' : k' = id
    · subst hk'
      by_cases hk : k = k'
      · simp [hk]
      · simpa [List.lookup_cons, beq_eq_false_iff_ne.2 hk, hk] using ih
    · rw [List.map_cons, if_neg hk', List.lookup_cons, List.lookup_cons, List.lookup_cons, ih,
        beq_eq_false_iff_ne.2 (Ne.symm hk')]
      by_cases hk : k = k'
      · simp [hk, hk']
      · simp [beq_eq_false_iff_ne.2 hk]

theorem lookup_evict (cache : SchemaCache) (className other : String) (id : Nat) :
    (cache.evict className id).slots.lookup other =
      if other = className ∧ cache.slots.lookup className = some id then none
      else cache.slots.lookup other := by
  unfold evict
  split
  · rename_i h
    by_cases ho : other = className <;> simp [Members.lookup_erase, ho, h]
  · rename_i h
    simp [h]

/-- **What a read makes of a load**: a schema that is still valid is the answer, and otherwise
the load is dropped. -/
theorem conclude_eq_some {nowMs : Nat} {verdict : Verdict} :
    cache.conclude className id nowMs = some (verdict, cache') ↔
      (∃ schema ms, cache.load? id = some (.loaded schema ms) ∧ nowMs - ms < cache.ttlMs ∧
        verdict = .answer (.ok schema) ∧ cache' = cache) ∨
      (∃ schema ms, cache.load? id = some (.loaded schema ms) ∧ cache.ttlMs ≤ nowMs - ms ∧
        verdict = .expired ∧ cache' = cache.evict className id) ∨
      ∃ e, cache.load? id = some (.failed e) ∧ verdict = .answer (.error e) ∧
        cache' = cache.evict className id := by
  unfold conclude
  cases hload : cache.load? id with
  | none => simp
  | some load =>
    cases load with
    | inFlight => simp
    | failed e => simp [eq_comm]
    | loaded schema ms =>
      have hloaded {schema' : ClassSchema} {ms' : Nat} :
          some (Load.loaded schema ms) = some (.loaded schema' ms') ↔
            schema' = schema ∧ ms' = ms := by simp [eq_comm]
      by_cases hvalid : nowMs - ms < cache.ttlMs
      · simp [hloaded, isValid, hvalid, and_assoc, eq_comm, Nat.not_le.2 hvalid]
      · simp [hloaded, isValid, hvalid, and_assoc, eq_comm, Nat.not_lt.1 hvalid]

/-- A schema that is peeked at belongs to the load that the cache keeps, and is still valid. -/
theorem peek?_eq_some {nowMs : Nat} {schema : ClassSchema} :
    cache.peek? className nowMs = some schema ↔
      ∃ id ms, cache.slots.lookup className = some id ∧
        cache.load? id = some (.loaded schema ms) ∧ nowMs - ms < cache.ttlMs := by
  unfold peek?
  cases hslot : cache.slots.lookup className with
  | none => simp
  | some id =>
    cases hload : cache.load? id with
    | none => simp [hload]
    | some load =>
      cases load with
      | loaded schema' ms => simp [hload, isValid, and_assoc, and_comm]
      | _ => simp [hload]

/-- A change drops the loads of the classes that it concerns. -/
theorem lookup_apply (cache : SchemaCache) (change : SchemaChange) (className : String) :
    (cache.apply change).slots.lookup className =
      if change.concerns className then none else cache.slots.lookup className := by
  cases change with
  | all => simp [apply, invalidateAll, SchemaChange.concerns]
  | ofClass name =>
    simp [apply, invalidate, SchemaChange.concerns, Members.lookup_erase, eq_comm]

theorem mem_dropped {change : SchemaChange} :
    className ∈ cache.dropped change ↔
      (cache.slots.lookup className).isSome ∧ change.concerns className := by
  unfold dropped
  rw [List.mem_filter]
  refine and_congr_left fun _ => ?_
  unfold Members.keys
  induction cache.slots with
  | nil => simp
  | cons m rest ih =>
    obtain ⟨key, v⟩ := m
    by_cases h : className = key
    · simp [h]
    · simp [List.lookup_cons, beq_eq_false_iff_ne.2 h, h, ih]

/-- A cache whose load is dropped keeps no other in its place. -/
theorem lookup_of_evict {c c' : String} {id id' : Nat}
    (h : (cache.evict c id).slots.lookup c' = some id') : cache.slots.lookup c' = some id' := by
  rw [lookup_evict] at h
  split at h
  · exact nomatch h
  · exact h

theorem loads_evict (cache : SchemaCache) (c : String) (id : Nat) :
    (cache.evict c id).loads = cache.loads ∧ (cache.evict c id).nextLoad = cache.nextLoad ∧
      (cache.evict c id).ttlMs = cache.ttlMs := by
  unfold evict
  split <;> exact ⟨rfl, rfl, rfl⟩

theorem loads_apply (cache : SchemaCache) (change : SchemaChange) :
    (cache.apply change).loads = cache.loads ∧ (cache.apply change).nextLoad = cache.nextLoad ∧
      (cache.apply change).ttlMs = cache.ttlMs := by
  cases change <;> exact ⟨rfl, rfl, rfl⟩

/-- A read that goes on drops at most the load it waited for. -/
theorem conclude_frame {c : String} {id nowMs : Nat} {verdict : Verdict}
    (h : cache.conclude c id nowMs = some (verdict, cache')) :
    cache'.loads = cache.loads ∧ cache'.nextLoad = cache.nextLoad ∧
      cache'.ttlMs = cache.ttlMs ∧
      ∀ {c' id'}, cache'.slots.lookup c' = some id' → cache.slots.lookup c' = some id' := by
  rcases conclude_eq_some.1 h with ⟨_, _, -, -, -, rfl⟩ | ⟨_, _, -, -, -, rfl⟩ | ⟨_, -, -, rfl⟩
  · exact ⟨rfl, rfl, rfl, fun h => h⟩
  all_goals
    obtain ⟨hloads, hnext, httl⟩ := loads_evict cache c id
    exact ⟨hloads, hnext, httl, lookup_of_evict⟩

end SchemaCache

end ObjectEngine
