import ObjectEngine.Proofs.Engine.Ensures
import ObjectEngine.Proofs.Engine.Permission
import ObjectEngine.Proofs.Schema.Cache

/-!
# Work that only reads

Before the engine writes or answers anything it reads: the schema of the class, through the
cache, and the edges of the relations that a filter speaks of. This file says what that work
guarantees under any invariant that depends on the content of the store alone
(`Store.Stable`).

The schema of a class is known to be one of that class if the cache held only such schemas
(`Action.ensures_schema`), and a filter is planned within the permission it was given
(`Engine.ensures_scopedFilter`).
-/

namespace ObjectEngine

/-- An invariant of the content of the store. -/
def Store.Stable (I : Store → Prop) : Prop := ∀ s t, Store.SameContent s t → I s → I t

/-- An invariant that queries keep. -/
def Store.KeptByFinds (I : Store → Prop) : Prop :=
  ∀ s name sel, I s → I (s.run (.find name sel none)).store

theorem Store.Stable.keptByFinds {I : Store → Prop} (hI : Store.Stable I) : Store.KeptByFinds I :=
  fun s name sel => hI s _ (Store.sameContent_find s name sel none)

variable {I : Store → Prop} {J : SchemaCache → Prop}

namespace StoreAction

/-- **A call** keeps what it keeps when it succeeds, since it changes nothing when it fails. -/
theorem ensures_of_done (hI : Store.Stable I) {c : Store.Call} {Q : c.Answer → Prop}
    (h : ∀ s a t, I s → Store.Done s c a t → I t ∧ Q a) :
    StoreAction.Ensures I Q (Program.call c) := by
  refine Ensures.call fun s hs => ?_
  cases hrun : (s.run c).outcome with
  | error e => exact ⟨hI s _ (Store.run_error hrun) hs, nofun⟩
  | ok a =>
    obtain ⟨hkept, hanswer⟩ := h s a _ hs (Store.run_ok hrun)
    exact ⟨hkept, fun b hb => Except.ok.inj hb ▸ hanswer⟩

/-- **A query** answers what it finds in a store with the invariant. -/
theorem ensures_find (hI : Store.Stable I) (name : String) (sel : Selection)
    (session : Option SessionId) :
    StoreAction.Ensures I (fun rs : List Record => ∃ s, I s ∧ (s.query name sel).1 = .ok rs)
      (Program.call (.find name sel session)) :=
  Ensures.call fun s hs => ⟨hI s _ (Store.sameContent_find s name sel session) hs,
    fun _ hrun => ⟨s, hs, (Store.run_ok hrun).answers⟩⟩

/-- A query keeps what queries keep. -/
theorem ensures_found (hI : Store.KeptByFinds I) (name : String) (sel : Selection) :
    StoreAction.Ensures I (fun _ => True) (Program.call (.find name sel none)) :=
  Ensures.call fun s hs => ⟨hI s name sel hs, fun _ _ => trivial⟩

theorem ensures_count (hI : Store.Stable I) (name : String) (p : Predicate) (limit : Option Nat)
    (session : Option SessionId) :
    StoreAction.Ensures I (fun _ => True) (Program.call (.count name p limit session)) :=
  Ensures.call fun s hs => ⟨hI s _ (Store.sameContent_count s name p limit session) hs,
    fun _ _ => trivial⟩

end StoreAction

namespace Join

theorem ensures_relatedIds (hI : Store.KeptByFinds I) (className field : String)
    (ownerIds : List String) :
    (relatedIds className field ownerIds).Ensures I fun _ => True :=
  .bind (StoreAction.ensures_found hI _ _) fun _ _ => .pure trivial

theorem ensures_ownersOf (hI : Store.KeptByFinds I) (className field relatedId : String) :
    (ownersOf className field relatedId).Ensures I fun _ => True :=
  .bind (StoreAction.ensures_found hI _ _) fun _ _ => .pure trivial

end Join

/-! ### Schemas -/

namespace Catalog

theorem readMember_className {schema schema' : ClassSchema} {key : String} {d : Datum}
    (h : readMember schema key d = .ok schema') : schema'.className = schema.className := by
  unfold readMember at h
  split at h
  · rw [Except.ok.inj h]
  · split at h
    · split at h
      · refine Outcome.foldlM_induction (P := fun s => s.className = schema.className) h rfl
          fun s hs m _ s' hs' => ?_
        obtain ⟨index, -, hs'⟩ := Outcome.bind_eq_ok.1 hs'
        rw [← Except.ok.inj hs']
        exact hs
      · rw [Except.ok.inj h]
    · obtain ⟨ty, -, h⟩ := Outcome.bind_eq_ok.1 h
      rw [← Except.ok.inj h]
    · exact absurd h (by simp)

/-- A schema read from a record is that of the class in its id, which has a valid name. -/
theorem ofRecord_className {record : Record} {schema : ClassSchema}
    (h : ofRecord record = .ok schema) :
    record.id? = some schema.className ∧ isClassName schema.className = true := by
  obtain ⟨className, hid, h⟩ := Outcome.bind_eq_ok.1 h
  have hrecord : record.id? = some className := Outcome.ofOption_eq_ok.1 hid
  cases hvalid : isClassName className with
  | false => simp [ClassSchema.create, hvalid, bind, Except.bind, throw, throwThe,
      MonadExceptOf.throw] at h
  | true =>
    simp only [ClassSchema.create, hvalid, if_true] at h
    have hclass : schema.className = className :=
      Outcome.foldlM_induction (P := fun s => s.className = className) h rfl
        fun s hs m _ s' hs' => (readMember_className hs').trans hs
    rw [hclass]
    exact ⟨hrecord, hvalid⟩

/-- A record found by an id has that id, if it has one. -/
theorem id?_of_byId {r : Record} {id id' : String}
    (h : ((Predicate.byId id).eval none r).1 = .ok true) (hid : r.id? = some id') : id' = id := by
  have hkey : Text.split '.' Record.idKey = [Record.idKey] := rfl
  obtain ⟨d, hd, hnames⟩ := (Predicate.eval_key_eq hkey).1 h
  obtain rfl : .string id' = d := Option.some.inj ((Record.lookup_of_string? hid).symm.trans hd)
  exact hnames

/-- **A loaded schema** is that of the class asked for, which has a valid name. -/
theorem ensures_require (hI : Store.Stable I) (className : String) :
    (require className).Ensures I fun schema =>
      schema.className = className ∧ isClassName className = true := by
  refine .bind (Q := fun schema? => ∀ schema, schema? = some schema →
    schema.className = className ∧ isClassName className = true) ?_ fun schema? hschema => ?_
  · refine .bind (StoreAction.ensures_find hI _ _ _) fun rs hrs => ?_
    obtain ⟨s, -, hquery⟩ := hrs
    obtain ⟨found, rfl, hfound⟩ := Store.exists_found hquery
    cases found with
    | nil => exact .pure nofun
    | cons r rest =>
      refine .bind (StoreAction.Ensures.outcome fun schema hschema => hschema)
        fun schema hread => ?_
      refine .pure fun schema' h => ?_
      obtain rfl : schema = schema' := Option.some.inj h
      obtain ⟨hid, hvalid⟩ := ofRecord_className hread
      obtain rfl := id?_of_byId (hfound r List.mem_cons_self).2 hid
      exact ⟨rfl, hvalid⟩
  · cases schema? with
    | none => exact .throw
    | some schema => exact .pure (hschema schema rfl)

end Catalog

/-! ### Cached schemas -/

namespace SchemaCache

/-- **A faithful cache** keeps, for each class, a load of its own, and the schemas loaded are
those of the classes. -/
structure Faithful (cache : SchemaCache) : Prop where
  known (className : String) (id : Nat) :
    cache.slots.lookup className = some id → id < cache.nextLoad
  apart (className other : String) (id : Nat) :
    cache.slots.lookup className = some id → cache.slots.lookup other = some id → className = other
  loaded (className : String) (id : Nat) (schema : ClassSchema) (atMs : Nat) :
    cache.slots.lookup className = some id → cache.load? id = some (.loaded schema atMs) →
      schema.className = className ∧ isClassName className = true

/-- A cache without loads is faithful. -/
theorem faithful_empty (ttlMs : Nat) : Faithful { ttlMs } where
  known _ _ h := by simp at h
  apart _ _ _ h := by simp at h
  loaded _ _ _ _ h := by simp at h

/-- What a reader of a class knows of the load it waits for. -/
structure Awaits (className : String) (id : Nat) (cache : SchemaCache) : Prop where
  faithful : cache.Faithful
  known : id < cache.nextLoad
  slot (other : String) : cache.slots.lookup other = some id → other = className
  loaded (schema : ClassSchema) (atMs : Nat) :
    cache.load? id = some (.loaded schema atMs) →
      schema.className = className ∧ isClassName className = true

theorem Faithful.awaits_enter {cache : SchemaCache} (h : cache.Faithful) (className : String) :
    (cache.enter className).2.2.Awaits className (cache.enter className).1 := by
  unfold enter
  cases hslot : cache.slots.lookup className with
  | some id =>
    exact ⟨h, h.known _ _ hslot, fun other hother => h.apart _ _ _ hother hslot,
      fun schema atMs => h.loaded _ _ _ _ hslot⟩
  | none =>
    -- the new load has the next number, which no slot had before
    have hnew {other : String} {id : Nat}
        (hother : (Members.insert className cache.nextLoad cache.slots).lookup other = some id) :
        other = className ∧ id = cache.nextLoad ∨
          cache.slots.lookup other = some id ∧ id < cache.nextLoad := by
      rw [Members.lookup_insert] at hother
      split at hother
      case isTrue he => exact .inl ⟨he, (Option.some.inj hother).symm⟩
      case isFalse => exact .inr ⟨hother, h.known _ _ hother⟩
    have hload {id : Nat} (hid : id < cache.nextLoad) :
        List.lookup id ((cache.nextLoad, .inFlight) :: cache.loads) = cache.load? id := by
      rw [List.lookup_cons, beq_eq_false_iff_ne.2 (Nat.ne_of_lt hid)]
      rfl
    have hfaithful : Faithful { cache with
        slots := Members.insert className cache.nextLoad cache.slots
        loads := (cache.nextLoad, .inFlight) :: cache.loads
        nextLoad := cache.nextLoad + 1 } := by
      refine ⟨fun other id hother => ?_, fun one other id hone hother => ?_,
        fun other id schema atMs hother hloaded => ?_⟩
      · rcases hnew hother with ⟨-, rfl⟩ | ⟨-, hid⟩
        · exact Nat.lt_succ_self _
        · exact Nat.lt_succ_of_lt hid
      · rcases hnew hone with ⟨rfl, rfl⟩ | ⟨hone, hid⟩
        · rcases hnew hother with ⟨rfl, -⟩ | ⟨-, hid⟩
          · rfl
          · exact absurd hid (Nat.lt_irrefl _)
        · rcases hnew hother with ⟨rfl, rfl⟩ | ⟨hother, -⟩
          · exact absurd hid (Nat.lt_irrefl _)
          · exact h.apart _ _ _ hone hother
      · rcases hnew hother with ⟨-, rfl⟩ | ⟨hother, hid⟩
        · exact absurd hloaded (by simp [load?])
        · exact h.loaded _ _ _ _ hother ((hload hid).symm.trans hloaded)
    refine ⟨hfaithful, Nat.lt_succ_self _, fun other hother => ?_, fun schema atMs hloaded => ?_⟩
    · rcases hnew hother with ⟨rfl, -⟩ | ⟨-, hid⟩
      · rfl
      · exact absurd hid (Nat.lt_irrefl _)
    · exact absurd hloaded (by simp [load?])

theorem Awaits.complete {cache : SchemaCache} {className : String} {id : Nat}
    (h : cache.Awaits className id) {outcome : Outcome ClassSchema}
    (houtcome : ∀ schema, outcome = .ok schema →
      schema.className = className ∧ isClassName className = true) (nowMs : Nat) :
    (cache.complete id outcome nowMs).Awaits className id := by
  have hloaded {schema : ClassSchema} {atMs : Nat}
      (hload : (cache.complete id outcome nowMs).load? id = some (.loaded schema atMs)) :
      schema.className = className ∧ isClassName className = true := by
    rw [load?_complete, if_pos rfl] at hload
    obtain ⟨_, -, hload⟩ := Option.map_eq_some_iff.1 hload
    cases outcome with
    | ok schema' =>
      obtain ⟨rfl, -⟩ := Load.loaded.inj hload
      exact houtcome _ rfl
    | error e => exact absurd hload (by simp [Load.over])
  refine ⟨⟨h.faithful.known, h.faithful.apart, fun other k schema atMs hslot hload => ?_⟩,
    h.known, h.slot, fun schema atMs hload => hloaded hload⟩
  by_cases hk : k = id
  · subst hk
    obtain rfl := h.slot other hslot
    exact hloaded hload
  · rw [load?_complete, if_neg hk] at hload
    exact h.faithful.loaded _ _ _ _ hslot hload

theorem Faithful.invalidate {cache : SchemaCache} (h : cache.Faithful) (className : String) :
    (cache.invalidate className).Faithful := by
  have hold {other : String} {k : Nat}
      (hother : (Members.erase className cache.slots).lookup other = some k) :
      cache.slots.lookup other = some k := by
    rw [Members.lookup_erase] at hother
    split at hother
    · exact absurd hother (by simp)
    · exact hother
  exact ⟨fun other k hother => h.known _ _ (hold hother),
    fun one other k hone hother => h.apart _ _ _ (hold hone) (hold hother),
    fun other k schema atMs hother hload => h.loaded _ _ _ _ (hold hother) hload⟩

theorem Faithful.evict {cache : SchemaCache} (h : cache.Faithful) (className : String)
    (id : Nat) : (cache.evict className id).Faithful := by
  unfold SchemaCache.evict
  split
  · exact h.invalidate className
  · exact h

theorem Awaits.conclude {cache cache' : SchemaCache} {className : String} {id nowMs : Nat}
    {verdict : Verdict} (h : cache.Awaits className id)
    (hconclude : cache.conclude className id nowMs = some (verdict, cache')) :
    cache'.Faithful ∧ ∀ schema, verdict = .answer (.ok schema) →
      schema.className = className ∧ isClassName className = true := by
  unfold SchemaCache.conclude at hconclude
  cases hload : cache.load? id with
  | none => simp [hload] at hconclude
  | some load =>
    cases load with
    | inFlight => simp [hload] at hconclude
    | failed e =>
      simp only [hload, Option.some.injEq, Prod.mk.injEq] at hconclude
      obtain ⟨rfl, rfl⟩ := hconclude
      exact ⟨h.faithful.evict _ _, fun schema hs => by simp at hs⟩
    | loaded schema atMs =>
      simp only [hload] at hconclude
      split at hconclude
      · obtain ⟨rfl, rfl⟩ := Prod.mk.inj (Option.some.inj hconclude)
        refine ⟨h.faithful, fun schema' hs => ?_⟩
        obtain rfl : schema = schema' := by simpa using hs
        exact h.loaded _ _ hload
      · obtain ⟨rfl, rfl⟩ := Prod.mk.inj (Option.some.inj hconclude)
        exact ⟨h.faithful.evict _ _, nofun⟩

end SchemaCache

namespace Action

theorem ensures_now (I : Store → Prop) : StoreAction.Ensures I (fun _ => True) now :=
  .lift (.request fun _ hw => ⟨hw, trivial⟩)

theorem ensures_newId (I : Store → Prop) : StoreAction.Ensures I (fun _ => True) newId :=
  .lift (.request fun _ hw => ⟨hw, trivial⟩)

/-- **What a reader of a schema knows** of the load that it waits for, as an invariant `K` of the
cache from the time it enters to the time it concludes. -/
structure Waits (J : SchemaCache → Prop) (P : ClassSchema → Prop) (className : String)
    (K : Nat → SchemaCache → Prop) : Prop where
  enter (cache : SchemaCache) : J cache → K (cache.enter className).1 (cache.enter className).2.2
  keeps (id : Nat) (cache : SchemaCache) : K id cache → J cache
  complete (id : Nat) (cache : SchemaCache) (outcome : Outcome ClassSchema) (nowMs : Nat) :
    K id cache → (∀ schema, outcome = .ok schema → P schema) →
      K id (cache.complete id outcome nowMs)
  conclude (id : Nat) (cache : SchemaCache) (nowMs : Nat) (verdict : SchemaCache.Verdict)
    (cache' : SchemaCache) : K id cache →
      cache.conclude className id nowMs = some (verdict, cache') →
        J cache' ∧ ∀ schema, verdict = .answer (.ok schema) → P schema

section

variable {P : ClassSchema → Prop} {K : Nat → SchemaCache → Prop} {className : String}
  (hwaits : Waits J P className K) (hload : (load className).Ensures I P)

include hwaits hload

/-- The reader takes what the load came to, or starts over. -/
theorem ensures_conclude {tries : Nat} (hagain : (schemaWithin className tries).Ensures I J P)
    {id : Nat} {cache : SchemaCache} (hK : K id cache) :
    EnsuresFrom I J P cache (do
      let t ← now
      match (← get).conclude className id t.toMs with
      | some (.answer outcome, cache) =>
        set cache
        outcome
      | some (.expired, cache) =>
        set cache
        schemaWithin className tries
      | none => load className) := by
  have hcache := hwaits.keeps id cache hK
  refine .lift_bind hcache (ensures_now I) fun t _ => .get_bind ?_
  rcases hverdict : cache.conclude className id t.toMs with _ | ⟨outcome | _, cache'⟩
  -- a load that is gone, or not over yet, is made again past the cache
  · exact Ensures.lift hload cache hcache
  · obtain ⟨hJ, hP⟩ := hwaits.conclude _ _ _ _ _ hK hverdict
    exact .set_bind (Ensures.outcome (fun schema h => hP schema (by rw [h])) cache' hJ)
  · obtain ⟨hJ, -⟩ := hwaits.conclude _ _ _ _ _ hK hverdict
    exact .set_bind (hagain cache' hJ)

/-- **A reader of a schema** gets what a load gives, or what the cache kept of one. -/
theorem ensures_schemaWithin (tries : Nat) : (schemaWithin className tries).Ensures I J P := by
  induction tries with
  | zero => exact .lift hload
  | succ tries ih =>
    intro cache hcache
    have hK := hwaits.enter cache hcache
    refine .get_bind ?_
    rcases hentered : cache.enter className with ⟨id, started, cache'⟩
    rw [hentered] at hK
    refine .set_bind ?_
    -- a load is started by the first reader, and the others wait for it
    cases started with
    | false => exact ensures_conclude hwaits hload ih hK
    | true =>
      refine .ofStore_bind (Q := fun outcome => ∀ schema, outcome = .ok schema → P schema)
        (hwaits.keeps _ _ hK) (Program.Ensures.bind hload fun r hr => ?_) fun outcome houtcome => ?_
      · exact StoreAction.Ensures.pure hr
      · refine .lift_bind (hwaits.keeps _ _ hK) (ensures_now I) fun t _ => .modify_bind ?_
        exact ensures_conclude hwaits hload ih (hwaits.complete _ _ _ _ hK houtcome)

theorem ensures_schema_of_waits : (schema className).Ensures I J P := by
  intro cache hcache
  refine .get_bind ?_
  split
  · exact Ensures.lift hload cache hcache
  · exact ensures_schemaWithin hwaits hload 2 cache hcache

end

/-- **The schema of a class**, read through a faithful cache. -/
theorem ensures_schema (hI : Store.Stable I) (className : String) :
    (schema className).Ensures I SchemaCache.Faithful fun schema =>
      schema.className = className ∧ isClassName className = true := by
  refine ensures_schema_of_waits (K := SchemaCache.Awaits className) ?_
    (Catalog.ensures_require hI className)
  exact ⟨fun cache h => h.awaits_enter className, fun _ _ h => h.faithful,
    fun _ _ _ nowMs h houtcome => h.complete houtcome nowMs,
    fun _ _ _ _ _ h hconclude => h.conclude hconclude⟩

/-- A schema read through any cache. -/
theorem ensures_schema_of_finds (hI : Store.KeptByFinds I) (className : String) :
    (schema className).Ensures I (fun _ => True) fun _ => True := by
  have hload : (load className).Ensures I fun _ => True := by
    refine .bind (Q := fun _ => True) (.bind (StoreAction.ensures_found hI _ _) fun rs _ => ?_)
      fun schema? _ => ?_
    · cases rs with
      | nil => exact .pure trivial
      | cons r rest =>
        exact .bind (Q := fun _ => True) (.outcome fun _ _ => trivial) fun _ _ => .pure trivial
    · cases schema? with
      | none => exact .throw
      | some schema => exact .pure trivial
  exact ensures_schema_of_waits (K := fun _ _ => True)
    ⟨fun _ _ => trivial, fun _ _ _ => trivial, fun _ _ _ _ _ _ => trivial,
      fun _ _ _ _ _ _ _ => ⟨trivial, fun _ _ => trivial⟩⟩ hload

theorem ensures_schema_any (hI : Store.Stable I) (className : String) :
    (schema className).Ensures I (fun _ => True) fun _ => True :=
  ensures_schema_of_finds hI.keptByFinds className

end Action

/-! ### Filters -/

namespace Engine

mutual

/-- Sets of ids in place of relation constraints ask for no equality up to case. -/
theorem folds_substitute (schema : ClassSchema) (found : List (RelationLookup × List String))
    (f : Filter) : (substitute found f).folds schema = f.folds schema := by
  cases f with
  | and parts => exact anyFolds_substituteAll schema found parts
  | or parts => exact anyFolds_substituteAll schema found parts
  | field path c =>
    rw [substitute.eq_def]
    simp only
    split
    case h_1 ids hids =>
      cases c with
      | relationContains p => rfl
      | _ => exact absurd hids (by simp [lookupOf?])
    case h_2 => rfl
  | _ =>
    rw [substitute.eq_def]
    simp only
    split <;> rfl

theorem anyFolds_substituteAll (schema : ClassSchema)
    (found : List (RelationLookup × List String)) (parts : List Filter) :
    Filter.anyFolds schema (substituteAll found parts) = Filter.anyFolds schema parts := by
  cases parts with
  | nil => rfl
  | cons f rest =>
    rw [substituteAll, Filter.anyFolds, Filter.anyFolds, folds_substitute schema found f,
      anyFolds_substituteAll schema found rest]

end

theorem ensures_lookUp (hI : Store.KeptByFinds I) (className : String) (l : RelationLookup) :
    (lookUp className l).Ensures I fun _ => True := by
  cases l with
  | containing field relatedId => exact Join.ensures_ownersOf hI _ _ _
  | members owner key =>
    exact .bind (Join.ensures_relatedIds hI _ _ _) fun _ _ => .pure trivial

theorem ensures_reduceRelations_of_finds (hI : Store.KeptByFinds I) (schema : ClassSchema)
    (f : Filter) :
    (reduceRelations schema f).Ensures I fun reduced => ∃ found, reduced = substitute found f := by
  refine .bind (Q := fun _ => True) ?_ fun found _ => .pure ⟨found, rfl⟩
  refine .mono (fun _ _ => trivial) ((StoreAction.judgement I).mapM (R := fun _ => True) ?_)
  exact fun l _ => .bind (ensures_lookUp hI _ l) fun _ _ => .pure trivial

theorem ensures_reduceRelations (hI : Store.Stable I) (schema : ClassSchema) (f : Filter) :
    (reduceRelations schema f).Ensures I fun reduced => ∃ found, reduced = substitute found f :=
  ensures_reduceRelations_of_finds hI.keptByFinds schema f

/-- **A scoped filter** is the plan of the filter, its relations looked up, beside the
permission. -/
theorem ensures_scopedFilter_of_finds (hI : Store.KeptByFinds I) (config : Config)
    (caller : Caller) (schema : ClassSchema) (permKey : String) (f : Filter) :
    (scopedFilter config caller schema permKey f).Ensures I fun p => ∃ found planned,
      Plan.filter { schema with indexes := [] } (policy config caller) (substitute found f) =
        .ok planned ∧ p = planned.filter.both (Plan.permission permKey caller) := by
  refine .bind (ensures_reduceRelations_of_finds hI schema f) fun reduced hreduced => ?_
  obtain ⟨found, rfl⟩ := hreduced
  exact .bind (StoreAction.Ensures.outcome fun _ h => h) fun planned hplanned =>
    .pure ⟨found, planned, hplanned, rfl⟩

theorem ensures_scopedFilter_eq (hI : Store.Stable I) (config : Config) (caller : Caller)
    (schema : ClassSchema) (permKey : String) (f : Filter) :
    (scopedFilter config caller schema permKey f).Ensures I fun p => ∃ found planned,
      Plan.filter { schema with indexes := [] } (policy config caller) (substitute found f) =
        .ok planned ∧ p = planned.filter.both (Plan.permission permKey caller) :=
  ensures_scopedFilter_of_finds hI.keptByFinds config caller schema permKey f

/-- **A scoped filter stays within its permission**: it holds of no record that does not admit
the caller. -/
theorem ensures_scopedFilter (hI : Store.Stable I) (config : Config) (caller : Caller)
    (schema : ClassSchema) {permKey : String} (hkey : Text.split '.' permKey = [permKey])
    (f : Filter) :
    (scopedFilter config caller schema permKey f).Ensures I fun p =>
      ∀ r, (p.eval none r).1 = .ok true → r.Admits permKey caller := by
  refine .mono (fun p hp => ?_) (ensures_scopedFilter_eq hI config caller schema permKey f)
  obtain ⟨found, planned, -, rfl⟩ := hp
  exact fun r hr => Predicate.admits_of_eval_both hkey hr

end Engine

end ObjectEngine
