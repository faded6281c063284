import ObjectEngine.Proofs.Engine.Recording
import ObjectEngine.Proofs.Engine.Soundness

/-!
# Coherence of cached schemas across failures

Calls that change or read classes take turns on one engine (`Engine.Turn`), with any time between
them and any faults set up before each of their calls to the store. At rest, the cache is coherent
for a class if the schema that it gives out of it is the one that the store has
(`Engine.Coherent`).

A change of a class is recorded by one call to the store, which is done or not done at all, and what
the cache holds of the class is dropped right after (`Action.KeepsCurrent`). Only to delete fields
does more in between. So coherence is kept by every turn but one: a call that fails when it has
removed the fields from the schema and has not dropped what is cached (`Engine.Turn.Strands`). A run
stays coherent for a class just if no turn strands it (`Engine.coherent_iff_not_strands`).
-/

namespace ObjectEngine

/-! ### What a cache holds -/

namespace SchemaCache

variable {cache cache' : SchemaCache} {className other : String} {schema : ClassSchema}
  {s t : Store}

/-- **A cache holds a schema** of a class: there is a time at which it gives it out. -/
def Holds (cache : SchemaCache) (className : String) (schema : ClassSchema) : Prop :=
  ∃ nowMs, cache.peek? className nowMs = some schema

theorem holds_iff : cache.Holds className schema ↔
    0 < cache.ttlMs ∧ ∃ id atMs, cache.slots.lookup className = some id ∧
      cache.load? id = some (.loaded schema atMs) := by
  constructor
  · rintro ⟨nowMs, hpeek⟩
    obtain ⟨id, atMs, hslot, hload, hvalid⟩ := peek?_eq_some.1 hpeek
    exact ⟨by omega, id, atMs, hslot, hload⟩
  · rintro ⟨httl, id, atMs, hslot, hload⟩
    exact ⟨atMs, peek?_eq_some.2 ⟨id, atMs, hslot, hload, by omega⟩⟩

/-- **What a cache holds of a class** has a property. -/
structure HoldsOnly (cache : SchemaCache) (className : String) (P : ClassSchema → Prop) : Prop where
  faithful : cache.Faithful
  held (schema : ClassSchema) : cache.Holds className schema → P schema

/-- A cache that has not been used holds nothing. -/
theorem holdsOnly_empty (ttlMs : Nat) (className : String) (P : ClassSchema → Prop) :
    HoldsOnly { ttlMs } className P :=
  ⟨faithful_empty ttlMs, fun schema hholds => by
    obtain ⟨-, id, atMs, hslot, hload⟩ := holds_iff.1 hholds
    simp at hslot⟩

/-- Loads that are dropped are not held. -/
theorem Holds.of_apply {change : SchemaChange} (h : (cache.apply change).Holds className schema) :
    change.concerns className = false ∧ cache.Holds className schema := by
  obtain ⟨httl, id, atMs, hslot, hload⟩ := holds_iff.1 h
  rw [lookup_apply] at hslot
  obtain ⟨hloads, -, hsame⟩ := loads_apply cache change
  rw [load?, hloads] at hload
  cases hc : change.concerns className with
  | true => simp [hc] at hslot
  | false =>
    rw [hc, if_neg (by simp)] at hslot
    exact ⟨rfl, holds_iff.2 ⟨hsame ▸ httl, id, atMs, hslot, hload⟩⟩

theorem HoldsOnly.apply {P : ClassSchema → Prop} (h : cache.HoldsOnly className P)
    (change : SchemaChange) : (cache.apply change).HoldsOnly className P where
  faithful := h.faithful.apply change
  held schema hholds := h.held schema hholds.of_apply.2

/-- What a read of a class may answer, if a property is all that is known of the class `watched`. -/
structure AnswerOnly (watched : String) (P : ClassSchema → Prop) (className : String)
    (schema : ClassSchema) : Prop where
  named : schema.className = className ∧ isClassName className = true
  held : className = watched → P schema

/-- **What a reader of a class knows**, in a cache of which a property is known for a class: if it
is that class, the load that it waits for has loaded what has the property. -/
structure AwaitsOnly (watched : String) (P : ClassSchema → Prop) (className : String) (id : Nat)
    (cache : SchemaCache) : Prop where
  awaits : cache.Awaits className id
  only : cache.HoldsOnly watched P
  loaded (schema : ClassSchema) (atMs : Nat) : className = watched → 0 < cache.ttlMs →
    cache.load? id = some (.loaded schema atMs) → P schema

section

variable {watched : String} {id : Nat} {P : ClassSchema → Prop}

theorem HoldsOnly.awaits_enter (h : cache.HoldsOnly watched P) (className : String) :
    AwaitsOnly watched P className (cache.enter className).1 (cache.enter className).2.2 := by
  have hawaits := h.faithful.awaits_enter className
  rcases hentered : cache.enter className with ⟨id, started, entered⟩
  rw [hentered] at hawaits
  cases started with
  | false =>
    obtain ⟨hslot, rfl⟩ := enter_eq_false.1 hentered
    refine ⟨hawaits, h, fun schema atMs hwatched httl hload => ?_⟩
    subst hwatched
    exact h.held schema (holds_iff.2 ⟨httl, id, atMs, hslot, hload⟩)
  | true =>
    obtain ⟨-, rfl, rfl⟩ := enter_eq_true.1 hentered
    refine ⟨hawaits, ⟨hawaits.faithful, fun schema hholds => ?_⟩, fun _ _ _ _ hload => ?_⟩
    · -- the load that begins is in flight, and the other loads are as before
      obtain ⟨httl, id, atMs, hslot, hload⟩ := holds_iff.1 hholds
      by_cases hid : id = cache.nextLoad
      · subst hid
        simp [load?] at hload
      · rw [Members.lookup_insert] at hslot
        split at hslot
        · exact absurd (Option.some.inj hslot).symm hid
        · rw [load?, List.lookup_cons, beq_eq_false_iff_ne.2 hid] at hload
          exact h.held schema (holds_iff.2 ⟨httl, id, atMs, hslot, hload⟩)
    · simp [load?] at hload

theorem AwaitsOnly.complete (h : AwaitsOnly watched P className id cache)
    {outcome : Outcome ClassSchema}
    (houtcome : ∀ schema, outcome = .ok schema → AnswerOnly watched P className schema)
    (nowMs : Nat) : AwaitsOnly watched P className id (cache.complete id outcome nowMs) := by
  have hawaits := h.awaits.complete (fun schema hok => (houtcome schema hok).named) nowMs
  have hloaded {schema : ClassSchema} {atMs : Nat} (hwatched : className = watched)
      (hload : (cache.complete id outcome nowMs).load? id = some (.loaded schema atMs)) :
      P schema := by
    rw [load?_complete, if_pos rfl] at hload
    obtain ⟨_, -, hload⟩ := Option.map_eq_some_iff.1 hload
    cases outcome with
    | ok schema' =>
      obtain ⟨rfl, -⟩ := Load.loaded.inj hload
      exact (houtcome _ rfl).held hwatched
    | error e => exact absurd hload (by simp [Load.over])
  refine ⟨hawaits, ⟨hawaits.faithful, fun schema hholds => ?_⟩,
    fun schema atMs hwatched _ => hloaded hwatched⟩
  obtain ⟨httl, k, atMs, hslot, hload⟩ := holds_iff.1 hholds
  by_cases hk : k = id
  · subst hk
    exact hloaded (h.awaits.slot watched hslot).symm hload
  · rw [load?_complete, if_neg hk] at hload
    exact h.only.held schema (holds_iff.2 ⟨httl, k, atMs, hslot, hload⟩)

theorem AwaitsOnly.conclude (h : AwaitsOnly watched P className id cache) {nowMs : Nat}
    {verdict : Verdict} (hconclude : cache.conclude className id nowMs = some (verdict, cache')) :
    cache'.HoldsOnly watched P ∧
      ∀ schema, verdict = .answer (.ok schema) → AnswerOnly watched P className schema := by
  obtain ⟨hfaithful, hclass⟩ := h.awaits.conclude hconclude
  obtain ⟨hloads, -, hsame, hslots⟩ := conclude_frame hconclude
  refine ⟨⟨hfaithful, fun schema hholds => ?_⟩,
    fun schema hverdict => ⟨hclass schema hverdict, fun hwatched => ?_⟩⟩
  · obtain ⟨httl, k, atMs, hslot, hload⟩ := holds_iff.1 hholds
    rw [load?, hloads] at hload
    exact h.only.held schema (holds_iff.2 ⟨hsame ▸ httl, k, atMs, hslots hslot, hload⟩)
  · rcases conclude_eq_some.1 hconclude with
      ⟨read, ms, hload, hvalid, rfl, -⟩ | ⟨_, _, -, -, rfl, -⟩ | ⟨e, -, rfl, -⟩
    · obtain rfl : read = schema := by simpa using hverdict
      exact h.loaded read ms hwatched (by omega) hload
    · exact absurd hverdict (by simp)
    · exact absurd hverdict (by simp)

end

end SchemaCache

/-- **The schema of a class** is read, from a cache of which a property is known, where the loads
have it. -/
theorem Action.ensures_schema_only {I : Store → Prop} {watched className : String}
    {P : ClassSchema → Prop} (hread : (Action.load className).Ensures I
      (SchemaCache.AnswerOnly watched P className)) :
    (Action.schema className).Ensures I (SchemaCache.HoldsOnly · watched P)
      (SchemaCache.AnswerOnly watched P className) := by
  have hwaits : Action.Waits (SchemaCache.HoldsOnly · watched P)
      (SchemaCache.AnswerOnly watched P className) className
      (SchemaCache.AwaitsOnly watched P className) :=
    ⟨fun _ h => h.awaits_enter className, fun _ _ h => h.only,
      fun _ _ _ nowMs h houtcome => h.complete houtcome nowMs, fun _ _ _ _ _ h => h.conclude⟩
  exact Action.ensures_schema_of_waits hwaits hread

namespace SchemaCache

variable {cache : SchemaCache} {className other : String} {s t : Store}

/-! ### Caches that are current -/

/-- **A cache is current** for a class: what it holds of it is what the records of the store say. -/
structure Current (cache : SchemaCache) (className : String) (s : Store) : Prop where
  faithful : cache.Faithful
  keyed : Catalog.Keyed s
  loaded (schema : ClassSchema) :
    cache.Holds className schema → Catalog.loaded s className = .ok (some schema)

namespace Current

theorem still (h : cache.Current className s) (ht : Catalog.Still s t) :
    cache.Current className t where
  faithful := h.faithful
  keyed := ht.keyed h.keyed
  loaded schema hholds := (ht.loaded_eq className).trans (h.loaded schema hholds)

/-- A change of another class makes no difference. -/
theorem alters (h : cache.Current className s) (ht : Catalog.Alters other s t)
    (hne : className ≠ other) : cache.Current className t where
  faithful := h.faithful
  keyed := ht.keyed
  loaded schema hholds := (ht.loaded_eq hne).trans (h.loaded schema hholds)

/-- New classes make no difference: what the cache holds was in the store. -/
theorem grows (h : cache.Current className s) (ht : Catalog.Grows s t) :
    cache.Current className t where
  faithful := h.faithful
  keyed := ht.keyed
  loaded schema hholds := ht.loaded_eq (h.loaded schema hholds)

end Current

theorem Current.apply (h : cache.Current className s) (change : SchemaChange) :
    (cache.apply change).Current className s where
  faithful := h.faithful.apply change
  keyed := h.keyed
  loaded schema hholds := h.loaded schema hholds.of_apply.2

/-- **A class that is dropped from the cache** may have been changed. -/
theorem Current.renewed (h : cache.Current className s) (ht : Catalog.Alters other s t) :
    (cache.apply (.ofClass other)).Current className t := by
  by_cases hne : className = other
  · refine ⟨h.faithful.apply _, ht.keyed, fun schema hholds => ?_⟩
    have hconcerns := hholds.of_apply.1
    simp [SchemaChange.concerns, hne] at hconcerns
  · exact (h.alters ht hne).apply _

/-- A cache is current if what it holds is what the store has. -/
theorem current_iff (hs : Catalog.Keyed s) (watched : String) (cache : SchemaCache) :
    cache.Current watched s ↔
      cache.HoldsOnly watched fun schema => Catalog.loaded s watched = .ok (some schema) :=
  ⟨fun h => ⟨h.faithful, h.loaded⟩, fun h => ⟨h.faithful, hs, h.held⟩⟩

/-- What a read of a class may answer, if the cache is current for the class `watched`. -/
structure CurrentAnswer (watched : String) (s : Store) (className : String) (schema : ClassSchema) :
    Prop where
  named : schema.className = className ∧ isClassName className = true
  loaded : className = watched → Catalog.loaded s watched = .ok (some schema)

end SchemaCache

/-! ### Work that keeps a cache current -/

namespace Action

open Catalog (Still Alters Grows Changes)

variable {α β : Type} {watched : String} {Q : α → Prop} {R : β → Prop}

/-- **The schema of a class** is read, from a cache that is current. -/
theorem ensures_schema_current {s : Store} (hs : Catalog.Keyed s) (watched className : String) :
    (schema className).Ensures (Still s) (SchemaCache.Current · watched s)
      (SchemaCache.CurrentAnswer watched s className) := by
  have hread : (load className).Ensures (Still s) (SchemaCache.AnswerOnly watched
      (fun schema => Catalog.loaded s watched = .ok (some schema)) className) :=
    .mono (fun schema hloaded => ⟨Catalog.className_of_loaded hs hloaded,
      fun hwatched => hwatched ▸ hloaded⟩) (Catalog.ensures_require_loaded hs className)
  have honly : (schema className).Ensures (Still s) (SchemaCache.HoldsOnly · watched
      fun schema => Catalog.loaded s watched = .ok (some schema))
      (SchemaCache.CurrentAnswer watched s className) :=
    .mono (fun _ h => ⟨h.named, h.held⟩) (ensures_schema_only hread)
  simpa only [SchemaCache.current_iff hs watched] using honly

/-- **Work that keeps a cache current** for a class, wherever it fails, and whose result satisfies
`Q` if it succeeds. -/
def KeepsCurrent (watched : String) (Q : α → Prop) (work : Action α) : Prop :=
  ∀ cache s, SchemaCache.Current cache watched s →
    work.Leaves (fun a cache t => cache.Current watched t ∧ Q a)
      (fun cache t => cache.Current watched t) cache s

namespace KeepsCurrent

theorem mono {Q' : α → Prop} (h : ∀ a, Q a → Q' a) {work : Action α}
    (hwork : work.KeepsCurrent watched Q) : work.KeepsCurrent watched Q' := fun cache s hs =>
  (hwork cache s hs).mono (fun a _ _ ha => ⟨ha.1, h a ha.2⟩) fun _ _ h => h

theorem pure {a : α} (h : Q a) : (Pure.pure a : Action α).KeepsCurrent watched Q :=
  fun _ _ hs => .pure ⟨hs, h⟩

theorem throw {e : EngineError} : (MonadExcept.throw e : Action α).KeepsCurrent watched Q :=
  fun _ _ hs => .throw hs

theorem bind {work : Action α} {f : α → Action β} (hwork : work.KeepsCurrent watched Q)
    (hf : ∀ a, Q a → (f a).KeepsCurrent watched R) :
    (work >>= f).KeepsCurrent watched R := fun cache s hs =>
  .bind ((hwork cache s hs).mono (fun a cache t ha => hf a ha.2 cache t ha.1) fun _ _ h => h)

theorem ite {p : Prop} [Decidable p] {work work' : Action α} (h : p → work.KeepsCurrent watched Q)
    (h' : ¬p → work'.KeepsCurrent watched Q) :
    Action.KeepsCurrent watched Q (if p then work else work') := by
  split
  · exact h ‹p›
  · exact h' ‹¬p›

/-- Work that goes on unless something is refused. -/
theorem guard {p : Prop} [Decidable p] {e : EngineError} {f : α → Action β} {work : Action β}
    (h : work.KeepsCurrent watched R) :
    Action.KeepsCurrent watched R (if p then MonadExcept.throw e >>= f else work) :=
  .ite (fun _ => .bind (Q := fun _ => False) .throw nofun) fun _ => h

/-- Work that may be left out before the rest. -/
theorem when {p : Prop} [Decidable p] {work : Action Unit} {f : Unit → Action β}
    (h : work.KeepsCurrent watched fun _ => True) (hf : ∀ u, (f u).KeepsCurrent watched R) :
    Action.KeepsCurrent watched R (if p then work >>= f else f ()) :=
  .ite (fun _ => .bind h fun u _ => hf u) fun _ => hf ()

theorem outcome (x : Outcome α) : Action.KeepsCurrent watched (fun _ => True) (liftM x) := by
  cases x with
  | ok a => exact .pure trivial
  | error e => exact .throw

theorem tryCatch {work : Action α} {handler : EngineError → Action α}
    (h : work.KeepsCurrent watched Q) (hhandler : ∀ e, (handler e).KeepsCurrent watched Q) :
    (MonadExcept.tryCatch work handler).KeepsCurrent watched Q := fun cache s hs =>
  .tryCatch ((h cache s hs).mono (fun _ _ _ h => h) fun cache t ht e => hhandler e cache t ht)

theorem guarded {config : Config} {work : Action α} (h : work.KeepsCurrent watched Q) :
    Action.KeepsCurrent watched Q (Engine.guarded config work) := fun cache s hs =>
  .guarded (h cache s hs)

/-- Work that leaves the records of schemas alone. -/
theorem reads {work : StoreAction α}
    (h : ∀ s, Catalog.Keyed s → work.Ensures (Still s) fun _ => True) :
    Action.KeepsCurrent watched (fun _ => True) (liftM work) := fun cache s hs =>
  (Leaves.of_ensures (Catalog.ofRecords_still s).stable (J := (· = cache))
    (Ensures.lift (h s hs.keyed)) rfl (.refl s)).mono
    (fun _ _ _ h => ⟨h.2.1 ▸ hs.still h.2.2, trivial⟩) fun _ _ h => h.1 ▸ hs.still h.2

theorem spared {c : Store.Call} (hc : Catalog.Spared c) :
    Action.KeepsCurrent watched (fun _ => True) (liftM (Program.call c)) :=
  .reads fun s _ => Catalog.ensures_spared (Catalog.ofRecords_still s) hc

/-- **A class is added.** -/
theorem createClass (schema : ClassSchema) :
    Action.KeepsCurrent watched (fun _ => True) (liftM (Catalog.createClass schema)) :=
  fun cache s hs =>
  (Leaves.of_ensures (Catalog.ofRecords_grows s).stable (J := (· = cache))
    (Ensures.lift (Catalog.ensures_createClass schema s)) rfl
      ((Still.refl s).grows hs.keyed)).mono
    (fun _ _ _ h => ⟨h.2.1 ▸ hs.grows h.2.2, trivial⟩) fun _ _ h => h.1 ▸ hs.grows h.2

theorem publish (change : SchemaChange) :
    Action.KeepsCurrent watched (fun _ => True) (Action.publish change) := fun _ _ hs =>
  .publish ⟨hs.apply change, trivial⟩

/-- **A class is changed**, and what the cache holds of it is dropped. -/
theorem changes {className : String} {work : StoreAction α} {f : α → Action β}
    (h : Changes className work) (hf : ∀ a, (f a).KeepsCurrent watched R) :
    Action.KeepsCurrent watched R
      (liftM work >>= fun a => Action.publish (.ofClass className) >>= fun _ => f a) := by
  intro cache s hs
  refine .bind (.lift ((h s hs.keyed).mono (fun a t ht => ?_) fun _ ht => hs.still ht))
  exact .publish_bind (hf a _ _ (hs.renewed ht))

/-- **The schema of a class** is read. -/
theorem schema (className : String) :
    Action.KeepsCurrent watched (fun _ => isClassName className = true)
      (Action.schema className) := by
  intro cache s hs
  exact (Leaves.of_ensures (Catalog.ofRecords_still s).stable
    (ensures_schema_current hs.keyed watched className) hs (.refl s)).mono
      (fun _ _ _ h => ⟨h.2.1.still h.2.2, h.1.named.2⟩) fun _ _ h => h.1.still h.2

/-- The judgement of what keeps a cache current. -/
def judgement (watched : String) :
    Judgement (ExceptT EngineError (StateT SchemaCache Program)) where
  holds Q work := KeepsCurrent watched Q work
  mono h := KeepsCurrent.mono h
  ofPure := KeepsCurrent.pure
  bind := KeepsCurrent.bind

end KeepsCurrent

end Action

/-! ### Indexes and deleted fields -/

namespace Indexing

open Action
open Catalog (Alters Still)

variable {watched : String}

theorem keeps_ensureIndex (className : String) (index : IndexDescriptor) :
    (ensureIndex className index).KeepsCurrent watched fun _ => True := by
  refine .bind (.schema className) fun schema _ => .guard (.bind (.outcome _) fun _ _ => ?_)
  refine .bind (.spared (c := .listIndexes className) trivial) fun existing _ => ?_
  split
  · exact .ite (fun _ => .pure trivial) fun _ => .throw
  · refine .bind (.spared (c := .createIndex className (storeIndex schema index)) trivial)
      fun _ _ => ?_
    exact .changes (Catalog.changes_recordIndex className index) fun _ => .pure trivial

theorem keeps_dropIndex (className name : String) :
    (dropIndex className name).KeepsCurrent watched fun _ => True := by
  refine .bind (.spared (c := .listIndexes className) trivial) fun existing _ =>
    .when (.spared (c := .dropIndex className name) trivial) fun _ => ?_
  exact .changes (Catalog.changes_forgetIndex className name) fun _ => .pure trivial

theorem keeps_ensureClass (className : String) :
    (ensureClass className).KeepsCurrent watched fun _ => True := by
  refine .bind (.reads fun s hs => .mono (fun _ _ => trivial) (Catalog.ensures_load hs className))
    fun known _ => .ite (fun _ => ?_) fun _ => .pure trivial
  refine .bind (.outcome _) fun schema _ => ?_
  refine .bind (.tryCatch (.createClass schema) fun e => ?_) fun _ _ => .publish _
  split
  · exact .pure trivial
  · exact .throw

theorem keeps_ensureDefaults (config : DefaultIndexes) :
    (ensureDefaults config).KeepsCurrent watched fun _ => True :=
  .mono (fun _ _ => trivial) ((KeepsCurrent.judgement watched).mapM (R := fun _ => True) fun _ _ =>
    .bind (keeps_ensureClass _) fun _ _ => .bind (keeps_ensureIndex _ _) fun _ _ => .pure trivial)

/-- What is left where deleting the fields of a class stops short: the cache as it was, with the
record of the class changed or not, or a current cache that has dropped the class. -/
def Stopped (watched className : String) (cache : SchemaCache) (s : Store) (cache' : SchemaCache)
    (t : Store) : Prop :=
  cache' = cache ∧ Alters className s t ∨
    cache'.Current watched t ∧ cache'.slots.lookup className = none

/-- **To delete fields** changes the record of the class while the cache is as it was, and then
drops what is cached: the call may fail before that or after it. -/
theorem leaves_deleteFields (className : String) (names : List String) {cache : SchemaCache}
    {s : Store} (h : cache.Current watched s) :
    (deleteFields className names).Leaves (fun _ cache' t => cache'.Current watched t)
      (Stopped watched className cache s) cache s := by
  have hI := (Catalog.ofRecords_alters className s).stable
  -- a stage before the cache is touched
  have hstage {γ : Type} {P : γ → Prop} {work : Action γ} {f : γ → Action ClassSchema} {t : Store}
      (hwork : work.Ensures (Alters className s) (· = cache) P) (ht : Alters className s t)
      (hf : ∀ a u, P a → Alters className s u → (f a).Leaves
        (fun _ cache' t => cache'.Current watched t) (Stopped watched className cache s) cache u) :
      (work >>= f).Leaves (fun _ cache' t => cache'.Current watched t)
        (Stopped watched className cache s) cache t :=
    .ensures_bind hI hwork rfl ht (fun _ _ hc hu => .inl ⟨hc, hu⟩)
      fun a _ u ha hc hu => hc ▸ hf a u ha hu
  have hspared {c : Store.Call} (hc : Catalog.Spared c) :
      Action.Ensures (Alters className s) (· = cache) (fun _ => True) (liftM (Program.call c)) :=
    .lift (Catalog.ensures_spared (Catalog.ofRecords_alters className s) hc)
  refine hstage (.lift (Catalog.ensures_require hI className)) ((Still.refl s).alters h.keyed _)
    fun schema t hschema ht => ?_
  refine hstage (.outcome (Q := fun _ => True) fun _ _ => trivial) ht fun keys t _ ht => ?_
  refine hstage (.lift (Catalog.ensures_removeFields className names s)) ht fun updated t _ ht => ?_
  refine hstage (hspared trivial) ht fun existing t _ ht => ?_
  refine hstage ((Action.judgement _ _).forIn fun index _ => .ite
    (fun _ => .bind (hspared trivial) fun _ _ => .pure trivial) fun _ => .pure trivial) ht
    fun _ t _ ht => ?_
  refine hstage ((Action.judgement _ _).forIn fun entry _ => .ite
    (fun _ => .bind (.lift (Catalog.ensures_edit (Catalog.keepsName_unset className _) s))
      fun _ _ => .pure trivial) fun _ => .pure trivial) ht fun _ t _ ht => ?_
  refine hstage ((Action.judgement _ _).forIn fun name _ => .ite
    (fun _ => .bind (hspared (Join.collection_ne_schemas name className))
      fun _ _ => .pure trivial) fun _ => .pure trivial) ht fun _ t _ ht => ?_
  -- from here on the class is not cached
  have hrest {t : Store} (ht : Alters className s t) : Action.Leaves
      (fun _ cache' t => cache'.Current watched t) (Stopped watched className cache s) (do
      Action.publish (.ofClass className)
      let after ← (Catalog.load className : StoreAction (Option ClassSchema))
      return after.getD updated) cache t := by
    have hcurrent := h.renewed ht
    refine .publish_bind (.ensures_bind (Catalog.ofRecords_still t).stable
      (J := (· = cache.apply (.ofClass className)))
      (.lift (Catalog.ensures_load ht.keyed className)) rfl (.refl t) (fun _ _ hc hu => .inr ?_)
      fun _ _ _ _ hc hu => .pure (hc ▸ hcurrent.still hu))
    subst hc
    refine ⟨hcurrent.still hu, ?_⟩
    rw [SchemaCache.lookup_apply, if_pos (by simp [SchemaChange.concerns])]
  refine .ite (fun _ => hstage (hspared ?_) ht fun _ _ _ hu => hrest hu) fun _ => hrest ht
  exact Catalog.collection_ne_of_isClassName hschema.2

end Indexing

/-! ### Turns -/

namespace Engine

open Action

/-- A call that changes or reads classes. -/
inductive SchemaCall
  | createClass (schema : ClassSchema)
  | addField (className name : String) (ty : FieldType)
  | deleteClass (className : String)
  | ensureIndex (className : String) (index : IndexDescriptor)
  | dropIndex (className name : String)
  | deleteFields (className : String) (names : List String)
  | ensureDefaultIndexes
  | getClass (className : String)
  deriving Inhabited

/-- The work of a call, without its answer. -/
def SchemaCall.work (config : Config) : SchemaCall → Action Unit
  | .createClass schema => do let _ ← Engine.createClass config schema
  | .addField className name ty => do let _ ← Engine.addField config className name ty
  | .deleteClass className => do let _ ← Engine.deleteClass config className
  | .ensureIndex className index => do let _ ← Engine.ensureIndex config className index
  | .dropIndex className name => do let _ ← Engine.dropIndex config className name
  | .deleteFields className names => do let _ ← Engine.deleteFields config className names
  | .ensureDefaultIndexes => do let _ ← Engine.ensureDefaultIndexes config
  | .getClass className => do let _ ← Engine.getClass config className

/-- **A turn**: some time passes, then a call is made, and faults are set up before each of its
requests. -/
structure Turn where
  call : SchemaCall
  afterMs : Nat := 0
  faults : Nat → Program.Disturbance := fun _ faults => faults

namespace Turn

/-- What a turn comes to and leaves. -/
def take (config : Config) (turn : Turn) (state : SchemaCache × World) :
    Outcome Unit × SchemaCache × World :=
  let ((result, _), w) := ((turn.call.work config).run.run state.1).runUnder turn.faults 0
    (state.2.advance turn.afterMs)
  (result.1, result.2, w)

end Turn

/-- What turns leave that are taken in order. -/
def takeAll (config : Config) (turns : List Turn) (state : SchemaCache × World) :
    SchemaCache × World :=
  turns.foldl (fun state turn => (turn.take config state).2) state

/-- **The cache is coherent** for a class: a schema that it gives out, at any time, is the one that
a load would find in the store without faults. -/
def Coherent (className : String) (state : SchemaCache × World) : Prop :=
  ∀ nowMs schema, state.1.peek? className nowMs = some schema →
    Catalog.recorded state.2.store className = .ok (some schema)

/-- **A turn strands a class** if it fails to delete fields of it when the schema in the store is
already another, and leaves the cache with one. -/
structure Turn.Strands (config : Config) (className : String) (turn : Turn)
    (state : SchemaCache × World) : Prop where
  call : ∃ names, turn.call = .deleteFields className names
  failed : ∃ e, (turn.take config state).1 = .error e
  held : ∃ schema, (turn.take config state).2.1.Holds className schema
  changed : Catalog.recorded (turn.take config state).2.2.store className ≠
    Catalog.recorded state.2.store className

section

variable {config : Config} {watched : String}

theorem keeps_createClass (schema : ClassSchema) :
    (createClass config schema).KeepsCurrent watched fun _ => True :=
  .guarded (.bind (.createClass schema) fun _ _ => .bind (.publish _) fun _ _ => .pure trivial)

theorem keeps_addField (className name : String) (ty : FieldType) :
    (addField config className name ty).KeepsCurrent watched fun _ => True :=
  .guarded (.changes (Catalog.changes_addField className name ty) fun _ => .pure trivial)

theorem keeps_deleteClass (className : String) :
    (deleteClass config className).KeepsCurrent watched fun _ => True := by
  refine .guarded (.bind (.schema className) fun schema hvalid => ?_)
  refine .bind (.spared (c := .count className .all none none) trivial) fun objects _ => .guard ?_
  refine .bind ((KeepsCurrent.judgement watched).forIn fun field _ => .bind
    (.spared (c := .drop (Join.collection field.1 className))
      (Join.collection_ne_schemas field.1 className)) fun _ _ => .pure trivial) fun _ _ => ?_
  refine .bind (.spared (c := .drop className) (Catalog.collection_ne_of_isClassName hvalid))
    fun _ _ => ?_
  exact .changes (Catalog.changes_deleteClass className) fun _ => .pure trivial

/-- **Every call but one keeps the cache current** for a class: to delete its fields. -/
theorem keeps_work {call : SchemaCall} (hcall : ∀ names, call ≠ .deleteFields watched names) :
    (call.work config).KeepsCurrent watched fun _ => True := by
  cases call with
  | createClass schema => exact .bind (keeps_createClass schema) fun _ _ => .pure trivial
  | addField className name ty =>
    exact .bind (keeps_addField className name ty) fun _ _ => .pure trivial
  | deleteClass className => exact .bind (keeps_deleteClass className) fun _ _ => .pure trivial
  | ensureIndex className index =>
    exact .bind (.guarded (Indexing.keeps_ensureIndex className index)) fun _ _ => .pure trivial
  | dropIndex className name =>
    exact .bind (.guarded (Indexing.keeps_dropIndex className name)) fun _ _ => .pure trivial
  | ensureDefaultIndexes =>
    exact .bind (.guarded (Indexing.keeps_ensureDefaults config.indexes)) fun _ _ => .pure trivial
  | getClass className => exact .bind (.guarded (.schema className)) fun _ _ => .pure trivial
  | deleteFields className names =>
    have hne : watched ≠ className := fun he => hcall names (he ▸ rfl)
    refine .bind (Q := fun _ => True) (.guarded fun cache s hs => ?_) fun _ _ => .pure trivial
    refine (Indexing.leaves_deleteFields className names hs).mono (fun _ _ _ h => ⟨h, trivial⟩) ?_
    rintro _ t (⟨rfl, ht⟩ | ⟨hcurrent, -⟩)
    · exact hs.alters ht hne
    · exact hcurrent

variable {state : SchemaCache × World} {turn : Turn}

/-- A turn leaves what its call leaves. -/
theorem Turn.ends_take (config : Config) {Q : Unit → SchemaCache → Store → Prop}
    {E : SchemaCache → Store → Prop}
    (h : (turn.call.work config).Leaves Q E state.1 state.2.store) :
    (turn.take config state).1.Ends
      (Q · (turn.take config state).2.1 (turn.take config state).2.2.store)
      (E (turn.take config state).2.1 (turn.take config state).2.2.store) :=
  Program.Leaves.runUnder (w := state.2.advance turn.afterMs) h turn.faults 0

/-- **What a turn leaves** of a cache that is current for a class: one that is current again, or the
one it was while the class has been changed in the store by a call that failed. -/
theorem current_take (config : Config) (h : state.1.Current watched state.2.store) (turn : Turn) :
    (turn.take config state).2.1.Current watched (turn.take config state).2.2.store ∧
        ¬turn.Strands config watched state ∨
      (∃ names, turn.call = .deleteFields watched names) ∧
        (∃ e, (turn.take config state).1 = .error e) ∧
        (turn.take config state).2.1 = state.1 ∧
        Catalog.Keyed (turn.take config state).2.2.store := by
  by_cases hcall : ∃ names, turn.call = .deleteFields watched names
  · obtain ⟨names, hcall⟩ := hcall
    have hleaves : (turn.call.work config).Leaves (fun _ cache t => cache.Current watched t)
        (Indexing.Stopped watched watched state.1 state.2.store) state.1 state.2.store := by
      rw [hcall]
      exact .bind (.mono (fun _ _ _ ht => .pure ht) (fun _ _ ht => ht)
        (.guarded (Indexing.leaves_deleteFields watched names h)))
    have hends := Turn.ends_take config hleaves
    cases houtcome : (turn.take config state).1 with
    | ok a =>
      rw [houtcome] at hends
      refine .inl ⟨hends, fun hstrands => ?_⟩
      obtain ⟨e, he⟩ := hstrands.failed
      exact absurd (houtcome.symm.trans he) (by simp)
    | error e =>
      rw [houtcome] at hends
      rcases hends with ⟨hcache, halters⟩ | ⟨hcurrent, hslot⟩
      · exact .inr ⟨⟨names, hcall⟩, ⟨e, rfl⟩, hcache, halters.keyed⟩
      · refine .inl ⟨hcurrent, fun hstrands => ?_⟩
        obtain ⟨schema, hholds⟩ := hstrands.held
        obtain ⟨-, id, atMs, hid, -⟩ := SchemaCache.holds_iff.1 hholds
        exact absurd (hslot.symm.trans hid) (by simp)
  · have hends := Turn.ends_take config
      (keeps_work (fun names he => hcall ⟨names, he⟩) state.1 state.2.store h)
    refine .inl ⟨?_, fun hstrands => hcall hstrands.call⟩
    cases houtcome : (turn.take config state).1 with
    | ok a =>
      rw [houtcome] at hends
      exact hends.1
    | error e =>
      rw [houtcome] at hends
      exact hends

/-- A current cache is coherent. -/
theorem coherent_of_current (h : state.1.Current watched state.2.store) : Coherent watched state :=
  fun nowMs schema hpeek => (Catalog.recorded_eq_loaded h.keyed watched).trans
    (h.loaded schema ⟨nowMs, hpeek⟩)

/-- **One turn further**: the cache stays current, or it is no longer coherent. -/
theorem current_take_iff (config : Config) (h : state.1.Current watched state.2.store)
    (turn : Turn) :
    (¬turn.Strands config watched state →
      (turn.take config state).2.1.Current watched (turn.take config state).2.2.store) ∧
    (Coherent watched (turn.take config state).2 → ¬turn.Strands config watched state) := by
  rcases current_take config h turn with
    ⟨hcurrent, hstrands⟩ | ⟨hcall, hfailed, hcache, hkeyed⟩
  · exact ⟨fun _ => hcurrent, fun _ => hstrands⟩
  · -- what the cache holds is what the store had before the call
    have hheld {schema : ClassSchema} (hholds : (turn.take config state).2.1.Holds watched schema) :
        Catalog.recorded state.2.store watched = .ok (some schema) :=
      (Catalog.recorded_eq_loaded h.keyed watched).trans (h.loaded schema (hcache ▸ hholds))
    refine ⟨fun hstrands => ⟨hcache ▸ h.faithful, hkeyed, fun schema hholds => ?_⟩,
      fun hcoherent hstrands => ?_⟩
    · have hsame : Catalog.recorded (turn.take config state).2.2.store watched =
          Catalog.recorded state.2.store watched := by
        by_contra hchanged
        exact hstrands ⟨hcall, hfailed, ⟨schema, hholds⟩, hchanged⟩
      rw [← Catalog.recorded_eq_loaded hkeyed, hsame, hheld hholds]
    · obtain ⟨schema, hholds⟩ := hstrands.held
      obtain ⟨nowMs, hpeek⟩ := hholds
      exact hstrands.changed ((hcoherent nowMs schema hpeek).trans (hheld ⟨nowMs, hpeek⟩).symm)

theorem takeAll_append (turns turns' : List Turn) (state : SchemaCache × World) :
    takeAll config (turns ++ turns') state = takeAll config turns' (takeAll config turns state) :=
  List.foldl_append

/-- **Coherence across failures**: from an engine that has cached nothing, and a store whose schemas
are under their names, a run of turns is coherent for a class at every rest just if none of its
turns strands the class. -/
theorem coherent_iff_not_strands (config : Config) {w : World} (hkeyed : Catalog.Keyed w.store)
    (ttlMs : Nat) (turns : List Turn) (className : String) :
    (∀ before later, turns = before ++ later →
        Coherent className (takeAll config before ({ ttlMs }, w))) ↔
      ∀ before turn later, turns = before ++ turn :: later →
        ¬turn.Strands config className (takeAll config before ({ ttlMs }, w)) := by
  have hstart : SchemaCache.Current { ttlMs } className w.store :=
    (SchemaCache.current_iff hkeyed className _).2 (SchemaCache.holdsOnly_empty ttlMs className _)
  -- on both sides the cache is current before every turn, from the first to the last
  have hcurrent (hturns : ∀ before turn later, turns = before ++ turn :: later →
      SchemaCache.Current (takeAll config before ({ ttlMs }, w)).1 className
        (takeAll config before ({ ttlMs }, w)).2.store →
      ¬turn.Strands config className (takeAll config before ({ ttlMs }, w))) :
      ∀ before later, turns = before ++ later →
        SchemaCache.Current (takeAll config before ({ ttlMs }, w)).1 className
          (takeAll config before ({ ttlMs }, w)).2.store := by
    intro before
    induction before using List.reverseRecOn with
    | nil => exact fun _ _ => hstart
    | append_singleton before turn ih =>
      intro later he
      rw [List.append_assoc] at he
      have hbefore := ih _ he
      rw [takeAll_append]
      exact (current_take_iff config hbefore turn).1 (hturns before turn later he hbefore)
  constructor
  · intro hcoherent
    have hnext (before : List Turn) (turn : Turn) (later : List Turn)
        (he : turns = before ++ turn :: later)
        (hbefore : SchemaCache.Current (takeAll config before ({ ttlMs }, w)).1 className
          (takeAll config before ({ ttlMs }, w)).2.store) :
        ¬turn.Strands config className (takeAll config before ({ ttlMs }, w)) := by
      have hafter := hcoherent (before ++ [turn]) later (by simp [he])
      rw [takeAll_append] at hafter
      exact (current_take_iff config hbefore turn).2 hafter
    exact fun before turn later he => hnext before turn later he (hcurrent hnext before _ he)
  · exact fun hstrands before later he => coherent_of_current
      (hcurrent (fun before turn later he _ => hstrands before turn later he) before later he)

end

/-! ### A field that is deleted -/

/-- A class is added, gets a field and is read; then the field is deleted, with a fault set up for
an operation of the store. -/
def deletingUnder (operation : String) : List Turn :=
  [{ call := .createClass Catalog.note },
   { call := .addField "N" "n" .number },
   { call := .getClass "N" },
   { call := .deleteFields "N" ["n"]
     faults := fun _ _ => [⟨operation, .store 91 "shutdown in progress", 1⟩] }]

/-- Where the class cannot even be loaded, nothing is deleted. -/
theorem coherent_iff_not_strands_unread : Catalog.Keyed ({} : World).store ∧
    ∀ before later, deletingUnder "find" = before ++ later →
      Coherent "N" (takeAll {} before ({ ttlMs := 5000 }, {})) := by
  have hkeyed : Catalog.Keyed ({} : World).store := ⟨List.Pairwise.nil, nofun⟩
  refine ⟨hkeyed, (coherent_iff_not_strands {} hkeyed 5000 _ "N").2
    fun before turn later he hstrands => ?_⟩
  obtain ⟨names, hcall⟩ := hstrands.call
  have hlast : before = (deletingUnder "find").take 3 ∧ some turn = (deletingUnder "find")[3]? := by
    match before with
    | [] | [_] | [_, _] =>
      simp only [deletingUnder, List.nil_append, List.cons_append, List.cons.injEq] at he
      simp [← he] at hcall
    | [_, _, _] =>
      simp only [deletingUnder, List.nil_append, List.cons_append, List.cons.injEq] at he
      simp [deletingUnder, he]
    | _ :: _ :: _ :: _ :: _ => simp [deletingUnder] at he
  obtain ⟨rfl, hturn⟩ := hlast
  obtain rfl := Option.some.inj hturn
  exact hstrands.changed (by decide +kernel)

/-- **A cache does not always stay coherent**: where the indexes cannot be listed, the field is gone
from the schema in the store and still in the one that is cached. -/
theorem not_coherent_unlisted :
    ¬∀ (config : Config) (w : World) (ttlMs : Nat) (turns : List Turn) (className : String),
      Catalog.Keyed w.store → 0 < ttlMs →
      Coherent className (takeAll config turns ({ ttlMs }, w)) := by
  intro h
  have hcoherent := h {} {} 5000 (deletingUnder "listIndexes") "N" ⟨List.Pairwise.nil, nofun⟩
    (by decide) 0
  generalize hstate : takeAll {} (deletingUnder "listIndexes") ({ ttlMs := 5000 }, {}) = state
    at hcoherent
  have hcached : (state.1.peek? "N" 0).any (·.hasField "n") = true := by
    rw [← hstate]
    decide +kernel
  have hrecorded : (Catalog.recorded state.2.store "N").toOption.join.any (·.hasField "n") =
      false := by
    rw [← hstate]
    decide +kernel
  obtain ⟨schema, hpeek, hfield⟩ := Option.any_eq_true _ _ |>.1 hcached
  rw [hcoherent schema hpeek] at hrecorded
  exact absurd (hfield.symm.trans hrecorded) (by simp)

end Engine

end ObjectEngine
