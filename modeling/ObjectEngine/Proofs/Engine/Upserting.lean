import ObjectEngine.Proofs.Engine.Accumulating
import ObjectEngine.Proofs.Engine.Serving

/-!
# Upserts one after another

A caller with privilege upserts again and again by one filter, which asks for values of whole
fields, and with operators that count (`Engine.Repeats`). Where nothing satisfies the filter the
first call inserts a record that does (`Engine.Repeats.first`), and every other call finds this
record and no other, and adds to its sums (`Engine.Repeats.next`).

So the calls create exactly one record, which has what the first of them set on insertion and the
sums of what all of them add (`Engine.writeAll_upserts`). It has to be whole fields, since an
insertion does not take up a value that is below a field: `Engine.not_writeAll_upserts_below` is a
world where the second call inserts another record.
-/

namespace ObjectEngine

open Stored (keyPath)

/-! ### Stores where nothing is found -/

namespace Store

variable {name id : String} {p : Predicate} {s t : Store}

/-- **A collection lacks** what a predicate asks for: nothing satisfies it, no index stands in the
way of an insertion, and the id that it would get is free. -/
structure Lacks (name id : String) (p : Predicate) (s : Store) : Prop where
  unrestricted : Unrestricted (s.collection name)
  sorted : (s.collection name).records.Sorted
  unsatisfied : ∀ m ∈ (s.collection name).records, (p.eval none m.2).1 ≠ .ok true
  free : s.record? name id = none

namespace Lacks

variable (h : s.Lacks name id p) (hp : p.Equates)

include h hp

theorem eval_eq_false {m : String × Record} (hm : m ∈ (s.collection name).records) :
    (p.eval none m.2).1 = .ok false := by
  obtain ⟨b, hb⟩ := hp.exists_eval none m.2
  cases b with
  | false => exact hb
  | true => exact absurd hb (h.unsatisfied m hm)

/-- Nothing is found. -/
theorem matchingIds (ht : Rests s t) :
    Store.matchingIds true p (t.collection name).records = .ok [] := by
  rw [ht.collection]
  exact matchingIds_eq_nil fun m hm => h.eval_eq_false hp hm

/-- **The one record that has been put in** is found. -/
theorem matchingIds_of_touches {r : Record} (ht : Touches name id s (some r) t)
    (hr : (p.eval none r).1 = .ok true) :
    Store.matchingIds true p (t.collection name).records = .ok [id] := by
  refine matchingIds_eq_singleton ht.record? hr fun m hm hne => ?_
  have hlookup : t.record? name m.1 = some m.2 := (ht.sorted h.sorted).lookup_of_mem hm
  rw [ht.others m.1 hne] at hlookup
  exact h.eval_eq_false hp (Members.mem_of_lookup hlookup)

end Lacks

/-- What a record that was put in leaves of the collection. -/
theorem Touches.unrestricted {r? : Option Record} (ht : Touches name id s r? t)
    (h : Unrestricted (s.collection name)) : Unrestricted (t.collection name) := by
  rw [Unrestricted, ht.indexes]
  exact h

/-- **The records** are those that there were and the one that has been put in. -/
theorem Touches.records_eq {r : Record} (ht : Touches name id s (some r) t)
    (hsorted : (s.collection name).records.Sorted) :
    (t.collection name).records = Members.insert id r (s.collection name).records := by
  refine (ht.sorted hsorted).ext (Members.sorted_insert hsorted _ _) fun k => ?_
  rw [Members.lookup_insert]
  split
  case isTrue hk => exact hk ▸ ht.record?
  case isFalse hk => exact ht.others k hk

end Store

namespace Engine

/-- The calls of a caller that upsert by a filter, one for each update. -/
def upserts (caller : Caller) (className : String) (f : Filter) (calls : List UpdateMap) :
    List (Caller × WriteCall) :=
  calls.map fun ops => (caller, .one (.upsert className f ops))

/-- An upsert by itself comes to what it leaves. -/
theorem writeAll_upserts_cons (config : Config) (caller : Caller) (className : String) (f : Filter)
    (ops : UpdateMap) (calls : List UpdateMap) (cache : SchemaCache) (w : World) :
    writeAll config (upserts caller className f (ops :: calls)) (cache, w) =
      writeAll config (upserts caller className f calls)
        ((upsert config caller className f ops).stateIn cache w) :=
  congrArg (writeAll config (upserts caller className f calls)) (Action.stateIn_map _ _)

/-- **Upserts by one filter**: a caller with privilege asks for values of whole fields, with
updates that count. -/
structure Repeats (config : Config) (caller : Caller) (schema : ClassSchema)
    (wanted : Members Value) (f : Filter) (scope : Plan.FilterPlan) (calls : List UpdateMap) :
    Prop where
  privileged : caller.privileged = true
  asks : f.Asks wanted
  whole : WholeFields wanted
  planned : Plan.filter { schema with indexes := [] } (policy config caller) f = .ok scope
  series : Plan.Series schema caller wanted calls

/-- **A state after some upserts**: there is one record more, in which they have accumulated. -/
structure Accumulates (className : String) (schema : ClassSchema) (caller : Caller) (p : Predicate)
    (id : String) (s : Store) (done : List UpdateMap) (state : SchemaCache × World) : Prop where
  serves : Serves className schema state
  record : ∃ r, Store.Touches className id s (some r) state.2.store ∧
    Plan.Accumulated schema caller p id done r

namespace Repeats

variable {config : Config} {caller : Caller} {className : String} {schema : ClassSchema}
  {wanted : Members Value} {f : Filter} {scope : Plan.FilterPlan} {calls : List UpdateMap}
  {cache : SchemaCache} {w : World} {id : String}

section

variable (h : Repeats config caller schema wanted f scope calls)

include h

theorem compares : Plan.Compares schema caller wanted scope.filter :=
  have hcompares : Plan.Compares { schema with indexes := [] } caller wanted scope.filter :=
    Plan.compares_filter h.asks (fun _ hm => h.whole.dot_not_mem hm) h.planned
  ⟨hcompares.equates, hcompares.operand⟩

/-- The filter asks for no id. -/
theorem seed_id : scope.filter.seed.lookup Record.idKey = none :=
  Predicate.lookup_seed_eq_none fun x hx heq =>
    (h.compares.apart_stampKeys h.whole hx (show Record.idKey ∈ Stored.stampKeys by decide)).1
      (heq ▸ List.prefix_refl _)

/-- Each of the calls is a simple upsert. -/
theorem simple {ops : UpdateMap} (hops : ops ∈ calls) :
    SimpleUpsert config caller schema wanted f scope ops :=
  ⟨h.privileged, h.asks, h.planned, h.seed_id, h.series.counts ops hops,
    h.series.accepted ops hops⟩

end

/-- **The first call** puts a record in. -/
theorem first {ops : UpdateMap} {rest : List UpdateMap}
    (h : Repeats config caller schema wanted f scope (ops :: rest))
    (hserves : Serves className schema (cache, w))
    (hlacks : w.store.Lacks className (World.objectId w.nextObject) scope.filter) :
    Accumulates className schema caller scope.filter (World.objectId w.nextObject) w.store [ops]
      ((upsert config caller className f ops).stateIn cache w) := by
  obtain ⟨r, hr, haccumulated⟩ := @Plan.accumulated_insert schema caller wanted scope.filter rest
    ops (World.objectId w.nextObject) h.series h.compares h.whole w.now
  have hid : r.id? = some (World.objectId w.nextObject) := by
    rw [Record.id?, Record.string?, haccumulated.id]
    rfl
  obtain ⟨cache', v, hstate, htouches, hserves'⟩ :=
    hserves.stateIn_upsert (h.simple List.mem_cons_self) fun s hs => by
      have hunrestricted : Store.Unrestricted (s.collection className) := by
        rw [hs.collection]
        exact hlacks.unrestricted
      have hfree : s.record? className (World.objectId w.nextObject) = none := by
        rw [Store.record?, hs.collection]
        exact hlacks.free
      exact ((hserves.quiet.rests hs).run_upsert_insert hunrestricted
        (hlacks.matchingIds h.compares.equates hs) hr hid hfree).2
  exact hstate ▸ ⟨hserves', r, htouches, haccumulated⟩

/-- **Every other call** updates that record. -/
theorem next {done rest : List UpdateMap} {ops : UpdateMap}
    (h : Repeats config caller schema wanted f scope (done ++ ops :: rest)) (hdone : done ≠ [])
    {s : Store} (hlacks : s.Lacks className id scope.filter)
    (hstate : Accumulates className schema caller scope.filter id s done (cache, w)) :
    Accumulates className schema caller scope.filter id s (done ++ [ops])
      ((upsert config caller className f ops).stateIn cache w) := by
  have hops : ops ∈ done ++ ops :: rest := List.mem_append_right _ List.mem_cons_self
  obtain ⟨r, htouches, haccumulated⟩ := hstate.record
  obtain ⟨r', hr', haccumulated'⟩ :=
    haccumulated.update h.series h.compares h.whole rfl hdone w.now (World.objectId w.nextObject)
  have heval := h.compares.eval h.whole haccumulated.wanted
  obtain ⟨cache', v, hrun, htouches', hserves'⟩ :=
    hstate.serves.stateIn_upsert (h.simple hops) fun t ht => by
      have hkept := htouches.rests ht
      exact ((hstate.serves.quiet.rests ht).run_upsert_one (hkept.unrestricted hlacks.unrestricted)
        (hlacks.matchingIds_of_touches h.compares.equates hkept heval) hkept.record? hr').2
  exact hrun ▸ ⟨hserves', r', htouches.trans htouches', haccumulated'⟩

/-- **The run**: the calls one after another. -/
theorem accumulates_writeAll {done : List UpdateMap} (hdone : done ≠ [])
    {rest : List UpdateMap} (h : Repeats config caller schema wanted f scope (done ++ rest))
    {s : Store} (hlacks : s.Lacks className id scope.filter) {state : SchemaCache × World}
    (hstate : Accumulates className schema caller scope.filter id s done state) :
    Accumulates className schema caller scope.filter id s (done ++ rest)
      (writeAll config (upserts caller className f rest) state) := by
  induction rest generalizing done state with
  | nil => exact (List.append_nil done).symm ▸ hstate
  | cons ops rest ih =>
    obtain ⟨cache, w⟩ := state
    rw [writeAll_upserts_cons]
    have hcalls : done ++ ops :: rest = done ++ [ops] ++ rest := by simp
    rw [hcalls]
    exact ih (by simp) (hcalls ▸ h) (h.next hdone hlacks hstate)

end Repeats

/-- **One record more than there was**: it satisfies the predicate, has the values that the first
update sets on insertion and the sums of the integers that all of them add, and nothing else has
changed. -/
structure CreatesOne (className : String) (schema : ClassSchema) (caller : Caller) (p : Predicate)
    (calls : List UpdateMap) (s t : Store) (id : String) (r : Record) : Prop where
  records : (t.collection className).records.Perm ((id, r) :: (s.collection className).records)
  others : ∀ name, name ≠ className → t.collection name = s.collection name
  satisfied : (p.eval none r).1 = .ok true
  inserted : ∀ first ∈ calls.head?, ∀ path v, (path, .setOnInsert v) ∈ first →
    ∃ target d, Plan.resolve schema caller path = .ok target ∧
      Plan.setValue target path v = .ok d ∧ r.get? (keyPath schema path) = some d
  summed : ∀ ops ∈ calls, ∀ path n, (path, .increment (.int n)) ∈ ops → ∃ sum : Int64,
    sum.toInt = Plan.total path calls ∧ r.get? (keyPath schema path) = some (.int sum)

/-- **Upserts by one filter create exactly one record** where nothing satisfies it. -/
theorem writeAll_upserts {config : Config} {caller : Caller} {className : String}
    {schema : ClassSchema} {wanted : Members Value} {f : Filter} {scope : Plan.FilterPlan}
    {calls : List UpdateMap} (h : Repeats config caller schema wanted f scope calls)
    (hcalls : calls ≠ []) {cache : SchemaCache} {w : World}
    (hserves : Serves className schema (cache, w))
    (hlacks : w.store.Lacks className (World.objectId w.nextObject) scope.filter) :
    ∃ r, CreatesOne className schema caller scope.filter calls w.store
      (writeAll config (upserts caller className f calls) (cache, w)).2.store
      (World.objectId w.nextObject) r := by
  obtain ⟨first, rest, rfl⟩ := List.exists_cons_of_ne_nil hcalls
  have hrun : Accumulates className schema caller scope.filter (World.objectId w.nextObject)
      w.store (first :: rest)
      (writeAll config (upserts caller className f (first :: rest)) (cache, w)) := by
    rw [writeAll_upserts_cons]
    exact @Repeats.accumulates_writeAll config caller className schema wanted f scope _ [first]
      (by simp) rest h w.store hlacks _ (h.first hserves hlacks)
  obtain ⟨r, htouches, haccumulated⟩ := hrun.record
  refine ⟨r, ?_, htouches.other, h.compares.eval h.whole haccumulated.wanted, ?_,
    haccumulated.inc⟩
  · rw [htouches.records_eq hlacks.sorted]
    refine Members.insert_perm (fun m hm heq => ?_) r
    have hlookup := hlacks.sorted.lookup_of_mem hm
    rw [heq] at hlookup
    exact absurd (hlacks.free.symm.trans hlookup) (by simp)
  · rintro _ ⟨⟩ path v hop
    obtain ⟨d, hd, target, htarget, hvalue⟩ :=
      h.series.exists_mem_setOnInsert List.mem_cons_self hop
    exact ⟨target, d, htarget, hvalue,
      haccumulated.setOnInsert first rfl (keyPath schema path, d) hd⟩

/-! ### A world to upsert in -/

/-- A world with a class that has no objects. -/
def untallied : World where
  store := { collections := [
    ("_SCHEMA", { records := [("N", [("_id", .string "N"), ("meta", .string "object"),
      ("n", .string "number"), ("name", .string "string"), ("owner", .string "*N"),
      ("tags", .string "array")])] })] }

/-- The schema of that class. -/
def untalliedSchema : ClassSchema :=
  ((Action.load "N").outcomeIn untallied).toOption.getD default

theorem serves_untallied : Serves "N" untalliedSchema ({ ttlMs := 5000 }, untallied) where
  quiet := Store.quiet_of_nil rfl
  load := by
    have hsome : ((Action.load "N").outcomeIn untallied).toOption.isSome = true := by
      decide +kernel
    obtain ⟨schema, hschema⟩ := Option.isSome_iff_exists.1 hsome
    rw [untalliedSchema, hschema]
    exact Outcome.toOption_eq_some.1 hschema
  cache := SchemaCache.serves_of_lookup_none rfl _

theorem lacks_untallied (id : String) (p : Predicate) : untallied.store.Lacks "N" id p where
  unrestricted := List.forall_mem_nil _
  sorted := List.Pairwise.nil
  unsatisfied := List.forall_mem_nil _
  free := rfl

/-- A caller with privilege. -/
def keeper : Caller := { privileged := true }

/-- Two updates that set a note on insertion and add to a number. -/
def tallying : List UpdateMap :=
  [[("meta.note", .setOnInsert (.string "first")), ("n", .increment (.int 2))],
    [("meta.note", .setOnInsert (.string "second")), ("n", .increment (.int 3))]]

theorem series_tallying {wanted : Members Value}
    (hwanted : ∀ n ∈ wanted, Text.Apart "meta.note" n.1 ∧ Text.Apart "n" n.1) :
    Plan.Series untalliedSchema keeper wanted tallying where
  counts := by
    simp only [tallying, List.forall_mem_cons]
    exact ⟨⟨.setOnInsert _, .increment _, List.forall_mem_nil _⟩,
      ⟨.setOnInsert _, .increment _, List.forall_mem_nil _⟩, List.forall_mem_nil _⟩
  accepted ops hops := by
    have hsome : ∀ ops ∈ tallying,
        (Plan.update untalliedSchema keeper ops).toOption.isSome = true := by decide +kernel
    obtain ⟨out, hout⟩ := Option.isSome_iff_exists.1 (hsome ops hops)
    exact ⟨out, Outcome.toOption_eq_some.1 hout⟩
  nodup := by decide
  notReserved := by decide
  apart := by
    simp only [tallying, List.forall_mem_cons]
    have hnote := fun n hn => (hwanted n hn).1
    have hnumber := fun n hn => (hwanted n hn).2
    exact ⟨⟨hnote, hnumber, List.forall_mem_nil _⟩, ⟨hnote, hnumber, List.forall_mem_nil _⟩,
      List.forall_mem_nil _⟩
  alike := by decide
  fits path k := by
    by_cases hpath : path = "n"
    · subst hpath
      obtain _ | _ | k := k <;> simp [tallying] <;> decide
    · -- nothing is added anywhere else
      rw [Plan.total_eq_zero fun ops hops n hop => ?_]
      · rfl
      · have hmem := List.mem_of_mem_take hops
        simp only [tallying, List.mem_cons, List.not_mem_nil, or_false] at hmem
        rcases hmem with rfl | rfl <;> simp [hpath] at hop

/-- A filter that asks for a name. -/
def named : Filter := .field "name" (.equals (.string "a"))

theorem writeAll_upserts_untallied : ∃ scope,
    Repeats {} keeper untalliedSchema [("name", .string "a")] named scope tallying ∧
      tallying ≠ [] ∧ Serves "N" untalliedSchema ({ ttlMs := 5000 }, untallied) ∧
      untallied.store.Lacks "N" (World.objectId untallied.nextObject) scope.filter ∧
      ∃ r, CreatesOne "N" untalliedSchema keeper scope.filter tallying untallied.store
        (writeAll {} (upserts keeper "N" named tallying) ({ ttlMs := 5000 }, untallied)).2.store
        (World.objectId untallied.nextObject) r := by
  have hsome : (Plan.filter { untalliedSchema with indexes := [] } (policy {} keeper)
      named).toOption.isSome = true := by decide +kernel
  obtain ⟨scope, hscope⟩ := Option.isSome_iff_exists.1 hsome
  have hrepeats : Repeats {} keeper untalliedSchema [("name", .string "a")] named scope tallying :=
    { privileged := rfl
      asks := .field List.mem_cons_self
      whole :=
        { isName := by decide
          notDefault := by decide
          nodup := by decide
          nanFree := List.forall_mem_singleton.2 trivial }
      planned := Outcome.toOption_eq_some.1 hscope
      series := series_tallying (by decide) }
  exact ⟨scope, hrepeats, by decide, serves_untallied, lacks_untallied _ _,
    writeAll_upserts hrepeats (by decide) serves_untallied (lacks_untallied _ _)⟩

/-- A filter that asks for a value below a field. -/
def noted : Filter := .field "meta.a" (.equals (.int 1))

/-- What upserts by a filter leave of the world. -/
def untalliedAfter (f : Filter) (calls : List UpdateMap) : Store :=
  (writeAll {} (upserts keeper "N" f calls) ({ ttlMs := 5000 }, untallied)).2.store

/-- **Upserts that do not accumulate**: an insertion does not take up a value below a field, so that
the second upsert finds nothing and inserts another record. Neither does the second find a value
with NaN in it, nor a pointer that an operator writes over under its key; a filter with a value of
another type is refused; a time that is set on insertion is stamped over; and an integer that the
first upsert sets and the second adds to does not stay. -/
theorem not_writeAll_upserts_below :
    (¬∀ (config : Config) (caller : Caller) (className : String) (schema : ClassSchema)
      (wanted : Members Value) (f : Filter) (scope : Plan.FilterPlan) (calls : List UpdateMap)
      (cache : SchemaCache) (w : World), caller.privileged = true → f.Asks wanted →
      (Members.keys wanted).Pairwise Text.Apart →
      (∀ m ∈ wanted, isFieldName (Text.root m.1) = true ∧ Text.root m.1 ∉ defaultFields ∧
        m.2 ≠ .null ∧ m.2.NaNFree) →
      Plan.filter { schema with indexes := [] } (policy config caller) f = .ok scope →
      Plan.Series schema caller wanted calls → calls ≠ [] →
      Serves className schema (cache, w) →
      w.store.Lacks className (World.objectId w.nextObject) scope.filter →
      ∃ r, CreatesOne className schema caller scope.filter calls w.store
        (writeAll config (upserts caller className f calls) (cache, w)).2.store
        (World.objectId w.nextObject) r) ∧
    ((untalliedAfter (.field "tags" (.equals (.array [.float .nan]))) tallying).collection
      "N").records.length = 2 ∧
    ((untalliedAfter (.field "owner" (.equals (.pointer ⟨"N", "a"⟩)))
      (List.replicate 2 [("_p_owner", .setOnInsert (.string "a"))])).collection
        "N").records.length = 2 ∧
    ((untalliedAfter (.field "name" (.equals (.int 1))) tallying).collection
      "N").records.length = 0 ∧
    ((untalliedAfter named [[(Stored.createdAtKey, .setOnInsert (.string "first"))]]).record? "N"
      "x000000000").map (·.string? Stored.createdAtKey) = some none ∧
    ((untalliedAfter named [[("n", .setOnInsert (.int 5))], [("n", .increment (.int 1))]]).record?
      "N" "x000000000").map (fun r => (r.lookup "n").map (Datum.equalUnder none (.int 6))) =
        some (some true) := by
  refine ⟨fun h => ?_, by decide +kernel, by decide +kernel, by decide +kernel, by decide +kernel,
    by decide +kernel⟩
  have hsome : (Plan.filter { untalliedSchema with indexes := [] } (policy {} keeper)
      noted).toOption.isSome = true := by decide +kernel
  obtain ⟨scope, hscope⟩ := Option.isSome_iff_exists.1 hsome
  have htwo : ((untalliedAfter noted tallying).collection "N").records.length = 2 := by
    decide +kernel
  obtain ⟨r, hr⟩ := h {} keeper "N" untalliedSchema [("meta.a", .int 1)] noted scope tallying
    { ttlMs := 5000 } untallied rfl (.field List.mem_cons_self) (by decide)
    (List.forall_mem_singleton.2 ⟨by decide, by decide, by simp, trivial⟩)
    (Outcome.toOption_eq_some.1 hscope) (series_tallying (by decide)) (by decide)
    serves_untallied (lacks_untallied _ _)
  have hone : ((untalliedAfter noted tallying).collection "N").records.length = 1 :=
    hr.records.length_eq
  exact absurd (hone.symm.trans htwo) (by decide)

end Engine

end ObjectEngine
