import ObjectEngine.Proofs.Engine.Granting
import ObjectEngine.Proofs.Engine.Keeping
import ObjectEngine.Proofs.Store.Watching

/-!
# Access lists and their copies

Permission is decided by copies of the access list of an object, its readers and its writers, and
an object without the first is public. The writes of callers keep the three in agreement as long
as no caller names an internal field, in batches and in transactions that are taken back as well
(`Engine.agrees_writeAll`).

There is one exception. An upsert that finds nothing inserts an object that starts from the
equalities of its filter. If one is on the list itself, the object has a list without copies, and
anyone may read and write it, unless the update sets or removes the list
(`Engine.agrees_iff_of_inserted`, `Engine.not_agrees_writeAll_listing`).
-/

namespace ObjectEngine

open Plan (aclKeys)
open Store (Guards)

namespace Write

/-- **A planned write that grants as a whole.** -/
def Grants : Write → Prop
  | .insert _ r => r.Agrees
  | .update _ _ plan _ => plan.edit.Grants
  | .upsert _ p e => e.Grants ∧ ∀ r, e.apply true p.seed = .ok r → r.Agrees
  | .delete .. => True

theorem Grants.allows {w : Write} (h : w.Grants) : Store.access.AllowsWrite w := by
  cases w with
  | insert name r => exact fun session => (Store.Call.grants_insert h).allows
  | update name p plan many =>
    exact fun session =>
      ⟨(Store.Call.grants_update h).allows, (Store.Call.grants_findAndUpdate h).allows⟩
  | upsert name p e => exact fun session => (Store.Call.grants_upsert h.1 h.2).allows
  | delete name p fields => exact fun session => Store.Call.grants_delete.allows

end Write

/-! ### Plans -/

namespace WriteOp

/-- **A write that names no internal field** in what it stores, with values that are ordered. -/
def Plain : WriteOp → Prop
  | .create _ d => ∀ f ∈ d.fields, isInternalField (Text.root f.1) = false ∧ f.2.Ordered
  | .update _ _ ops | .updateMany _ _ ops => Plan.Plain ops
  | .upsert _ f ops => f.Named ∧ Plan.Plain ops
  | .delete .. => True

/-- **A write that derives the copies** of the access list wherever it stores one: an upsert has an
operator on the list if its filter asks for one by an equality. -/
def Derives : WriteOp → Prop
  | .upsert _ f ops => f.fixes "ACL" = false ∨ ∃ m ∈ ops, Text.root m.1 = "ACL"
  | _ => True

end WriteOp

namespace Edit

variable {e : Edit}

theorem root_updatedAtKey_not_mem : Text.root Stored.updatedAtKey ∉ aclKeys := by decide

theorem Grants.stamped (h : e.Grants) (t : Instant) : (e.stamped t).Grants :=
  h.insert_set root_updatedAtKey_not_mem _

theorem regrants_stamped (t : Instant) : (e.stamped t).Regrants ↔ e.Regrants :=
  regrants_insert_set root_updatedAtKey_not_mem _

end Edit

namespace Engine

variable {config : Config} {caller : Caller} {schema : ClassSchema} {className : String}

theorem grants_of_plansCreate {d : Document} (hd : WriteOp.Plain (.create className d))
    {out : Write × Document} (h : PlansCreate className d schema out) : out.1.Grants := by
  cases h with
  | intro d' r hfields hencoded =>
    obtain ⟨v, hv⟩ := Stored.hasAccess_encodeDocument (fun f hf => (hd f (hfields ▸ hf)).1)
      (fun f hf => (hd f (hfields ▸ hf)).2) hencoded
    exact hv.agrees

theorem grants_of_plansUpdate {ops : UpdateMap} (hops : Plan.Plain ops) {p : Predicate}
    {many : Bool} {write : Write} (h : PlansUpdate caller className p ops many schema write) :
    write.Grants := by
  cases h with
  | intro plan t hplan => exact (Plan.grants_update hops hplan).1.stamped t

/-- **What a planned upsert inserts** has access members that agree if and only if the copies are
derived. They are if it sets or removes the list. -/
theorem grants_of_plansUpsert {f : Filter} {ops : UpdateMap}
    (hplain : WriteOp.Plain (.upsert className f ops)) {name : String} {p : Predicate} {e : Edit}
    (h : PlansUpsert config caller className f ops schema (.upsert name p e)) :
    e.Grants ∧ (e.Regrants → WriteOp.Derives (.upsert className f ops)) ∧
      ∀ r, e.apply true p.seed = .ok r →
        (r.Agrees ↔ WriteOp.Derives (.upsert className f ops)) := by
  cases h with
  | intro plan found scope t onInsert hplan hunrelated hscope hidentified =>
    obtain ⟨hnamed, hops⟩ := hplain
    obtain ⟨hgrants, hregrants⟩ := Plan.grants_update hops hplan
    have hcreated : Text.root Stored.createdAtKey ∉ aclKeys := by decide
    have hid : Text.root Record.idKey ∉ aclKeys := by decide
    have hstamped := (hgrants.stamped t).insert_setOnInsert hcreated (.date t)
    have he : Edit.Grants { plan.edit.stamped t with setOnInsert := onInsert } := by
      rcases hidentified with rfl | ⟨id, rfl⟩
      · exact hstamped
      · exact hstamped.insert_setOnInsert hid (.string id)
    have hiff : Edit.Regrants { plan.edit.stamped t with setOnInsert := onInsert } ↔
        ∃ m ∈ ops, Text.root m.1 = "ACL" :=
      (Edit.regrants_stamped t).trans (hregrants hunrelated)
    refine ⟨he, fun h => .inr (hiff.1 h), fun r hr =>
      (he.agrees_iff hr).trans (or_congr ?_ hiff)⟩
    rw [Plan.agrees_seed_iff rfl (named_substitute hnamed) hscope, fixes_substitute]

/-- **What is planned for a write** that derives the copies grants as a whole. -/
theorem plans_grants {I : Store → Prop} (hI : Store.Stable I) {op : WriteOp} (hplain : op.Plain)
    (hderives : op.Derives) : Plans I Write.Grants config caller op := by
  cases op with
  | create className d =>
    refine .mono ?_ (ensures_plansCreate (Action.ensures_schema_any hI className) d)
    rintro out ⟨schema, -, hplans⟩
    exact grants_of_plansCreate hplain hplans
  | update className objectId ops =>
    refine .mono ?_ (ensures_plansUpdate (Action.ensures_schema_any hI className) _ ops false)
    rintro write ⟨schema, -, hplans⟩
    exact grants_of_plansUpdate hplain hplans
  | updateMany className f ops =>
    refine .bind (Action.ensures_schema_any hI className) fun schema _ => ?_
    refine .bind (.lift (ensures_scopedFilter_eq hI config caller schema _ f)) fun p _ => ?_
    refine .mono ?_ (ensures_plansUpdate (Action.ensures_schema_any hI className) p ops true)
    rintro write ⟨schema, -, hplans⟩
    exact grants_of_plansUpdate hplain hplans
  | upsert className f ops =>
    refine .mono ?_
      (ensures_plansUpsert (Action.ensures_schema_any hI className) hI.keptByFinds f ops)
    rintro write ⟨schema, -, hplans⟩
    cases write with
    | upsert name p e =>
      obtain ⟨hgrants, -, hinserted⟩ := grants_of_plansUpsert hplain hplans
      exact ⟨hgrants, fun r hr => (hinserted r hr).2 hderives⟩
    | _ => exact nomatch hplans
  | delete className f =>
    refine .bind (Action.ensures_schema_any hI className) fun schema _ => ?_
    exact .bind (.lift (ensures_scopedFilter_eq hI config caller schema _ f)) fun p _ =>
      .pure trivial

/-- Edges are no documents. -/
theorem kept_guards : Kept (Guards none) (fun id => Guards (some id)) Write.Grants := by
  have hkept := kept_of_watch (W := Store.access) fun field className hname =>
    Join.collection_ne_of_isClassName hname field className rfl
  simp only [Store.guards_eq]
  exact { hkept with
    alone := fun write h => hkept.alone write h.allows
    inside := fun write id h => hkept.inside write id h.allows }

/-! ### Calls one after another -/

/-- **Access lists and their copies agree** in every store that is reached by calls in which no
caller names an internal field and every upsert derives the copies, if they do at the start:
whatever the calls come to, alone, in batches or in transactions that are taken back. -/
theorem agrees_writeAll {calls : List (Caller × WriteCall)}
    (hplain : ∀ call ∈ calls, ∀ op ∈ call.2.ops, op.Plain)
    (hderives : ∀ call ∈ calls, ∀ op ∈ call.2.ops, op.Derives) {w : World}
    (hwf : w.store.WellFormed) (hagrees : w.store.Agrees) (cache : SchemaCache) (n : Nat) :
    (writeAll config (calls.take n) (cache, w)).2.store.Agrees := by
  have hcalls : ∀ call ∈ calls.take n, ∀ op ∈ call.2.ops,
      Plans (Guards none) Write.Grants config call.1 op := fun call hcall op hop =>
    have hmem := List.mem_of_mem_take hcall
    plans_grants kept_guards.stable (hplain call hmem op hop) (hderives call hmem op hop)
  exact (writeAll_keeps kept_guards hcalls _ (Guards.of_agrees hwf hagrees)).agrees

/-- A world with a class that has no objects. -/
def vacant : World where
  store := { collections := [
    ("_SCHEMA", { records := [("N", [("_id", .string "N"), ("n", .string "number")])] })] }

theorem wellFormed_vacant : vacant.store.WellFormed := .of_sorted [] (by decide)

theorem record?_vacant {name : String} (hname : isClassName name = true) (id : String) :
    vacant.store.record? name id = none := by
  by_cases hschema : name = "_SCHEMA"
  · rw [hschema] at hname
    exact absurd hname (by decide)
  · have hnone : vacant.store.collections.lookup name = none :=
      (Members.lookup_cons ..).trans (if_neg hschema)
    rw [Store.record?, Store.collection, Store.collection?, hnone]
    rfl

theorem agrees_vacant : vacant.store.Agrees := by
  intro name hname id r hr
  exact absurd ((record?_vacant hname id).symm.trans hr) (by simp)

/-- The list of an object that `bob` alone may read and write. -/
def bobsList : Acl := ⟨[("bob", ⟨true, true⟩)]⟩

/-- An object with that list. -/
def bobsObject : Document :=
  { className := "N", objectId := "x", createdAt := none, updatedAt := none,
    fields := [("ACL", .acl bobsList), ("n", .int 1)] }

/-- The object is created, made public in a transaction that fails since it creates the object
again, and joined by one whose list the filter asks for and the update sets. -/
def lending : List (Caller × WriteCall) :=
  [(bob, .one (.create "N" bobsObject)),
    (bob, .batch [.update "N" "x" [("ACL", .delete)], .create "N" bobsObject] true),
    (bob, .one (.upsert "N"
      (.and [.field "ACL" (.equals (.acl bobsList)), .field "n" (.equals (.int 2))])
      [("ACL", .set (.acl bobsList))]))]

theorem agrees_writeAll_lending :
    (∀ call ∈ lending, ∀ op ∈ call.2.ops, op.Plain) ∧
      (∀ call ∈ lending, ∀ op ∈ call.2.ops, op.Derives) ∧ vacant.store.WellFormed ∧
      vacant.store.Agrees ∧
      ∀ n, (writeAll {} (lending.take n) ({ ttlMs := 5000 }, vacant)).2.store.Agrees := by
  have hlist : (Value.acl bobsList).Ordered := List.pairwise_singleton _ _
  have hobject : WriteOp.Plain (.create "N" bobsObject) := by
    simp only [WriteOp.Plain, bobsObject, List.forall_mem_cons]
    exact ⟨⟨by decide, hlist⟩, ⟨by decide, trivial⟩, List.forall_mem_nil _⟩
  have hremoved : WriteOp.Plain (.update "N" "x" [("ACL", .delete)]) :=
    ⟨by decide, by simp⟩
  have hupsert : WriteOp.Plain (.upsert "N"
      (.and [.field "ACL" (.equals (.acl bobsList)), .field "n" (.equals (.int 2))])
      [("ACL", .set (.acl bobsList))]) := by
    refine ⟨?_, by decide, ?_⟩
    · simp only [Filter.Named, Filter.constraints, Filter.constraintsOf, List.forall_mem_append,
        List.forall_mem_singleton, Filter.root?, Option.some.injEq, forall_eq']
      exact ⟨by decide, by decide, List.forall_mem_nil _⟩
    · simpa using hlist
  have hplain : ∀ call ∈ lending, ∀ op ∈ call.2.ops, op.Plain := by
    simp only [lending, WriteCall.ops, List.forall_mem_cons, List.not_mem_nil, IsEmpty.forall_iff,
      implies_true, and_true]
    exact ⟨hobject, ⟨hremoved, hobject⟩, hupsert⟩
  have hderives : ∀ call ∈ lending, ∀ op ∈ call.2.ops, op.Derives := by
    simp only [lending, WriteCall.ops, List.forall_mem_cons, List.not_mem_nil, IsEmpty.forall_iff,
      implies_true, and_true]
    exact ⟨trivial, ⟨trivial, trivial⟩, .inr (by decide)⟩
  exact ⟨hplain, hderives, wellFormed_vacant, agrees_vacant,
    agrees_writeAll hplain hderives wellFormed_vacant agrees_vacant _⟩

/-- The upsert of an object with a list that its filter asks for. -/
def listing : List (Caller × WriteCall) :=
  [(bob, .one (.upsert "N" (.field "ACL" (.equals (.acl bobsList))) [("n", .set (.int 1))]))]

/-- **A list without copies**: the object that is inserted has the list that the filter asks for,
and neither readers nor writers. -/
theorem not_agrees_writeAll_listing :
    ¬∀ (config : Config) (calls : List (Caller × WriteCall)) (cache : SchemaCache) (w : World),
      (∀ call ∈ calls, ∀ op ∈ call.2.ops, op.Plain) → w.store.WellFormed → w.store.Agrees →
      ∀ n, (writeAll config (calls.take n) (cache, w)).2.store.Agrees := by
  intro h
  have hplain : ∀ call ∈ listing, ∀ op ∈ call.2.ops, op.Plain := by
    simp only [listing, WriteCall.ops, List.forall_mem_singleton]
    refine ⟨?_, by decide, by simp [Value.Ordered]⟩
    simp only [Filter.Named, Filter.constraints, List.forall_mem_singleton, Filter.root?,
      Option.some.injEq, forall_eq']
    decide
  have hlisted : ((writeAll {} (listing.take 1) ({ ttlMs := 5000 }, vacant)).2.store.record? "N"
      "x000000000").map (fun r => ((r.lookup Stored.aclKey).isSome,
        (r.lookup Stored.readPermKey).isSome)) = some (true, false) := by decide +kernel
  obtain ⟨r, hr, hkeys⟩ := Option.map_eq_some_iff.1 hlisted
  obtain ⟨hacl, hread⟩ := Prod.mk.inj hkeys
  rcases h {} listing { ttlMs := 5000 } vacant hplain wellFormed_vacant agrees_vacant 1 "N"
    (by decide) "x000000000" r hr with hnone | ⟨_, _, hreaders, _⟩
  · rw [hnone Stored.aclKey (by decide)] at hacl
    exact absurd hacl (by simp)
  · rw [hreaders] at hread
    exact absurd hread (by simp)

/-- **A planned upsert** leaves an object whose access members agree if and only if the copies are
derived, where it found none or such a one. -/
theorem ensures_run_plansUpsert {f : Filter} {ops : UpdateMap}
    (hplain : WriteOp.Plain (.upsert className f ops)) (id : String) {write : Write}
    (h : PlansUpsert config caller className f ops schema write) :
    (write.run none).Ensures
      (Store.AgreesIff className id (WriteOp.Derives (.upsert className f ops))) fun _ => True := by
  cases write with
  | upsert name p e =>
    obtain ⟨hgrants, hregrants, hinserted⟩ := grants_of_plansUpsert hplain h
    obtain rfl : name = className := by
      cases h
      rfl
    refine .bind (Q := fun _ => True) (.call fun s hs => ?_) fun _ _ => .pure trivial
    exact ⟨hs.run_upsert hgrants hregrants hinserted, fun _ _ => trivial⟩
  | _ => exact nomatch h

/-- **An object that an upsert inserts** has access members that agree if and only if the upsert
derives the copies. -/
theorem agrees_iff_of_inserted {f : Filter} {ops : UpdateMap}
    (hplain : WriteOp.Plain (.upsert className f ops)) {cache : SchemaCache} {w : World}
    (hwf : w.store.WellFormed) {id : String} (hnone : w.store.record? className id = none)
    {r : Record} (hr : (write config caller (.one (.upsert className f ops)) cache
      w).2.store.record? className id = some r) :
    r.Agrees ↔ WriteOp.Derives (.upsert className f ops) := by
  have hI : Store.Stable
      (Store.AgreesIff className id (WriteOp.Derives (.upsert className f ops))) :=
    fun _ _ hsame h => h.congr hsame
  have hplans : Plans _ (fun write => ∃ schema, True ∧
      PlansUpsert config caller className f ops schema write) config caller
        (.upsert className f ops) :=
    ensures_plansUpsert (Action.ensures_schema_any hI className) hI.keptByFinds f ops
  have hone := ensures_writeOne_keeps hI
    (fun write ⟨_, _, hwrite⟩ => ensures_run_plansUpsert hplain id hwrite) hplans
  have hstart : w.store.AgreesIff className id (WriteOp.Derives (.upsert className f ops)) :=
    ⟨hwf, fun r hr => absurd (hnone.symm.trans hr) (by simp)⟩
  exact (Program.Ensures.run (hone cache trivial) hstart).1.agrees_iff r hr

end Engine

end ObjectEngine
