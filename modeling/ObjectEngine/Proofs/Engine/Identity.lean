import ObjectEngine.Proofs.Engine.Agreeing
import ObjectEngine.Proofs.Engine.Sequence
import ObjectEngine.Proofs.Store.Identity

/-!
# Objects under their own ids

Calls that write leave every object under its own id, in batches and in transactions that are
taken back as well, and an object that is created is found under the id that the creation answers
(`Engine.identified_writeAll`).

The id of an object has a name of its own, which no update may write, but its stored name is that
of an internal field, and a privileged caller may write those: an update of it parts an object
from its id, and a field of that name in a new object has it stored under another id than the one
answered (`Engine.not_identified_relabelling`).
-/

namespace ObjectEngine

open Store (identity)

/-! ### Stored paths -/

/-- **The key of the id** is the stored name of the id, and of itself. -/
theorem Stored.keyPath_eq_idKey {schema : ClassSchema} {path : String}
    (h : keyPath schema path = Record.idKey) : path = "objectId" ∨ path = Record.idKey := by
  rw [keyPath] at h
  cases hsplit : Text.splitFirst '.' path with
  | some parts =>
    rw [hsplit] at h
    have hdot : '.' ∈ (Record.idKey).toList := by
      rw [← h]
      simp [String.toList_append]
    exact absurd hdot (by decide)
  | none =>
    rw [hsplit] at h
    change rootKey schema path = Record.idKey at h
    unfold rootKey at h
    split at h
    · exact .inl rfl
    · exact absurd h (by decide)
    · exact absurd h (by decide)
    · exact absurd h (by decide)
    · split at h
      · exact absurd (congrArg String.toList h)
          (by simp [Record.idKey, pointerMark, String.toList_append])
      · exact .inr h

/-! ### Operators that spare ids -/

/-- **Operators that spare an id**: none removes it, and none sets it but to what it is, if that
is known. -/
def UpdateMap.Spares (known : Option String) (ops : UpdateMap) : Prop :=
  ∀ m ∈ ops, m.1 = Record.idKey →
    m.2 ≠ .delete ∧ ∀ v, m.2 = .set v → ∃ id, known = some id ∧ v = .string id

namespace Plan

variable {schema : ClassSchema} {caller : Caller}

theorem eq_of_setValue_string {target : Target} {path s : String} {d : Datum}
    (h : setValue target path (.string s) = .ok d) : d = .string s := by
  unfold setValue at h
  split at h
  · exact Stored.eq_of_encode_string (Outcome.inField_eq_ok.1 h)
  · exact (Except.ok.inj h).symm

variable {known : Option String} {id : String} (hknown : ∀ k, known = some k → k = id)

include hknown

/-- **The step**: an operator that spares the id. -/
theorem spares_updateStep {out out' : UpdatePlan} (h : out.edit.Spares id) {path : String}
    {op : UpdateOp} (hop : path = Record.idKey →
      op ≠ .delete ∧ ∀ v, op = .set v → ∃ id, known = some id ∧ v = .string id)
    (hstep : updateStep schema caller out path op = .ok out') : out'.edit.Spares id := by
  obtain ⟨hwritable, target, -, -, hroute⟩ := routed_of_ok hstep
  have hpath (hstored : Stored.keyPath schema path = Record.idKey) : path = Record.idKey := by
    refine (Stored.keyPath_eq_idKey hstored).resolve_left fun hobjectId => hwritable ?_
    rw [hobjectId]
    decide
  have hkeys : Record.idKey ∉ aclKeys := by decide
  have hunset (hnot : Record.idKey ∉ out.edit.unset) :
      Record.idKey ∉ withAclKeys out.edit.unset := fun hmem =>
    (mem_withAclKeys.1 hmem).elim hkeys hnot
  cases hroute with
  | relation => exact h
  | access _ he =>
    cases he with
    | set list =>
      refine { h with set := fun m hm hkey => ?_ }
      rcases Members.mem_insertAll hm with hm | hm
      · exact absurd (hkey ▸ key_mem_aclKeys m hm) hkeys
      · exact h.set m hm hkey
    | clear => exact { h with unset := hunset h.unset }
    | delete => exact { h with unset := hunset h.unset }
  | field _ he =>
    cases he with
    | @set v d hd =>
      refine { h with set := fun m hm hkey => ?_ }
      rcases Members.mem_insert hm with rfl | hm
      · obtain ⟨k, hk, rfl⟩ := (hop (hpath hkey)).2 v rfl
        exact hknown k hk ▸ eq_of_setValue_string hd
      · exact h.set m hm hkey
    | delete =>
      refine { h with unset := fun hmem => ?_ }
      rcases NameSet.mem_insert hmem with hkey | hmem
      · exact (hop (hpath hkey.symm)).1 rfl
      · exact h.unset hmem
    | _ => exact { h with }

/-- **The update that is planned** for operators that spare the id spares it. -/
theorem spares_update {ops : UpdateMap} (hops : ops.Spares known) {out : UpdatePlan}
    (h : update schema caller ops = .ok out) : out.edit.Spares id := by
  obtain ⟨planned, hplanned, h⟩ := Outcome.bind_eq_ok.1 h
  obtain ⟨-, -, h⟩ := Outcome.bind_eq_ok.1 h
  obtain rfl := Except.ok.inj h
  exact Outcome.foldlM_induction (P := fun p => p.edit.Spares id) hplanned
    ⟨fun _ hm => absurd hm List.not_mem_nil, List.not_mem_nil⟩
    fun p hp m hm p' hp' => spares_updateStep hknown hp (hops m hm) hp'

end Plan

theorem Edit.Spares.stamped {e : Edit} {id : String} (h : e.Spares id) (t : Instant) :
    (e.stamped t).Spares id := by
  have hkey : Stored.updatedAtKey ≠ Record.idKey := by decide
  refine { h with set := fun m hm hid => ?_ }
  rcases Members.mem_insert hm with rfl | hm
  · exact absurd hid hkey
  · exact h.set m hm hid

/-- **A write that spares the ids** of the objects that it updates. An update of one object knows
its id. -/
def WriteOp.SparesIds : WriteOp → Prop
  | .update _ objectId ops => ops.Spares (some objectId)
  | .updateMany _ _ ops | .upsert _ _ ops => ops.Spares none
  | .create .. | .delete .. => True

/-! ### Plans -/

namespace Engine

variable {config : Config} {caller : Caller} {schema : ClassSchema} {className : String}

theorem allows_of_plansUpdate {ops : UpdateMap} {p : Predicate} {many : Bool}
    {known : Option String} (hops : ops.Spares known)
    (hknown : ∀ r id, r.id? = some id → (p.eval none r).1 = .ok true →
      ∀ k, known = some k → k = id) {write : Write}
    (h : PlansUpdate caller className p ops many schema write) : identity.AllowsWrite write := by
  cases h with
  | intro plan t hplan =>
    have hspares (r : Record) (id : String) (hid : r.id? = some id)
        (hp : (p.eval none r).1 = .ok true) : (plan.edit.stamped t).Spares id :=
      (Plan.spares_update (hknown r id hid hp) hops hplan).stamped t
    exact fun session => ⟨Store.Call.allows_update hspares, Store.Call.allows_findAndUpdate hspares⟩

theorem allows_of_plansUpsert {f : Filter} {ops : UpdateMap} (hops : ops.Spares none)
    {write : Write} (h : PlansUpsert config caller className f ops schema write) :
    identity.AllowsWrite write := by
  cases h with
  | intro plan found scope t onInsert hplan =>
    -- what is set on insertion is nothing to a record that is there
    refine fun session => Store.Call.allows_upsert fun r id _ _ => ?_
    have hunknown : ∀ k, none = some k → k = id := nofun
    have hspares : plan.edit.Spares id := Plan.spares_update hunknown hops hplan
    exact ⟨(hspares.stamped t).set, (hspares.stamped t).unset⟩

/-- **What is planned for a write** that spares ids is allowed by the watch on them. -/
theorem plans_allowed {I : Store → Prop} (hI : Store.Stable I) {op : WriteOp}
    (hop : op.SparesIds) : Plans I identity.AllowsWrite config caller op := by
  cases op with
  | create className d =>
    refine .mono ?_ (ensures_plansCreate (Action.ensures_schema_any hI className) d)
    rintro out ⟨schema, -, hplans⟩
    cases hplans with
    | intro d' r => exact fun session => Store.Call.allows_insert r
  | update className objectId ops =>
    refine .mono ?_ (ensures_plansUpdate (Action.ensures_schema_any hI className) _ ops false)
    rintro write ⟨schema, -, hplans⟩
    refine allows_of_plansUpdate hop (fun r id hid hp k hk => ?_) hplans
    have hbyId := ((Predicate.eval_both _ _).1 hp).1
    obtain rfl := Option.some.inj hk
    exact (Catalog.id?_of_byId hbyId hid).symm
  | updateMany className f ops =>
    refine .bind (Action.ensures_schema_any hI className) fun schema _ => ?_
    refine .bind (.lift (ensures_scopedFilter_eq hI config caller schema _ f)) fun p _ => ?_
    refine .mono ?_ (ensures_plansUpdate (Action.ensures_schema_any hI className) p ops true)
    rintro write ⟨schema, -, hplans⟩
    exact allows_of_plansUpdate hop (fun _ _ _ _ _ => nofun) hplans
  | upsert className f ops =>
    refine .mono ?_
      (ensures_plansUpsert (Action.ensures_schema_any hI className) hI.keptByFinds f ops)
    rintro write ⟨schema, -, hplans⟩
    exact allows_of_plansUpsert hop hplans
  | delete className f =>
    refine .bind (Action.ensures_schema_any hI className) fun schema _ => ?_
    exact .bind (.lift (ensures_scopedFilter_eq hI config caller schema _ f)) fun p _ =>
      .pure fun session => Store.Call.allows_delete

/-! ### Creations -/

/-- **A field** is stored under the key of the id if it is named like the id or the key. -/
theorem ne_idKey_of_encodeField {name : String} {v : Value} (hname : name ≠ "objectId")
    (hkey : name ≠ Record.idKey) {ms : List (String × Datum)}
    (h : Stored.encodeField schema name v = .ok ms) : ∀ m ∈ ms, m.1 ≠ Record.idKey := by
  unfold Stored.encodeField at h
  split at h
  · intro m hm
    cases v with
    | null =>
      obtain rfl := Except.ok.inj h
      exact absurd hm List.not_mem_nil
    | acl list =>
      obtain rfl := Except.ok.inj h
      have hkeys : Record.idKey ∉ Plan.aclKeys := by decide
      exact fun he => hkeys (he ▸ Plan.key_mem_aclKeys m hm)
    | _ => exact absurd h (by simp [Stored.aclMembers])
  · split at h
    · obtain rfl := Except.ok.inj h
      exact List.forall_mem_nil _
    · obtain ⟨x, -, h⟩ := Outcome.bind_eq_ok.1 h
      obtain rfl := Except.ok.inj h
      exact List.forall_mem_singleton.2 fun he =>
        (Stored.keyPath_eq_idKey he).elim hname hkey
    · split at h
      · obtain ⟨x, -, h⟩ := Outcome.bind_eq_ok.1 h
        obtain rfl := Except.ok.inj h
        exact List.forall_mem_singleton.2 hkey
      · exact absurd h (by simp)

/-- **The record of a document** has its id, if the document has no field of that key. -/
theorem id?_of_encodeDocument {d : Document} (hfields : ∀ f ∈ d.fields, f.1 ≠ Record.idKey)
    {r : Record} (h : Stored.encodeDocument schema d = .ok r) : r.id? = some d.objectId := by
  refine Store.id?_eq_some_iff.2 (Outcome.foldlM_induction
    (P := fun r => r.lookup Record.idKey = some (.string d.objectId)) h ?_
    fun r hr f hf r' hstep => ?_)
  · refine (congrArg (List.lookup Record.idKey) (Stored.headerMembers_eq d)).trans ?_
    refine Members.lookup_insertAll_of_unique (Stored.mem_header.2 (.inl rfl)) fun u hu => ?_
    have htimes : Record.idKey ≠ Stored.createdAtKey ∧ Record.idKey ≠ Stored.updatedAtKey := by
      decide
    rcases Stored.mem_header.1 hu with heq | ⟨t, -, heq⟩ | ⟨t, -, heq⟩
    · exact (Prod.mk.inj heq).2
    · exact absurd (Prod.mk.inj heq).1 htimes.1
    · exact absurd (Prod.mk.inj heq).1 htimes.2
  · split at hstep
    · obtain rfl := Except.ok.inj hstep
      exact hr
    · rename_i hheader
      obtain ⟨ms, hms, hstep⟩ := Outcome.bind_eq_ok.1 hstep
      obtain rfl := Except.ok.inj hstep
      have hother := ne_idKey_of_encodeField (fun he => hheader (by simp [he])) (hfields f hf) hms
      rw [Members.lookup_insertAll,
        Members.lookup_eq_none fun m hm => hother m (List.mem_reverse.1 hm), Option.none_or, hr]

/-- **A record that is inserted** is put under its id, which was free. -/
theorem record?_of_run_insert {s : Store} {name : String} {r : Record}
    {session : Option SessionId} {a : (Store.Call.insert name r session).Answer}
    (h : (s.run (.insert name r session)).outcome = .ok a) {id : String} (hid : r.id? = some id) :
    s.record? name id = none ∧
      (s.run (.insert name r session)).store.record? name id = some r := by
  have hdone := Store.run_ok h
  have hchanges : s.changes (.insert name r session) = [⟨id, none, some r⟩] := by
    simp [Store.changes, hid]
  have hmem : ⟨id, none, some r⟩ ∈ s.changes (.insert name r session) := by
    rw [hchanges]
    exact List.mem_singleton_self _
  refine ⟨(hdone.admitted _ hmem).before, ?_⟩
  have hafter := hdone.collection_of_writes trivial name
  rw [hchanges] at hafter
  rw [Store.record?, hafter, if_pos (show name = (Store.Call.insert name r session).collection from
    rfl)]
  exact (Members.lookup_insert ..).trans (if_pos rfl)

/-- **How an object is created**: its record is made, under a schema, and inserted. -/
theorem exists_insert_of_create {d answer : Document} {cache cache' : SchemaCache} {w v : World}
    (h : (create config caller className d).runIn cache w = ((.ok answer, cache'), v)) :
    ∃ schema d' r s a, Stored.encodeDocument schema d' = .ok r ∧ d'.fields = d.fields ∧
      answer.objectId = d'.objectId ∧ Store.SameContent w.store s ∧
      (s.run (.insert className r none)).outcome = .ok a ∧
      (s.run (.insert className r none)).store = v.store := by
  rw [create, Action.runIn_guarded] at h
  split at h
  case h_2 => simp at h
  rename_i shown cache'' v' hwork
  obtain ⟨hshown, rfl⟩ := Prod.mk.inj h
  obtain rfl : shown = answer := Except.ok.inj (Prod.mk.inj hshown).1
  obtain ⟨planned, kept, u, hplan, hrest⟩ := Action.runIn_bind_eq_ok.1 hwork
  -- planning reads the schema
  have hplanning : (prepareCreate caller className d).Ensures (Store.SameContent w.store)
      (fun _ => True) fun out => ∃ schema, True ∧ PlansCreate className d schema out :=
    ensures_plansCreate
      (Action.ensures_schema_any (fun _ _ hsame h => h.trans hsame) className) d
  have hprepared := @Action.Ensures.runIn _ _ _ _ _ hplanning cache trivial _ (.refl w.store)
  rw [hplan] at hprepared
  obtain ⟨hsame, -, hplans⟩ := hprepared
  obtain ⟨schema, -, hplans⟩ := hplans planned rfl
  cases hplans with
  | intro d' r hfields hencoded =>
    obtain ⟨result, kept', u', hwrite, hpure⟩ := Action.runIn_bind_eq_ok.1 hrest
    obtain ⟨hout, rfl⟩ := Prod.mk.inj hpure
    obtain rfl : visible caller d' = shown := Except.ok.inj (Prod.mk.inj hout).1
    obtain ⟨hout, rfl⟩ := Prod.mk.inj ((Action.runIn_ofStore _ kept u).symm.trans hwrite)
    have hinsert : ((Write.insert className r).run none).run.run u =
        (.ok result, (((Write.insert className r).run none).run.run u).2) :=
      Prod.ext (Prod.mk.inj hout).1 rfl
    obtain ⟨a, u', hcall, hpure⟩ := StoreAction.run_bind_eq_ok.1 hinsert
    obtain ⟨houtcome, hstore⟩ := Batch.store_of_run_call hcall
    have hanswer : (visible caller d').objectId = d'.objectId := by
      unfold visible
      split <;> rfl
    exact ⟨schema, d', r, u.store, a, hencoded, hfields, hanswer, hsame, houtcome,
      hstore.trans (congrArg World.store (Prod.mk.inj hpure).2)⟩

/-- **An object that is created** is found under the id that is answered, which was free. -/
theorem record?_of_created {d : Document} (hfields : ∀ f ∈ d.fields, f.1 ≠ Record.idKey)
    {cache : SchemaCache} {w : World} {answer : Document}
    (hrun : (write config caller (.one (.create className d)) cache w).1.1 =
      .ok (.document answer)) :
    w.store.record? className answer.objectId = none ∧
      ∃ r, (write config caller (.one (.create className d)) cache w).2.store.record? className
        answer.objectId = some r ∧ r.id? = some answer.objectId := by
  rcases hdone : write config caller (.one (.create className d)) cache w with ⟨⟨out, cache'⟩, v⟩
  rw [hdone] at hrun
  obtain rfl : out = .ok (.document answer) := hrun
  obtain ⟨shown, kept, u, hcreate, hpure⟩ := Action.runIn_bind_eq_ok.1 hdone
  obtain ⟨hout, rfl⟩ := Prod.mk.inj hpure
  obtain rfl : shown = answer := WriteAnswer.document.inj (Except.ok.inj (Prod.mk.inj hout).1)
  obtain ⟨schema, d', r, s, a, hencoded, hfields', hanswer, hsame, hinsert, hstore⟩ :=
    exists_insert_of_create hcreate
  have hid : r.id? = some d'.objectId := id?_of_encodeDocument (hfields' ▸ hfields) hencoded
  obtain ⟨hfree, hstored⟩ := record?_of_run_insert hinsert hid
  rw [hanswer, ← hsame.record?, ← hstore]
  exact ⟨hfree, r, hstored, hid⟩

/-! ### Calls one after another -/

/-- **Objects keep their ids** through calls that spare them, whatever the calls come to, alone, in
batches or in transactions that are taken back: every state that is reached has every object under
its own id, no object is given another, and one that is created, by a document without a field of
the id's own key, stands under the id answered. -/
theorem identified_writeAll {calls : List (Caller × WriteCall)}
    (hspares : ∀ call ∈ calls, ∀ op ∈ call.2.ops, op.SparesIds) {w : World}
    (hwf : w.store.WellFormed) (hids : w.store.Identified) (cache : SchemaCache) (n : Nat) :
    (reached config calls (cache, w) n).2.store.Identified ∧
      (∀ name, isClassName name = true → ∀ id r r',
        (reached config calls (cache, w) n).2.store.record? name id = some r →
        (reached config calls (cache, w) (n + 1)).2.store.record? name id = some r' →
        r'.id? = r.id?) ∧
      ∀ caller className d answer, calls[n]? = some (caller, .one (.create className d)) →
        (∀ f ∈ d.fields, f.1 ≠ Record.idKey) →
        (write config caller (.one (.create className d)) (reached config calls (cache, w) n).1
          (reached config calls (cache, w) n).2).1.1 = .ok (.document answer) →
        (reached config calls (cache, w) n).2.store.record? className answer.objectId = none ∧
        ∃ r, (reached config calls (cache, w) (n + 1)).2.store.record? className
          answer.objectId = some r ∧ r.id? = some answer.objectId := by
  have hkept := kept_of_watch (W := identity) fun field className hname =>
    Join.collection_ne_of_isClassName hname field className rfl
  have hidentified (m : Nat) : (reached config calls (cache, w) m).2.store.Identified := by
    have hcalls : ∀ call ∈ calls.take m, ∀ op ∈ call.2.ops,
        Plans (identity.Kept none) identity.AllowsWrite config call.1 op :=
      fun call hcall op hop =>
        plans_allowed hkept.stable (hspares call (List.mem_of_mem_take hcall) op hop)
    exact (writeAll_keeps hkept hcalls (cache, w) (.of_holds hwf hids)).holds
  refine ⟨hidentified n, fun name hname id r r' hr hr' => ?_, ?_⟩
  · rw [hidentified n name hname id r hr, hidentified (n + 1) name hname id r' hr']
  · intro caller className d answer hcall hfields hanswer
    rw [reached_succ hcall]
    exact record?_of_created hfields hanswer

theorem identified_vacant : vacant.store.Identified := by
  intro name hname id r hr
  have hnone : vacant.store.record? name id = none := record?_vacant hname id
  exact absurd (hnone.symm.trans hr) (by simp)

/-- A new object with a number. -/
def numbered (id : String) (fields : Members Value) : Document :=
  { className := "N", objectId := id, createdAt := none, updatedAt := none, fields }

/-- An object is created, another is inserted by an upsert that is asked for one id and gives it
another, and the first is changed in a transaction that fails since it creates it again. -/
def tending : List (Caller × WriteCall) :=
  [(bob, .one (.create "N" (numbered "x" [("n", .int 1)]))),
    (master, .one (.upsert "N" (.field "objectId" (.equals (.string "y")))
      [("_id", .setOnInsert (.string "z")), ("n", .set (.int 2))])),
    (master, .batch [.update "N" "x" [("_id", .set (.string "x")), ("n", .increment (.int 1))],
      .create "N" (numbered "x" [])] true)]

theorem identified_writeAll_tending :
    (∀ call ∈ tending, ∀ op ∈ call.2.ops, op.SparesIds) ∧ vacant.store.WellFormed ∧
      vacant.store.Identified ∧
      (∀ n, (reached {} tending ({ ttlMs := 5000 }, vacant) n).2.store.Identified) ∧
      ∃ answer, (write {} bob (.one (.create "N" (numbered "x" [("n", .int 1)])))
          { ttlMs := 5000 } vacant).1.1 = .ok (.document answer) ∧
        ∃ r, (reached {} tending ({ ttlMs := 5000 }, vacant) 1).2.store.record? "N"
          answer.objectId = some r ∧ r.id? = some answer.objectId := by
  have hspares : ∀ call ∈ tending, ∀ op ∈ call.2.ops, op.SparesIds := by
    simp only [tending, WriteCall.ops, List.forall_mem_cons, List.not_mem_nil, IsEmpty.forall_iff,
      implies_true, and_true, WriteOp.SparesIds, UpdateMap.Spares, true_and]
    simp [Record.idKey]
  have hsome : ((create {} bob "N" (numbered "x" [("n", .int 1)])).runIn { ttlMs := 5000 }
      vacant).1.1.toOption.isSome = true := by decide +kernel
  have hreached := @identified_writeAll {} _ hspares _ wellFormed_vacant identified_vacant
    { ttlMs := 5000 }
  refine ⟨hspares, wellFormed_vacant, identified_vacant, fun n => (hreached n).1, ?_⟩
  obtain ⟨answer, hanswer⟩ := Option.isSome_iff_exists.1 hsome
  have hcreated : (write {} bob (.one (.create "N" (numbered "x" [("n", .int 1)])))
      { ttlMs := 5000 } vacant).1.1 = .ok (.document answer) := by
    rcases hrun : (create {} bob "N" (numbered "x" [("n", .int 1)])).runIn { ttlMs := 5000 }
      vacant with ⟨⟨out, cache⟩, v⟩
    rw [hrun] at hanswer
    obtain rfl : out = .ok answer := Outcome.toOption_eq_some.1 hanswer
    rw [write, writeOne, Action.runIn_bind, hrun]
    rfl
  obtain ⟨-, r, hr, hid⟩ := (hreached 0).2.2 bob "N" _ answer rfl (by decide) hcreated
  exact ⟨answer, hcreated, r, hr, hid⟩

/-- An object is created, and the member that holds its id is set. -/
def relabelling : List (Caller × WriteCall) :=
  [(master, .one (.create "N" (numbered "x" []))),
    (master, .one (.update "N" "x" [("_id", .set (.string "y"))]))]

/-- **A privileged caller parts objects from their ids**: an update gives an object another id
than the one it stands under, and an object that is created with a field of the id's own key
stands under another id than the one answered. -/
theorem not_identified_relabelling :
    (¬∀ (calls : List (Caller × WriteCall)) (cache : SchemaCache) (w : World),
      w.store.WellFormed → w.store.Identified →
      ∀ n, (reached {} calls (cache, w) n).2.store.Identified) ∧
    ¬∀ (caller : Caller) (d answer : Document) (cache : SchemaCache) (w : World),
      w.store.WellFormed → w.store.Identified →
      ((create {} caller "N" d).runIn cache w).1.1 = .ok answer →
      (((create {} caller "N" d).runIn cache w).2.store.record? "N" answer.objectId).isSome := by
  constructor
  · intro h
    have hrenamed : ((reached {} relabelling ({ ttlMs := 5000 }, vacant) 2).2.store.record? "N"
        "x").bind Record.id? = some "y" := by decide +kernel
    obtain ⟨r, hr, hid⟩ := Option.bind_eq_some_iff.1 hrenamed
    have hkept := h relabelling { ttlMs := 5000 } vacant wellFormed_vacant identified_vacant 2 "N"
      (by decide) "x" r hr
    exact absurd (hid.symm.trans hkept) (by decide)
  · intro h
    have hanswered : (((create {} master "N" (numbered "x" [("_id", .string "y")])).runIn
        { ttlMs := 5000 } vacant).1.1.toOption.map fun d => d.objectId) = some "x" := by
      decide +kernel
    have hmissing : (((create {} master "N" (numbered "x" [("_id", .string "y")])).runIn
        { ttlMs := 5000 } vacant).2.store.record? "N" "x").isSome = false := by decide +kernel
    obtain ⟨answer, hanswer, hid⟩ := Option.map_eq_some_iff.1 hanswered
    have hfound := h master _ answer { ttlMs := 5000 } vacant wellFormed_vacant identified_vacant
      (Outcome.toOption_eq_some.1 hanswer)
    rw [hid, hmissing] at hfound
    exact absurd hfound (by simp)

end Engine

end ObjectEngine
