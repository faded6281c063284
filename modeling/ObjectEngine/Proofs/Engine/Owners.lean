import ObjectEngine.Proofs.Engine.Edges
import ObjectEngine.Proofs.Engine.Identity

/-!
# What a planned write calls

A planned write reads its collection, writes it, and edits the join collections of its class
(`Write.Issues`), so it keeps what each of these calls keeps (`Write.ensures_run_of_issues`) and
leaves other collections as they are (`Write.collection_run`).

The owners whose edges a write edits are looked up first. If the records of the collection have
their ids, they are the ones that the store then finds (`Write.run_matchingIds`). Which objects there
are changes by insertions and removals only.
-/

namespace ObjectEngine

namespace Store

variable {s : Store} {name id : String} {p : Predicate} {edit : Edit} {call : Call}
  {session : Option SessionId}

/-! ### The owners of a write -/

/-- **The ids of the records that a query finds** are the ids that a write finds, if the records
have their ids. -/
theorem matchingIds_of_filterRecords {records : Members Record}
    (hids : ∀ m ∈ records, m.2.id? = some m.1) {rs : List Record}
    (h : (filterRecords none p (Members.values records)).1 = .ok rs) (firstOnly : Bool) :
    matchingIds firstOnly p records =
      .ok ((if firstOnly then rs.take 1 else rs).filterMap Record.id?) := by
  induction records generalizing rs with
  | nil =>
    obtain rfl : [] = rs := Except.ok.inj h
    cases firstOnly <;> rfl
  | cons first rest ih =>
    obtain ⟨key, r⟩ := first
    obtain ⟨hkey, hrest⟩ := List.forall_mem_cons.1 hids
    rw [Members.values, List.map_cons, filterRecords] at h
    rw [matchingIds]
    rcases hr : p.eval none r with ⟨e | b, delay⟩
    · simp [hr] at h
    · simp only [hr] at h
      obtain ⟨rs', hrs', hcons⟩ := Outcome.map_eq_ok.1 h
      have hfound := ih hrest hrs'
      cases b with
      | false =>
        obtain rfl : rs' = rs := hcons
        exact hfound
      | true =>
        obtain rfl : r :: rs' = rs := hcons
        refine Outcome.bind_eq_ok.2 ⟨true, rfl, ?_⟩
        cases firstOnly with
        | true =>
          have hfirst : [r].filterMap Record.id? = [key] := by simp [hkey]
          exact congrArg Except.ok hfirst.symm
        | false =>
          refine Outcome.bind_eq_ok.2 ⟨_, hfound, congrArg Except.ok ?_⟩
          exact (List.filterMap_cons_some hkey).symm

/-- The ids that a query finds and shows. -/
theorem matchingIds_of_query (hids : ∀ m ∈ (s.collection name).records, m.2.id? = some m.1)
    {many : Bool} {rs : List Record}
    (h : (s.query name
      { filter := p, limit := if many then none else some 1, projection := some [] }).1 = .ok rs) :
    matchingIds (!many) p (s.collection name).records = .ok (rs.filterMap Record.id?) := by
  obtain ⟨found, hfound, rfl⟩ := Outcome.map_eq_ok.1 h
  have hshown (rs : List Record) :
      (rs.map (Record.project [])).filterMap Record.id? = rs.filterMap Record.id? := by
    rw [List.filterMap_map]
    exact List.filterMap_congr fun r _ => id?_shown { projection := some [] } r
  rw [matchingIds_of_filterRecords hids hfound]
  cases many <;> exact congrArg Except.ok (hshown _).symm

end Store

/-- **The owners that a write looks up** are those that the store would find, if the records have
their ids. -/
theorem Write.run_matchingIds {w : World} {name : String} {p : Predicate} {many : Bool}
    (hs : w.store.Quiet) (hids : ∀ m ∈ (w.store.collection name).records, m.2.id? = some m.1)
    {r : Outcome (List String)} {v : World}
    (h : (matchingIds name p (if many then none else some 1) none).run.run w = (r, v)) :
    w.store.Rests v.store ∧
      ∀ ids, r = .ok ids → Store.matchingIds (!many) p (w.store.collection name).records =
        .ok ids := by
  obtain ⟨houtcome, hrests⟩ := hs.run_find name
    { filter := p, limit := if many then none else some 1, projection := some [] } none
  revert h
  refine Batch.run_bind_cases (P := fun out => out = (r, v) → _) (fun e u hcall h => ?_)
    fun (rs : List Record) u hcall h => ?_
  · obtain ⟨-, hstore⟩ := Batch.store_of_run_call hcall
    obtain ⟨rfl, rfl⟩ := Prod.mk.inj h
    exact ⟨hstore ▸ hrests, nofun⟩
  · obtain ⟨hok, hstore⟩ := Batch.store_of_run_call hcall
    obtain ⟨rfl, rfl⟩ := Prod.mk.inj h
    refine ⟨hstore ▸ hrests, ?_⟩
    rintro ids ⟨⟩
    refine Store.matchingIds_of_query hids ?_
    exact Store.underLimit_eq_ok (houtcome.symm.trans hok)

/-- **Every program moves on** where no fault is due. -/
theorem Store.Quiet.advances_run {α : Type} {w : World} (h : w.store.Quiet) (p : Program α) :
    Advances w.store (p.run w).2.store := by
  have hensures : p.Ensures (fun t => t.Quiet ∧ Advances w.store t) fun _ => True :=
    .of_calls (fun t c ht => by
      have hadvances := ht.1.run_advances c
      exact ⟨ht.1.advances hadvances, ht.2.trans hadvances⟩) p
  exact (Program.Ensures.run hensures ⟨h, .refl _⟩).1.2

/-- Every program leaves a store well formed. -/
theorem Store.WellFormed.run_program {α : Type} {w : World} (h : w.store.WellFormed)
    (p : Program α) : (p.run w).2.store.WellFormed :=
  (Program.Ensures.run (I := Store.WellFormed) (.of_calls (fun _ c hs => hs.run c) p) h).1

/-! ### The calls of a write -/

/-- A call that writes leaves other collections as they are. -/
theorem Store.run_collection_of_writes {c : Store.Call} (hwrites : c.Writes) {n : String}
    (hn : n ≠ c.collection) (s : Store) : (s.run c).store.collection n = s.collection n := by
  refine run_collection_of_ne ?_
  cases c <;> first
    | exact if_neg hn
    | exact hwrites.elim

namespace Write

variable {session : Option SessionId} {name : String}

/-- **The calls of a write** on a collection. -/
inductive Issues (session : Option SessionId) (name : String) : Store.Call → Prop
  | find (sel : Selection) : Issues session name (.find name sel session)
  | count (p : Predicate) (limit : Option Nat) : Issues session name (.count name p limit session)
  | own {c : Store.Call} (hwrites : c.Writes) (hname : c.collection = name)
    (hsession : c.session? = session) : Issues session name c
  | link (field : String) (p : Predicate) :
    Issues session name (.upsert (Join.collection field name) p {} session)
  | unlink (field : String) (p : Predicate) :
    Issues session name (.delete (Join.collection field name) p session)

/-- **A write keeps** what its calls keep. -/
theorem ensures_run_of_issues {I : Store → Prop} (write : Write)
    (h : ∀ c, Issues session write.collection c → ∀ s, I s → I (s.run c).store) :
    (write.run session).Ensures I fun _ => True := by
  have hcall {c : Store.Call} (hc : Issues session write.collection c) :
      StoreAction.Ensures I (fun _ => True) (Program.call c) :=
    .call fun s hs => ⟨h c hc s hs, fun _ _ => trivial⟩
  have howners (p : Predicate) (limit : Option Nat) :
      (matchingIds write.collection p limit session).Ensures I fun _ => True :=
    .bind (hcall (.find _)) fun _ _ => .pure trivial
  have hedges (owner : String) (e : Plan.RelationEdit) :
      (Join.apply write.collection owner e session).Ensures I fun _ => True := by
    refine .bind ((StoreAction.judgement I).forIn fun related _ => ?_) fun _ _ => ?_
    · exact .bind (hcall (.link _ _)) fun _ _ => .pure trivial
    · split
      · exact .bind (hcall (.unlink _ _)) fun _ _ => .pure trivial
      · exact .pure trivial
  cases write with
  | insert name r =>
    exact .bind (hcall (.own trivial rfl rfl)) fun _ _ => .pure trivial
  | update name p plan many =>
    refine .ite_bind (Q := fun _ => True) (fun _ => .pure trivial) (fun _ => howners _ _)
      fun owners _ => ?_
    refine .bind (Q := fun _ => True) (.ite (fun _ => ?_) fun _ => .ite (fun _ => ?_) fun _ => ?_)
      fun out _ => .bind ((StoreAction.judgement I).forIn fun owner _ => ?_)
        fun _ _ => .pure trivial
    · exact .bind (hcall (.count _ _)) fun _ _ => .pure trivial
    · exact .bind (hcall (.own trivial rfl rfl)) fun _ _ => .pure trivial
    · exact .bind (hcall (.own trivial rfl rfl)) fun _ _ => .pure trivial
    · refine .bind ((StoreAction.judgement I).forIn fun e _ => ?_) fun _ _ => .pure trivial
      exact .bind (hedges owner e) fun _ _ => .pure trivial
  | upsert name p edit =>
    exact .bind (hcall (.own trivial rfl rfl)) fun _ _ => .pure trivial
  | delete name p fields =>
    refine .ite_bind (Q := fun _ => True) (fun _ => .pure trivial) (fun _ => howners _ _)
      fun owners _ => .bind (hcall (.own trivial rfl rfl)) fun _ _ => ?_
    refine .bind ((StoreAction.judgement I).forIn fun field _ => ?_) fun _ _ => .pure trivial
    exact .bind (.ite (fun _ => .pure trivial) fun _ => hcall (.unlink _ _))
      fun _ _ => .pure trivial

/-- The calls of a write leave other collections as they are. -/
theorem Issues.collection_run {c : Store.Call} (h : Issues session name c) {n : String}
    (hname : n ≠ name) (hjoins : ∀ field, n ≠ Join.collection field name) (s : Store) :
    (s.run c).store.collection n = s.collection n := by
  cases h with
  | find | count => exact Store.run_collection_of_ne (if_neg hname)
  | own hwrites hc => exact Store.run_collection_of_writes hwrites (hc ▸ hname) s
  | link field p => exact Store.run_collection_of_ne (if_neg (hjoins field))
  | unlink field p => exact Store.run_collection_of_ne (if_neg (hjoins field))

/-- **A write leaves other collections as they are.** -/
theorem collection_run (write : Write) {n : String} (hname : n ≠ write.collection)
    (hjoins : ∀ field, n ≠ Join.collection field write.collection) (w : World) :
    ((write.run session).run.run w).2.store.collection n = w.store.collection n := by
  have hensures : (write.run session).Ensures
      (fun t => t.collection n = w.store.collection n) fun _ => True :=
    write.ensures_run_of_issues fun c hc s hs => (hc.collection_run hname hjoins s).trans hs
  exact (Program.Ensures.run hensures rfl).1

end Write

/-! ### Which objects there are -/

namespace Store

variable {s : Store} {name : String} {p : Predicate} {edit : Edit} {call : Call}

/-- Rewriting records leaves the same ids. -/
theorem isSome_record?_run (hs : s.WellFormed) (hwrites : call.Writes)
    (hrewrites : ∀ w ∈ s.changes call, w.before.isSome ∧ w.after.isSome) (name k : String) :
    ((s.run call).store.record? name k).isSome = (s.record? name k).isSome := by
  -- the session only marks the revisions
  refine (leads_revisions hs ⟨0⟩ name k hwrites).induction
    (P := fun r? => r?.isSome = (s.record? name k).isSome) (fun v hv hbefore => ?_) rfl
  obtain ⟨-, -, w, hw, hwbefore, hwafter⟩ := mem_revisions hv
  obtain ⟨h, h'⟩ := hrewrites w hw
  rw [hwbefore, h] at hbefore
  rw [hwafter, h', hbefore]

theorem isSome_of_mem_rewrites {firstOnly : Bool} {w : Change}
    (hw : w ∈ s.rewrites name firstOnly p edit) : w.before.isSome ∧ w.after.isSome := by
  obtain ⟨current, next, heq, -⟩ := mem_rewrites hw
  rw [heq]
  exact ⟨rfl, rfl⟩

/-- An id that a call does not change keeps its record. -/
theorem record?_run_of_ne (hwrites : call.Writes) (k : String)
    (h : ∀ w ∈ s.changes call, w.id ≠ k) (name : String) :
    (s.run call).store.record? name k = s.record? name k := by
  cases hrun : (s.run call).outcome with
  | error e => exact (run_error hrun).record? name k
  | ok a =>
    rw [record?, (run_ok hrun).collection_of_writes hwrites]
    split
    · exact lookup_applyChanges_of_ne h _
    · rfl

/-- A record is inserted under its id. -/
theorem Quiet.id_of_run_insert (hs : s.Quiet) {r : Record} {a : Unit}
    (h : (s.run (.insert name r none)).outcome = .ok a) : ∃ id, r.id? = some id := by
  have hperform : ((perform (.insert name r none)).run (s.noted "insert" name none)).1 = .ok a := by
    rw [← h]
    exact (congrArg Prod.fst (hs.run_answer (.insert name r none))).symm
  dsimp only [perform, Call.Answer] at hperform
  rw [run_bind, checkSession] at hperform
  cases hid : r.id? with
  | some id => exact ⟨id, rfl⟩
  | none => simp [run_bind, hid, Outcome.ofOption, run_finish] at hperform

/-- An insertion of a record that a predicate and an update describe answers its id. -/
theorem id_of_run_insertSeed {session : Option SessionId} {out : Upserted} {t : Store}
    (h : (insertSeed name p edit session).run s = (.ok out, t)) :
    ∃ id r, out.id = some id ∧ s.insertion p edit = [⟨id, none, some r⟩] := by
  simp only [insertSeed, run_bind, run_finish] at h
  rw [insertion]
  cases hedit : edit.apply true p.seed with
  | error e =>
    rw [hedit] at h
    exact absurd (Prod.mk.inj h).1 (by simp)
  | ok record =>
    simp only [hedit] at h ⊢
    refine ⟨(s.identified record).1, (s.identified record).2, ?_, rfl⟩
    rw [identified]
    cases hid : record.id? with
    | some id =>
      simp only [hid, run_bind, run_pure] at h
      split at h
      · exact (Except.ok.inj (Prod.mk.inj h).1) ▸ rfl
      · exact absurd (Prod.mk.inj h).1 (by simp)
    | none =>
      simp only [hid, run_bind, run_freshId, run_pure] at h
      split at h
      · exact (Except.ok.inj (Prod.mk.inj h).1) ▸ rfl
      · exact absurd (Prod.mk.inj h).1 (by simp)

/-- **What an upsert answers**: the id of a record that it has inserted, or none if it has updated
one. -/
theorem Quiet.upserted (hs : s.Quiet) {out : Upserted}
    (hout : (s.run (.upsert name p edit none)).outcome = .ok out) :
    (out.id = none ∧ ∀ w ∈ s.changes (.upsert name p edit none),
      w.before.isSome ∧ w.after.isSome) ∨
    ∃ id r, out.id = some id ∧ s.changes (.upsert name p edit none) = [⟨id, none, some r⟩] := by
  have hperform : ((perform (.upsert name p edit none)).run (s.noted "upsert" name none)).1 =
      .ok out := by
    rw [← hout]
    exact (congrArg Prod.fst (hs.run_answer (.upsert name p edit none))).symm
  cases hids : matchingIds true p (s.collection name).records with
  | error e =>
    dsimp only [perform, Call.Answer] at hperform
    rw [run_bind, checkSession] at hperform
    simp only [run_pure, run_bind, run_get, run_finish] at hperform
    rw [show ((s.noted "upsert" name none).collection name) = s.collection name from rfl,
      hids] at hperform
    simp at hperform
  | ok ids =>
    rw [perform_upsert (s := s.noted "upsert" name none) hids] at hperform
    cases ids with
    | nil =>
      rw [changes, hids]
      rcases hrun : (insertSeed name p edit none).run (s.noted "upsert" name none) with ⟨r, t⟩
      rw [List.isEmpty_nil, if_pos rfl, hrun] at hperform
      obtain rfl : r = .ok out := hperform
      have hinserted := id_of_run_insertSeed hrun
      exact .inr hinserted
    | cons id rest =>
      rw [changes, hids]
      refine .inl ⟨?_, fun w hw => isSome_of_mem_rewrites hw⟩
      rw [List.isEmpty_cons, if_neg Bool.false_ne_true, run_bind] at hperform
      split at hperform
      · exact (Except.ok.inj hperform) ▸ rfl
      · simp at hperform

end Store

end ObjectEngine
