import ObjectEngine.Proofs.Outcome
import ObjectEngine.Proofs.Store.Effect

/-!
# Calls that succeed

What a call changes is read off the store before it (`Store.Done`), and an update that cannot be
carried out changes nothing. This file says what is known only when a call has succeeded, whatever
faults were set up: an update has found all records that match (`Store.mem_matchingIds_iff`) and
given each of them its new form (`Store.run_update_staged`, `Store.record?_run_update`), and a
listing answers the indexes that are there (`Store.run_listIndexes`).
-/

namespace ObjectEngine

namespace Store

variable {s : Store} {name id : String} {p : Predicate} {edit : Edit} {r : Record}

/-! ### Matches -/

/-- **The ids that a predicate finds** are those of all records that satisfy it. -/
theorem mem_matchingIds_iff {records : Members Record} {ids : List String}
    (h : matchingIds false p records = .ok ids) :
    id ∈ ids ↔ ∃ r, (id, r) ∈ records ∧ (p.eval none r).1 = .ok true := by
  refine ⟨mem_matchingIds h, ?_⟩
  induction records generalizing ids with
  | nil => simp
  | cons first rest ih =>
    obtain ⟨key, x⟩ := first
    rintro ⟨r, hr, hp⟩
    obtain ⟨b, hb, h⟩ := Outcome.bind_eq_ok.1 h
    cases b with
    | false =>
      rcases List.mem_cons.1 hr with heq | hr
      · obtain ⟨rfl, rfl⟩ := Prod.mk.inj heq
        exact absurd (hb.symm.trans hp) (by simp)
      · exact ih h ⟨r, hr, hp⟩
    | true =>
      obtain ⟨ids', hids', h⟩ := Outcome.bind_eq_ok.1 h
      obtain rfl := Except.ok.inj h
      rcases List.mem_cons.1 hr with heq | hr
      · exact (Prod.mk.inj heq).1 ▸ List.mem_cons_self
      · exact List.mem_cons_of_mem _ (ih hids' ⟨r, hr, hp⟩)

/-- A predicate that can be evaluated on every record finds some ids. -/
theorem exists_matchingIds {records : Members Record} (firstOnly : Bool)
    (h : ∀ m ∈ records, ∃ b, (p.eval none m.2).1 = .ok b) :
    ∃ ids, matchingIds firstOnly p records = .ok ids := by
  induction records with
  | nil => exact ⟨[], rfl⟩
  | cons first rest ih =>
    obtain ⟨⟨b, hb⟩, hrest⟩ := List.forall_mem_cons.1 h
    obtain ⟨ids, hids⟩ := ih hrest
    rw [matchingIds, hb]
    cases b with
    | false => exact ⟨ids, hids⟩
    | true =>
      cases firstOnly with
      | true => exact ⟨[first.1], rfl⟩
      | false => exact ⟨first.1 :: ids, by rw [hids]; rfl⟩

/-! ### Calls -/

/-- A call that succeeds has begun and has been performed. -/
theorem perform_of_run {c : Call} {a : c.Answer} (h : (s.run c).outcome = .ok a) :
    ((perform c).run (s.noted c.operation c.collection c.session?)).1 = .ok a := by
  have hanswer : ((answer c).run s).1 = .ok a := h
  rw [answer, run_bind] at hanswer
  rcases run_begin_cases s c.operation c.collection c.session? with
    hbegin | ⟨e, t, hbegin, -⟩
  · rwa [hbegin] at hanswer
  · rw [hbegin] at hanswer
    exact absurd hanswer (by simp)

/-- **A listing** answers the indexes that are there, and changes nothing. -/
theorem run_listIndexes {indexes : List StoreIndex}
    (h : (s.run (.listIndexes name)).outcome = .ok indexes) :
    indexes = Members.values (s.collection name).indexes ∧
      SameContent s (s.run (.listIndexes name)).store := by
  have hdone := run_ok h
  exact ⟨(Except.ok.inj (perform_of_run (c := .listIndexes name) h)).symm,
    fun n => (hdone.collection n).trans (ite_changed_nil _ (s.collection n)), hdone.sessions,
    hdone.nextSession⟩

/-- **An update that succeeds** has found its records and staged all of them. -/
theorem run_update_staged {n : Nat} (h : (s.run (.update name p edit none)).outcome = .ok n) :
    ∃ ids staged, matchingIds false p (s.collection name).records = .ok ids ∧
      stage name (s.collection name) edit ids = .ok staged := by
  have hrun : (ExceptT.run (α := Nat) (perform (.update name p edit none))
      (s.noted "update" name none)).1 = .ok n := perform_of_run h
  have hcheck : (checkSession none).run (s.noted "update" name none) =
      (.ok ⟨⟩, s.noted "update" name none) := rfl
  have hsame : (s.noted "update" name none).collection name = s.collection name := rfl
  simp only [perform, run_bind, hcheck, run_get, run_finish, hsame] at hrun
  cases hids : matchingIds false p (s.collection name).records with
  | error e => simp [hids] at hrun
  | ok ids =>
    simp only [hids, run_updateIds, hsame] at hrun
    cases hstage : stage name (s.collection name) edit ids with
    | error e => simp [hstage] at hrun
    | ok staged => exact ⟨ids, staged, rfl, hstage⟩

/-- **What an update makes of the records**: each that its predicate holds of has its new form. -/
theorem record?_run_update {n : Nat} (h : (s.run (.update name p edit none)).outcome = .ok n)
    (hr : s.record? name id = some r) (hp : (p.eval none r).1 = .ok true) :
    ∃ r', edit.apply false r = .ok r' ∧
      (s.run (.update name p edit none)).store.record? name id = some r' := by
  obtain ⟨ids, staged, hids, hstage⟩ := run_update_staged h
  have hmem : id ∈ ids := (mem_matchingIds_iff hids).2 ⟨r, Members.mem_of_lookup hr, hp⟩
  obtain ⟨r', hr'⟩ := exists_mem_stage hstage hmem hr
  have hchange : ⟨id, some r, some r'⟩ ∈ s.rewrites name false p edit := by
    rw [rewrites_eq hids hstage]
    exact List.mem_map.2 ⟨_, hr', rfl⟩
  refine ⟨r', (mem_stage hstage hr').2.2.1, ?_⟩
  rw [record?, (run_ok h).collection]
  exact (congrArg (fun c : Collection => c.records.lookup id) (if_pos rfl)).trans
    (lookup_applyChanges (fun w hw w' hw' => rewrites_agree hw hw') hchange _)

/-- An id without a record has none after an update. -/
theorem record?_run_update_none {n : Nat}
    (h : (s.run (.update name p edit none)).outcome = .ok n) (hr : s.record? name id = none) :
    (s.run (.update name p edit none)).store.record? name id = none := by
  rw [record?, (run_ok h).collection]
  refine (congrArg (fun c : Collection => c.records.lookup id) (if_pos rfl)).trans
    ((lookup_applyChanges_of_ne (fun w hw he => ?_) _).trans hr)
  have hw : w ∈ s.rewrites name false p edit := hw
  obtain ⟨current, -, -, hcurrent, -⟩ := mem_rewrites hw
  exact absurd ((he ▸ hcurrent).symm.trans hr) (by simp)

end Store

end ObjectEngine
