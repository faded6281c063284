import ObjectEngine.Proofs.Outcome
import ObjectEngine.Proofs.Store.Uniqueness
import ObjectEngine.Proofs.Store.WellFormed

/-!
# The history of a record

A transaction that is given up is taken back write by write, from its undo log. What this does
to one record depends on that record's own history only: on the writes of it, those that the
transaction made and those that others made in between.

`Store.history` reads that history off a run of calls, as a list of `Store.Revision`s. Two
invariants of a run carry everything else: the revisions lead from the record at the start to the
record now (`Store.leads_history`), and those of the transaction are what its undo log holds of
the record, last first (`Store.logged_history`). So the record after the transaction has been
given up is `Store.rewound` of the history (`Store.Abandoned.record?_after`).
-/

namespace ObjectEngine

namespace Store

/-! ### Revisions -/

/-- Whether a call writes records. -/
def Call.Writes : Call → Prop
  | .insert .. | .update .. | .findAndUpdate .. | .upsert .. | .delete .. => True
  | _ => False

/-- One write of one record. -/
structure Revision where
  /-- Whether the transaction in question made it. -/
  inside : Bool
  before : Option Record
  after : Option Record
  deriving Inhabited

/-- The writes of one record that a call makes, as the transaction of a session sees them. -/
def revisions (s : Store) (id : SessionId) (name rid : String) (call : Call) : List Revision :=
  match (s.run call).outcome with
  | .error _ => []
  | .ok _ =>
    if call.collection = name then
      ((s.changes call).filter fun w => w.id = rid).map fun w =>
        ⟨call.session? = some id, w.before, w.after⟩
    else []

/-- **The history of one record** along a run of calls. -/
def history (s : Store) (id : SessionId) (name rid : String) : List Call → List Revision
  | [] => []
  | call :: rest =>
    s.revisions id name rid call ++ (s.run call).store.history id name rid rest

/-- Revisions that lead from one form of a record to another, each from where the one before it
ended. -/
def Leads : Option Record → List Revision → Option Record → Prop
  | r, [], r' => r = r'
  | r, v :: vs, r' => v.before = r ∧ Leads v.after vs r'

theorem leads_append {r r' : Option Record} {vs ws : List Revision} :
    Leads r (vs ++ ws) r' ↔ ∃ m, Leads r vs m ∧ Leads m ws r' := by
  induction vs generalizing r with
  | nil => simp [Leads]
  | cons v vs ih => simp [Leads, ih, and_assoc]

/-- **What every revision passes on** holds at the end if it holds at the start. -/
theorem Leads.induction {P : Option Record → Prop} {first last : Option Record}
    {vs : List Revision} (hleads : Leads first vs last)
    (hvs : ∀ v ∈ vs, P v.before → P v.after) (hfirst : P first) : P last := by
  induction vs generalizing first with
  | nil =>
    obtain rfl : first = last := hleads
    exact hfirst
  | cons v vs ih =>
    obtain ⟨rfl, hrest⟩ := hleads
    obtain ⟨hv, hvs⟩ := List.forall_mem_cons.1 hvs
    exact ih hrest hvs (hv hfirst)

variable {s t : Store} {id : SessionId} {name rid : String} {calls : List Call} {call : Call}

/-! ### Every record is written once by a call -/

/-- The ids that a predicate finds are some of those of the collection, in their order. -/
theorem sublist_matchingIds {firstOnly : Bool} {p : Predicate} {records : Members Record}
    {ids : List String} (h : matchingIds firstOnly p records = .ok ids) :
    List.Sublist ids (Members.keys records) := by
  induction records generalizing ids with
  | nil =>
    obtain rfl : [] = ids := by simpa [matchingIds] using h
    exact .slnil
  | cons first records ih =>
    obtain ⟨key, r⟩ := first
    obtain ⟨b, -, h⟩ := Outcome.bind_eq_ok.1 h
    cases b with
    | false => exact (ih h).cons _
    | true =>
      cases firstOnly with
      | true =>
        obtain rfl : [key] = ids := Except.ok.inj h
        exact (List.nil_sublist _).cons_cons _
      | false =>
        obtain ⟨rest, hrest, h⟩ := Outcome.bind_eq_ok.1 h
        obtain rfl : key :: rest = ids := Except.ok.inj h
        exact (ih hrest).cons_cons _

/-- The ids that are staged are some of those given, in their order. -/
theorem sublist_stage {c : Collection} {edit : Edit} {ids : List String}
    {staged : List (String × Record × Record)} (h : stage name c edit ids = .ok staged) :
    List.Sublist (staged.map Prod.fst) ids := by
  induction ids generalizing staged with
  | nil =>
    obtain rfl : [] = staged := Except.ok.inj h
    exact .slnil
  | cons first ids ih =>
    rw [stage] at h
    split at h
    · exact (ih h).cons _
    · obtain ⟨next, -, h⟩ := Outcome.bind_eq_ok.1 h
      obtain ⟨u, -, h⟩ := Outcome.bind_eq_ok.1 h
      obtain ⟨rest, hrest, h⟩ := Outcome.bind_eq_ok.1 h
      obtain rfl : _ :: rest = staged := Except.ok.inj h
      exact (ih hrest).cons_cons _

/-- The records of some ids are found in the order of the ids. -/
theorem sublist_present (records : Members Record) (ids : List String) :
    List.Sublist ((present records ids).map Prod.fst) ids := by
  unfold present
  induction ids with
  | nil => exact .slnil
  | cons first ids ih =>
    cases h : records.lookup first with
    | none => simpa [h] using ih.cons first
    | some r => simpa [h] using ih

theorem nodup_keys {records : Members Record} (h : records.Sorted) :
    (Members.keys records).Nodup :=
  List.pairwise_map.2 (h.imp fun {m n} hlt (heq : m.1 = n.1) =>
    String.lt_irrefl _ (heq ▸ hlt))

/-- An update rewrites every record once. -/
theorem nodup_rewrites (hs : s.WellFormed) (name : String) (firstOnly : Bool)
    (filter : Predicate) (edit : Edit) :
    ((s.rewrites name firstOnly filter edit).map Change.id).Nodup := by
  unfold rewrites
  cases hids : matchingIds firstOnly filter (s.collection name).records with
  | error e => simp [hids, bind, Except.bind]
  | ok ids =>
    cases hstage : stage name (s.collection name) edit ids with
    | error e => simp [hids, hstage, bind, Except.bind]
    | ok staged =>
      have hnodup : (staged.map Prod.fst).Nodup :=
        (nodup_keys (hs.sorted name)).sublist
          ((sublist_stage hstage).trans (sublist_matchingIds hids))
      simpa [hids, hstage, bind, Except.bind, Function.comp_def] using hnodup

/-- **A call writes every record once.** -/
theorem nodup_changes (hs : s.WellFormed) (call : Call) :
    ((s.changes call).map Change.id).Nodup := by
  cases call with
  | insert name record session =>
    cases h : record.id? <;> simp [changes, h]
  | update name filter edit session => exact nodup_rewrites hs ..
  | findAndUpdate name filter edit session => exact nodup_rewrites hs ..
  | upsert name filter edit session =>
    simp only [changes]
    split
    · rw [insertion]
      split <;> simp
    · exact nodup_rewrites hs ..
  | delete name filter session =>
    simp only [changes]
    split
    · rename_i ids hids
      have hnodup : ((present (s.collection name).records ids).map Prod.fst).Nodup :=
        (nodup_keys (hs.sorted name)).sublist
          ((sublist_present ..).trans (sublist_matchingIds hids))
      simpa [removals, Function.comp_def] using hnodup
    · exact List.nodup_nil
  | _ => exact List.nodup_nil

/-- The changes of one record are at most one. -/
theorem filter_changes (hs : s.WellFormed) (call : Call) (rid : String) :
    ((s.changes call).filter fun w => w.id = rid) = [] ∨
      ∃ w ∈ s.changes call, w.id = rid ∧
        ((s.changes call).filter fun w => w.id = rid) = [w] := by
  have hnodup := nodup_changes hs call
  generalize s.changes call = ws at hnodup
  induction ws with
  | nil => exact .inl rfl
  | cons w ws ih =>
    obtain ⟨hfirst, hrest⟩ := List.nodup_cons.1 hnodup
    by_cases hw : w.id = rid
    · have hnone : (ws.filter fun w => w.id = rid) = [] := by
        refine List.filter_eq_nil_iff.2 fun w' hw' hid => hfirst ?_
        rw [hw, ← of_decide_eq_true hid]
        exact List.mem_map_of_mem hw'
      refine .inr ⟨w, List.mem_cons_self, hw, ?_⟩
      rw [List.filter_cons_of_pos (by simpa using hw), hnone]
    · rw [List.filter_cons_of_neg (by simpa using hw)]
      rcases ih hrest with h | ⟨w', hw', hid, h⟩
      · exact .inl h
      · exact .inr ⟨w', List.mem_cons_of_mem _ hw', hid, h⟩

/-- A revision is a change that the call makes, seen from the transaction. -/
theorem mem_revisions {v : Revision} (hv : v ∈ s.revisions id name rid call) :
    call.collection = name ∧ v.inside = decide (call.session? = some id) ∧
      ∃ w ∈ s.changes call, v.before = w.before ∧ v.after = w.after := by
  unfold revisions at hv
  split at hv
  · exact absurd hv List.not_mem_nil
  · split at hv
    · rename_i hname
      obtain ⟨w, hw, rfl⟩ := List.mem_map.1 hv
      exact ⟨hname, rfl, w, (List.mem_filter.1 hw).1, rfl, rfl⟩
    · exact absurd hv List.not_mem_nil

/-! ### Revisions lead from the record before to the record after -/

/-- A collection after a write. -/
theorem Done.collection_of_writes {a : call.Answer} (hdone : Done s call a t)
    (hwrites : call.Writes) (n : String) :
    t.collection n =
      if n = call.collection then changed (s.changes call) (s.collection n)
      else s.collection n := by
  rw [hdone.collection]
  cases call <;> first | rfl | exact absurd hwrites id

/-- The sessions after a write. -/
theorem Done.sessions_of_writes {a : call.Answer} (hdone : Done s call a t)
    (hwrites : call.Writes) :
    t.sessions = (s.loggedAll call.session?
      ((s.changes call).map (Change.undo call.collection))).sessions := by
  rw [hdone.sessions]
  cases call <;> first | rfl | exact absurd hwrites id

theorem SameContent.record? (h : SameContent s t) (name rid : String) :
    t.record? name rid = s.record? name rid := by
  rw [Store.record?, h.collection]
  rfl

/-- **The step**: the revisions of a call lead from the record before it to the one after. -/
theorem leads_revisions (hs : s.WellFormed) (id : SessionId) (name rid : String)
    (hwrites : call.Writes) :
    Leads (s.record? name rid) (s.revisions id name rid call)
      ((s.run call).store.record? name rid) := by
  unfold revisions
  cases hrun : (s.run call).outcome with
  | error e => exact ((run_error hrun).record? name rid).symm
  | ok a =>
    have hdone := run_ok hrun
    have hafter := hdone.collection_of_writes hwrites name
    by_cases hname : call.collection = name
    · subst hname
      rw [if_pos rfl] at hafter
      have hlookup : (s.run call).store.record? call.collection rid =
          (applyChanges (s.changes call) (s.collection call.collection).records).lookup rid := by
        rw [Store.record?, hafter]
        rfl
      simp only [if_true]
      rcases filter_changes hs call rid with hnone | ⟨w, hw, hid, hone⟩
      · have hne : ∀ w ∈ s.changes call, w.id ≠ rid := fun w hw hid =>
          List.filter_eq_nil_iff.1 hnone w hw (decide_eq_true hid)
        rw [hnone, hlookup, lookup_applyChanges_of_ne hne]
        exact rfl
      · have hnow : (s.run call).store.record? call.collection rid = w.after := by
          rw [hlookup, ← hid]
          exact lookup_applyChanges (fun w hw w' hw' => changes_agree hw hw') hw _
        have hbefore : s.record? call.collection rid = w.before := by
          rw [← hid]
          exact (hdone.admitted w hw).before
        rw [hone, hnow, hbefore]
        exact ⟨rfl, rfl⟩
    · rw [if_neg (Ne.symm hname)] at hafter
      simp only [hname, if_false]
      change s.record? name rid = (s.run call).store.record? name rid
      rw [Store.record?, Store.record?, hafter]

/-- **The run**: the history of a record leads from its start to its end. -/
theorem leads_history (hs : s.WellFormed) (id : SessionId) (name rid : String)
    (hwrites : ∀ call ∈ calls, call.Writes) :
    Leads (s.record? name rid) (s.history id name rid calls)
      ((runAll s calls).record? name rid) := by
  induction calls generalizing s with
  | nil => exact rfl
  | cons call calls ih =>
    have hfirst := leads_revisions hs id name rid (hwrites call List.mem_cons_self)
    have hrest := ih (hs.run call) fun c hc => hwrites c (List.mem_cons_of_mem _ hc)
    exact leads_append.2 ⟨_, hfirst, hrest⟩

/-! ### The undo log -/

/-- What the undo log holds of a revision. -/
def Revision.entry (name rid : String) (v : Revision) : UndoEntry :=
  ⟨name, rid, v.before, if v.before.isSome then v.after else none⟩

/-- The revisions of a transaction. -/
def ownRevisions (vs : List Revision) : List Revision := vs.filter Revision.inside

theorem ownRevisions_append (vs ws : List Revision) :
    ownRevisions (vs ++ ws) = ownRevisions vs ++ ownRevisions ws :=
  List.filter_append ..

/-- The entries of an undo log that are about one record. -/
def entriesOf (name rid : String) (undo : List UndoEntry) : List UndoEntry :=
  undo.filter fun e => e.collection = name ∧ e.id = rid

/-- A transaction that is open on a session, with its undo log. -/
def Open (s : Store) (id : SessionId) (undo : List UndoEntry) : Prop :=
  s.session? id = some ⟨true, undo⟩

/-- A write of the session adds to the undo log. -/
theorem Open.loggedAll_self {undo : List UndoEntry} (h : s.Open id undo)
    (entries : List UndoEntry) :
    (s.loggedAll (some id) entries).Open id (entries.reverse ++ undo) := by
  unfold loggedAll
  induction entries generalizing s undo with
  | nil => exact h
  | cons entry entries ih =>
    have hone : (s.logged (some id) entry).Open id (entry :: undo) := by
      have hid : s.session? id = some ⟨true, undo⟩ := h
      simp [Open, logged, hid, session?_setSession]
    simpa using ih hone

/-- A write from elsewhere does not. -/
theorem Open.loggedAll_of_ne {undo : List UndoEntry} (h : s.Open id undo)
    {session : Option SessionId} (hne : session ≠ some id) (entries : List UndoEntry) :
    (s.loggedAll session entries).Open id undo := by
  unfold loggedAll
  induction entries generalizing s with
  | nil => exact h
  | cons entry entries ih =>
    refine ih ?_
    simp only [logged]
    split
    · exact h
    · rename_i other
      have hother : id ≠ other := fun he => hne (he ▸ rfl)
      split
      · split
        · rw [Open, session?_setSession, if_neg hother]
          exact h
        · exact h
      · exact h

/-- **The undo log of a transaction** holds its revisions of a record, last first. -/
def Logged (s : Store) (id : SessionId) (name rid : String) (vs : List Revision) : Prop :=
  ∃ undo, s.Open id undo ∧
    entriesOf name rid undo = ((ownRevisions vs).map (Revision.entry name rid)).reverse

/-- The entries about one record that the writes of a call add. -/
theorem entriesOf_changes (name rid collection : String) (ws : List Change) :
    entriesOf name rid (ws.map (Change.undo collection)) =
      if collection = name then
        (ws.filter fun w => w.id = rid).map fun w =>
          Revision.entry name rid ⟨true, w.before, w.after⟩
      else [] := by
  unfold entriesOf
  rw [List.filter_map]
  split
  case isTrue hname =>
    subst hname
    have hpred : ((fun e : UndoEntry => decide (e.collection = collection ∧ e.id = rid)) ∘
        Change.undo collection) = fun w => decide (w.id = rid) := by
      funext w
      exact decide_eq_decide.2 (and_iff_right rfl)
    rw [hpred]
    refine List.map_congr_left fun w hw => ?_
    have hid : w.id = rid := by simpa using (List.mem_filter.1 hw).2
    simp [Change.undo, Revision.entry, hid]
  case isFalse hname =>
    refine List.map_eq_nil_iff.2 (List.filter_eq_nil_iff.2 fun w _ h => hname ?_)
    exact (of_decide_eq_true h).1

/-- **The step**: a write of the transaction adds its revisions to the log, and a write from
elsewhere adds nothing. -/
theorem Logged.run {vs : List Revision} (h : s.Logged id name rid vs)
    (hwrites : call.Writes) :
    (s.run call).store.Logged id name rid (vs ++ s.revisions id name rid call) := by
  obtain ⟨undo, hopen, hundo⟩ := h
  unfold revisions
  cases hrun : (s.run call).outcome with
  | error e =>
    refine ⟨undo, (session?_congr (run_error hrun).sessions id).trans hopen, ?_⟩
    simpa using hundo
  | ok a =>
    have hsessions := (run_ok hrun).sessions_of_writes hwrites
    by_cases hin : call.session? = some id
    · rw [hin] at hsessions
      refine ⟨_, (session?_congr hsessions id).trans (hopen.loggedAll_self _), ?_⟩
      have hnew := entriesOf_changes name rid call.collection (s.changes call)
      unfold entriesOf at hnew hundo ⊢
      rw [List.filter_append, List.filter_reverse, hnew, hundo]
      by_cases hname : call.collection = name
      · have hown : ownRevisions (((s.changes call).filter fun w => w.id = rid).map fun w =>
            ⟨true, w.before, w.after⟩) =
            ((s.changes call).filter fun w => w.id = rid).map fun w =>
              ⟨true, w.before, w.after⟩ := by
          refine List.filter_eq_self.2 fun v hv => ?_
          obtain ⟨w, -, rfl⟩ := List.mem_map.1 hv
          rfl
        simp only [hname, hin, if_true, decide_true, ownRevisions_append, hown, List.map_append,
          List.map_map, List.reverse_append]
        rfl
      · simp [hname, ownRevisions]
    · refine ⟨undo, (session?_congr hsessions id).trans (hopen.loggedAll_of_ne hin _), ?_⟩
      by_cases hname : call.collection = name
      · simpa [hname, hin, ownRevisions, List.filter_map, Function.comp_def] using hundo
      · simpa [hname] using hundo

/-- **The run**: the undo log holds the transaction's part of the history. -/
theorem Logged.runAll {vs : List Revision} (h : s.Logged id name rid vs)
    (hwrites : ∀ call ∈ calls, call.Writes) :
    (runAll s calls).Logged id name rid (vs ++ s.history id name rid calls) := by
  induction calls generalizing s vs with
  | nil =>
    rw [history, List.append_nil]
    exact h
  | cons call calls ih =>
    have hfirst := h.run (hwrites call List.mem_cons_self)
    have hrest := ih hfirst fun c hc => hwrites c (List.mem_cons_of_mem _ hc)
    rwa [List.append_assoc] at hrest

/-! ### Taking writes back -/

/-- A record after one write of it has been taken back. -/
def takenBack (before after current : Option Record) : Option Record :=
  match before, after, current with
  | none, _, _ => none
  | some previous, none, none => some previous
  | some previous, some written, some current =>
    some ((UndoEntry.keysOf previous written).foldl
      (UndoEntry.revertMember previous written) current)
  | some _, _, current => current

/-- **A record after the revisions of a transaction have been taken back**, from the last to the
first. -/
def rewound (vs : List Revision) (current : Option Record) : Option Record :=
  vs.foldr (fun v current => if v.inside then takenBack v.before v.after current else current)
    current

theorem lookup_revert (entry : UndoEntry) (c : Collection) :
    (entry.revert c).records.lookup entry.id =
      takenBack entry.previous entry.written (c.records.lookup entry.id) := by
  unfold UndoEntry.revert
  split
  case h_1 hprevious =>
    rw [hprevious]
    exact (Members.lookup_erase ..).trans (if_pos rfl)
  case h_2 previous hprevious hwritten =>
    rw [hprevious, hwritten]
    cases hcurrent : c.records.lookup entry.id with
    | none => exact (Members.lookup_insert ..).trans (if_pos rfl)
    | some current => exact hcurrent
  case h_3 previous written hprevious hwritten =>
    rw [hprevious, hwritten]
    cases hcurrent : c.records.lookup entry.id with
    | none => exact hcurrent
    | some current => exact (Members.lookup_insert ..).trans (if_pos rfl)

/-- **To revert writes concerns a record through the entries about it only.** -/
theorem lookup_revertAll (name rid : String) (entries : List UndoEntry) (c : Collection) :
    (revertAll name entries c).records.lookup rid =
      (entriesOf name rid entries).foldl
        (fun current e => takenBack e.previous e.written current) (c.records.lookup rid) := by
  unfold revertAll entriesOf
  induction entries generalizing c with
  | nil => rfl
  | cons entry entries ih =>
    rw [List.foldl_cons, ih]
    by_cases hname : entry.collection = name
    · rw [if_pos hname]
      by_cases hid : entry.id = rid
      · rw [List.filter_cons_of_pos (by simp [hname, hid]), List.foldl_cons, ← hid,
          lookup_revert]
      · rw [List.filter_cons_of_neg (by simp [hid]), lookup_revert_of_ne (Ne.symm hid)]
    · rw [if_neg hname, List.filter_cons_of_neg (by simp [hname])]

/-- To revert the log of a transaction is to rewind its revisions. -/
theorem foldl_entries (vs : List Revision) (name rid : String) (current : Option Record) :
    ((ownRevisions vs).map (Revision.entry name rid)).reverse.foldl
      (fun current e => takenBack e.previous e.written current) current = rewound vs current := by
  have hentry (v : Revision) (r : Option Record) :
      takenBack v.before (if v.before.isSome then v.after else none) r =
        takenBack v.before v.after r := by
    cases hbefore : v.before <;> rfl
  rw [List.foldl_reverse, List.foldr_map, ownRevisions, List.foldr_filter, rewound]
  simp only [Revision.entry, hentry]

/-- The log of an open transaction is reverted when it is given up. -/
theorem Open.rolledBack {undo : List UndoEntry} (h : s.Open id undo)
    (hcloses : call = .abort id ∨ call = .endSession id) : s.rolledBack call = undo := by
  have hsession : s.session? id = some ⟨true, undo⟩ := h
  rcases hcloses with rfl | rfl
  · simp [Store.rolledBack, hsession]
  · simp [Store.rolledBack, hsession, Option.filter_some]

theorem collectionAfter_of_closes (hcloses : call = .abort id ∨ call = .endSession id) :
    s.collectionAfter call name = revertAll name (s.rolledBack call) (s.collection name) := by
  rcases hcloses with rfl | rfl <;> rfl

/-- **A record after its transaction has been given up** is rewound. -/
theorem Logged.lookup_rolledBack {vs : List Revision} (h : s.Logged id name rid vs)
    (hcloses : call = .abort id ∨ call = .endSession id) :
    (s.collectionAfter call name).records.lookup rid = rewound vs (s.record? name rid) := by
  obtain ⟨undo, hopen, hundo⟩ := h
  rw [collectionAfter_of_closes hcloses, hopen.rolledBack hcloses, lookup_revertAll, hundo,
    foldl_entries]
  rfl

/-! ### Transactions that are given up -/

/-- A transaction from its start to its end without a commit, with every write that is made
in the meantime, by its session or by others. -/
structure Abandoned (s : Store) (id : SessionId) (calls : List Call) (closing : Call) : Prop where
  wellFormed : s.WellFormed
  starts : ∃ a, (s.run (.startTransaction id)).outcome = .ok a
  writes : ∀ call ∈ calls, call.Writes
  closes : closing = .abort id ∨ closing = .endSession id
  succeeds : ∃ a, ((runAll s (.startTransaction id :: calls)).run closing).outcome = .ok a

/-- A transaction starts on an active session only. -/
theorem exists_session_of_started {a : (Call.startTransaction id).Answer}
    (h : (s.run (.startTransaction id)).outcome = .ok a) : ∃ state, s.session? id = some state := by
  refine Option.ne_none_iff_exists'.1 fun hnone => ?_
  have hwork : (perform (.startTransaction id)).run (s.noted "startTransaction" "" (some id)) =
      (.error (inactive id), s.noted "startTransaction" "" (some id)) := by
    have hnoted : (s.noted "startTransaction" "" (some id)).session? id = none := hnone
    change ExceptT.run (α := Unit) (perform (.startTransaction id)) _ = _
    dsimp only [perform, Call.Answer]
    simp only [run_bind, run_get, hnoted, run_throw]
  change ((answer (.startTransaction id)).run s).1 = _ at h
  rw [answer, run_bind] at h
  rcases run_begin_cases s (Call.startTransaction id).operation
      (Call.startTransaction id).collection (Call.startTransaction id).session? with
    hbegin | ⟨e, t, hbegin, -⟩
  · rw [hbegin] at h
    exact absurd ((congrArg Prod.fst hwork).symm.trans h) (by simp)
  · rw [hbegin] at h
    exact absurd h (by simp)

namespace Abandoned

variable {closing : Call}

/-- The store in which the transaction has started. -/
abbrev started (s : Store) (id : SessionId) : Store := (s.run (.startTransaction id)).store

/-- A transaction starts with the records of before. -/
theorem record?_started (s : Store) (id : SessionId) (name rid : String) :
    (started s id).record? name rid = s.record? name rid := by
  cases hrun : (s.run (.startTransaction id)).outcome with
  | error e => exact (run_error hrun).record? name rid
  | ok a =>
    rw [Store.record?, (run_ok hrun).collection]
    have hafter : s.collectionAfter (.startTransaction id) name = s.collection name :=
      ite_changed_nil (name = "") (s.collection name)
    rw [hafter]
    rfl

/-- A transaction starts with an empty log. -/
theorem logged_started (h : Abandoned s id calls closing) (name rid : String) :
    (started s id).Logged id name rid [] := by
  obtain ⟨a, hstarts⟩ := h.starts
  obtain ⟨state, hstate⟩ := exists_session_of_started hstarts
  have hopen : (started s id).Open id [] := by
    rw [Open, session?_congr (run_ok hstarts).sessions]
    rw [session?_setSession, if_pos rfl, hstate]
    rfl
  exact ⟨[], hopen, rfl⟩

/-- The history of a record leads from what it was before to what it is at the end. -/
theorem leads (h : Abandoned s id calls closing) (name rid : String) :
    Leads (s.record? name rid) ((started s id).history id name rid calls)
      ((runAll s (.startTransaction id :: calls)).record? name rid) := by
  have hleads := leads_history (h.wellFormed.run (.startTransaction id)) id name rid h.writes
  rwa [record?_started] at hleads

/-- **A record after the transaction has been given up** is the one of before, rewound. -/
theorem record?_after (h : Abandoned s id calls closing) (name rid : String) :
    (runAll s (.startTransaction id :: calls ++ [closing])).record? name rid =
      rewound ((started s id).history id name rid calls)
        ((runAll s (.startTransaction id :: calls)).record? name rid) := by
  have hlogged := (h.logged_started name rid).runAll h.writes
  obtain ⟨a, hclosed⟩ := h.succeeds
  rw [List.nil_append] at hlogged
  rw [runAll_append, Store.record?, (run_ok hclosed).collection]
  exact hlogged.lookup_rolledBack h.closes

end Abandoned

end Store

end ObjectEngine
