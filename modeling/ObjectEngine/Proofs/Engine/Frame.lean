import ObjectEngine.Proofs.Engine.Permission
import ObjectEngine.Proofs.Engine.Reads
import ObjectEngine.Proofs.Store.WellFormed

/-!
# What a caller may not write stays

A stored document whose list of writers does not admit a caller is to survive whatever the
caller asks for, and so are the edges of its relations. `Store.Owns` says which records that
concerns: the document itself and, where no other record has its id, the edges that its id
owns. `Store.Untouched` is the invariant that carries this along: these records are the ones
they were, and no write that an open transaction may still take back concerns one of them.

The invariant depends on the content of a store alone, and a call keeps it if it changes none
of these records (`Store.Untouched.of_done`). To take a transaction back keeps it as well
(`Store.Untouched.of_revertAll`): an entry of the undo log merges two records member by member,
and neither of the two is owned.
-/

namespace ObjectEngine

namespace Store

/-- **The document of an id**: the record stored under it has this id, and no other has. -/
structure IsDocument (s : Store) (name id : String) (r : Record) : Prop where
  stored : (s.collection name).records.lookup id = some r
  named : r.id? = some id
  alone : ∀ id' r', (s.collection name).records.lookup id' = some r' → r'.id? = some id → id' = id

/-- **What the document `k` of class `C` owns** in a store: the record itself and, if it is the
one with its id, the records with this id and the edges of its relations. -/
def Owns (s : Store) (C k name id : String) (r : Record) : Prop :=
  (name = C ∧ id = k) ∨ (∃ r₀, s.IsDocument C k r₀) ∧
    (name = C ∧ r.id? = some k ∨
      ∃ field, name = Join.collection field C ∧ r.string? Join.owningKey = some k)

variable {s₀ s t : Store} {C k : String}

/-- A write of a transaction that may be taken back without harm. -/
def Harmless (s₀ : Store) (C k : String) (entry : UndoEntry) : Prop :=
  ∀ r, s₀.Owns C k entry.collection entry.id r → entry.previous ≠ some r ∧
    (s₀.collection entry.collection).records.lookup entry.id ≠ some r

/-- **The invariant**: what the document owns is what it owned in `s₀`, and the sessions started
since can take nothing of it back. -/
structure Untouched (s₀ : Store) (C k : String) (s : Store) : Prop where
  sorted : ∀ name, (s.collection name).records.Sorted
  started : s₀.nextSession ≤ s.nextSession
  kept : ∀ name id r, s₀.Owns C k name id r →
    ((s.collection name).records.lookup id = some r ↔
      (s₀.collection name).records.lookup id = some r)
  harmless : ∀ entry ∈ s.sessions, s₀.nextSession ≤ entry.1.number →
    ∀ e ∈ entry.2.undo, Harmless s₀ C k e

/-- A change of none of the records that the document owns. -/
def Change.Spares (s₀ : Store) (C k name : String) (w : Change) : Prop :=
  ∀ r, s₀.Owns C k name w.id r → w.before ≠ some r ∧ w.after ≠ some r

namespace Untouched

/-- A well-formed store is as it is. -/
theorem refl (h : s₀.WellFormed) (C k : String) : Untouched s₀ C k s₀ where
  sorted := h.sorted
  started := Nat.le_refl _
  kept _ _ _ _ := Iff.rfl
  harmless entry hentry hstarted := absurd (h.numbered entry hentry) (Nat.not_lt.2 hstarted)

theorem stable (s₀ : Store) (C k : String) : Store.Stable (Untouched s₀ C k) := by
  intro s t hsame h
  refine ⟨fun name => ?_, hsame.nextSession ▸ h.started, fun name id r hr => ?_, ?_⟩
  · rw [hsame.collection]
    exact h.sorted name
  · rw [hsame.collection]
    exact h.kept name id r hr
  · rw [hsame.sessions]
    exact h.harmless

/-! ### Sessions -/

/-- A session that is replaced by one without harm. -/
theorem harmless_setSession (h : Untouched s₀ C k s) (id : SessionId) {session : Session}
    (hsession : s₀.nextSession ≤ id.number → ∀ e ∈ session.undo, Harmless s₀ C k e) :
    ∀ entry ∈ (s.setSession id session).sessions, s₀.nextSession ≤ entry.1.number →
      ∀ e ∈ entry.2.undo, Harmless s₀ C k e := by
  intro entry hentry
  obtain ⟨old, hold, rfl⟩ := List.mem_map.1 hentry
  split
  · exact hsession
  · exact h.harmless old hold

/-- The log of an open session. -/
theorem harmless_of_session? (h : Untouched s₀ C k s) {id : SessionId} {session : Session}
    (hid : s.session? id = some session) (hstarted : s₀.nextSession ≤ id.number) :
    ∀ e ∈ session.undo, Harmless s₀ C k e := by
  obtain ⟨entry, hfind, rfl⟩ := Option.map_eq_some_iff.1 hid
  have hkey : entry.1 = id := by simpa using List.find?_some hfind
  exact h.harmless entry (List.mem_of_find?_eq_some hfind) (hkey ▸ hstarted)

/-- To log a write without harm. -/
theorem logged (h : Untouched s₀ C k s) (session : Option SessionId) {entry : UndoEntry}
    (hentry : Harmless s₀ C k entry) : Untouched s₀ C k (s.logged session entry) := by
  have hsame : (s.logged session entry).collections = s.collections := logged_collections ..
  refine ⟨fun name => ?_, ?_, fun name id r hr => ?_, ?_⟩
  · rw [collection_congr hsame]
    exact h.sorted name
  · rw [logged_nextSession]
    exact h.started
  · rw [collection_congr hsame]
    exact h.kept name id r hr
  · unfold Store.logged
    split
    · exact h.harmless
    · rename_i id
      split
      · rename_i state hstate
        split
        · refine h.harmless_setSession id fun hstarted e he => ?_
          rcases List.mem_cons.1 he with rfl | he
          · exact hentry
          · exact h.harmless_of_session? hstate hstarted e he
        · exact h.harmless
      · exact h.harmless

theorem loggedAll (h : Untouched s₀ C k s) (session : Option SessionId)
    {entries : List UndoEntry} (hentries : ∀ e ∈ entries, Harmless s₀ C k e) :
    Untouched s₀ C k (s.loggedAll session entries) := by
  unfold Store.loggedAll
  induction entries generalizing s with
  | nil => exact h
  | cons entry rest ih =>
    exact ih (h.logged session (hentries entry List.mem_cons_self))
      fun e he => hentries e (List.mem_cons_of_mem _ he)

/-! ### Writes -/

/-- **A call keeps the invariant** if it changes records, and none that the document owns. -/
theorem of_done {call : Call} {a : call.Answer} (h : Untouched s₀ C k s) (hdone : Done s call a t)
    (hcollection : ∀ n, s.collectionAfter call n =
      if n = call.collection then changed (s.changes call) (s.collection n) else s.collection n)
    (hsessions : s.sessionsAfter call = (s.loggedAll call.session?
      ((s.changes call).map (Change.undo call.collection))).sessions)
    (hnext : s.nextSessionAfter call = s.nextSession)
    (hspares : ∀ w ∈ s.changes call, w.Spares s₀ C k call.collection) : Untouched s₀ C k t := by
  -- a changed record was not owned in `s₀` either, or it would be there still
  have hinitial (w : Change) (hw : w ∈ s.changes call) (r : Record)
      (hr : s₀.Owns C k call.collection w.id r) :
      (s₀.collection call.collection).records.lookup w.id ≠ some r := fun hlookup =>
    (hspares w hw r hr).1 ((hdone.admitted w hw).before.symm.trans ((h.kept _ _ _ hr).2 hlookup))
  refine ⟨fun name => ?_, ?_, fun name id r hr => ?_, ?_⟩
  · rw [hdone.collection, hcollection]
    split
    · exact sorted_applyChanges (h.sorted name) _
    · exact h.sorted name
  · rw [hdone.nextSession, hnext]
    exact h.started
  · rw [hdone.collection, hcollection]
    split
    · rename_i hname
      subst hname
      by_cases hid : ∃ w ∈ s.changes call, w.id = id
      · obtain ⟨w, hw, rfl⟩ := hid
        have hafter : (changed (s.changes call) (s.collection call.collection)).records.lookup
            w.id = w.after :=
          lookup_applyChanges (fun w hw w' hw' => changes_agree hw hw') hw _
        rw [hafter]
        exact iff_of_false (hspares w hw r hr).2 (hinitial w hw r hr)
      · have hsame : (changed (s.changes call) (s.collection call.collection)).records.lookup id =
            (s.collection call.collection).records.lookup id :=
          lookup_applyChanges_of_ne (fun w hw he => hid ⟨w, hw, he⟩) _
        rw [hsame]
        exact h.kept _ id r hr
    · exact h.kept name id r hr
  · rw [hdone.sessions, hsessions]
    refine (h.loggedAll call.session? fun e he => ?_).harmless
    obtain ⟨w, hw, rfl⟩ := List.mem_map.1 he
    exact fun r hr => ⟨(hspares w hw r hr).1, hinitial w hw r hr⟩

end Untouched

/-! ### Transactions -/

/-- A record that is reverted is made of the record as it is and as it was. -/
theorem lookup_reverted (previous written current : Record) (keys : List String) (k : String) :
    (keys.foldl (UndoEntry.revertMember previous written) current).lookup k = current.lookup k ∨
      (keys.foldl (UndoEntry.revertMember previous written) current).lookup k =
        previous.lookup k := by
  rw [lookup_foldl_revertMember, revertedValue]
  split
  · split
    · exact .inl rfl
    · exact .inr rfl
  · exact .inl rfl

/-- A record made of two others is owned only if one of them is. -/
theorem Owns.of_merged {name id : String} {r a b : Record} (h : s₀.Owns C k name id r)
    (hmerged : ∀ key, r.lookup key = a.lookup key ∨ r.lookup key = b.lookup key) :
    s₀.Owns C k name id a ∨ s₀.Owns C k name id b := by
  have hstring (key : String) :
      r.string? key = a.string? key ∨ r.string? key = b.string? key :=
    (hmerged key).imp (fun h => congrArg (Option.bind · Datum.asString?) h)
      fun h => congrArg (Option.bind · Datum.asString?) h
  rcases h with h | ⟨hdocument, ⟨hname, hid⟩ | ⟨field, hname, howner⟩⟩
  · exact .inl (.inl h)
  · refine (hstring Record.idKey).imp (fun h => ?_) fun h => ?_
    · exact .inr ⟨hdocument, .inl ⟨hname, h.symm.trans hid⟩⟩
    · exact .inr ⟨hdocument, .inl ⟨hname, h.symm.trans hid⟩⟩
  · refine (hstring Join.owningKey).imp (fun h => ?_) fun h => ?_
    · exact .inr ⟨hdocument, .inr ⟨field, hname, h.symm.trans howner⟩⟩
    · exact .inr ⟨hdocument, .inr ⟨field, hname, h.symm.trans howner⟩⟩

/-- **One write taken back** keeps what the document owns, if it is one without harm. -/
theorem kept_revert {entry : UndoEntry} (hentry : Harmless s₀ C k entry) {c : Collection}
    (hkept : ∀ id r, s₀.Owns C k entry.collection id r → (c.records.lookup id = some r ↔
      (s₀.collection entry.collection).records.lookup id = some r)) (id : String) (r : Record)
    (hr : s₀.Owns C k entry.collection id r) :
    (entry.revert c).records.lookup id = some r ↔
      (s₀.collection entry.collection).records.lookup id = some r := by
  -- the record of the entry is owned neither before it is reverted nor after
  by_cases hid : id = entry.id
  · subst hid
    obtain ⟨hprevious, hinitial⟩ := hentry r hr
    have hcurrent : c.records.lookup entry.id ≠ some r := fun h => hinitial ((hkept _ r hr).1 h)
    refine iff_of_false (fun hreverted => ?_) hinitial
    unfold UndoEntry.revert at hreverted
    split at hreverted
    · rw [Members.lookup_erase, if_pos rfl] at hreverted
      exact absurd hreverted (by simp)
    · rename_i previous hsome _
      split at hreverted
      · exact hcurrent hreverted
      · rw [Members.lookup_insert, if_pos rfl] at hreverted
        exact hprevious (hsome.trans hreverted)
    · rename_i previous written hsome _
      split at hreverted
      · exact hcurrent hreverted
      · rename_i current hlookup
        rw [Members.lookup_insert, if_pos rfl] at hreverted
        obtain rfl := Option.some.inj hreverted
        -- the record is merged from two others, and would be owned only if one is
        rcases hr.of_merged (lookup_reverted previous written current _) with h | h
        · exact (hentry current h).2 ((hkept _ current h).1 hlookup)
        · exact (hentry previous h).1 hsome
  · rw [lookup_revert_of_ne hid]
    exact hkept id r hr

namespace Untouched

/-- **A transaction taken back** keeps the invariant. -/
theorem of_revertAll (h : Untouched s₀ C k s) {entries : List UndoEntry}
    (hentries : ∀ e ∈ entries, Harmless s₀ C k e)
    (hcollection : ∀ n, t.collection n = revertAll n entries (s.collection n))
    (hnext : t.nextSession = s.nextSession)
    (hsessions : ∀ entry ∈ t.sessions, s₀.nextSession ≤ entry.1.number →
      ∀ e ∈ entry.2.undo, Harmless s₀ C k e) : Untouched s₀ C k t := by
  have hkept (n id : String) (r : Record) (hr : s₀.Owns C k n id r) :
      (revertAll n entries (s.collection n)).records.lookup id = some r ↔
        (s₀.collection n).records.lookup id = some r := by
    refine List.foldlRecOn (motive := fun c : Collection => ∀ id r, s₀.Owns C k n id r →
      (c.records.lookup id = some r ↔ (s₀.collection n).records.lookup id = some r)) entries _
      (h.kept n) (fun c hc e he => ?_) id r hr
    split
    · rename_i hname
      subst hname
      exact kept_revert (hentries e he) hc
    · exact hc
  refine ⟨fun name => ?_, hnext ▸ h.started, fun name id r hr => ?_, hsessions⟩
  · rw [hcollection]
    exact sorted_revertAll name entries (h.sorted name)
  · rw [hcollection]
    exact hkept name id r hr

/-! ### Calls on sessions -/

variable (s₀ C k)

/-- A session that is started is one started since. -/
theorem ensures_startSession : StoreAction.Ensures (Untouched s₀ C k)
    (fun id : SessionId => s₀.nextSession ≤ id.number) (Program.call .startSession) := by
  refine StoreAction.ensures_of_done (stable s₀ C k) fun s id t h hdone => ⟨?_, ?_⟩
  · have hsame (name : String) : t.collection name = s.collection name :=
      (hdone.collection name).trans (ite_changed_nil _ _)
    refine ⟨fun name => ?_, ?_, fun name => ?_, fun entry hentry => ?_⟩
    · exact hsame name ▸ h.sorted name
    · exact hdone.nextSession ▸ Nat.le_succ_of_le h.started
    · exact hsame name ▸ h.kept name
    · rw [hdone.sessions] at hentry
      rcases List.mem_append.1 hentry with hentry | hentry
      · exact h.harmless entry hentry
      · obtain rfl := List.mem_singleton.1 hentry
        exact fun _ e he => absurd he List.not_mem_nil
  · obtain rfl : id = ⟨s.nextSession⟩ := hdone.answers
    exact h.started

/-- A call that resets a session. -/
theorem of_setSession (h : Untouched s₀ C k s) (hcollection : ∀ n, t.collection n = s.collection n)
    (hnext : t.nextSession = s.nextSession) {id : SessionId} {session : Session}
    (hsessions : t.sessions = (s.setSession id session).sessions) (hempty : session.undo = []) :
    Untouched s₀ C k t := by
  refine ⟨fun name => hcollection name ▸ h.sorted name, hnext ▸ h.started,
    fun name => hcollection name ▸ h.kept name, ?_⟩
  rw [hsessions]
  exact h.harmless_setSession id fun _ e he => absurd (hempty ▸ he) List.not_mem_nil

theorem ensures_startTransaction (id : SessionId) : StoreAction.Ensures (Untouched s₀ C k)
    (fun _ => True) (Program.call (.startTransaction id)) :=
  StoreAction.ensures_of_done (stable s₀ C k) fun _ _ _ h hdone =>
    ⟨of_setSession s₀ C k h (fun n => (hdone.collection n).trans (ite_changed_nil _ _))
      hdone.nextSession hdone.sessions rfl, trivial⟩

theorem ensures_commit (id : SessionId) : StoreAction.Ensures (Untouched s₀ C k)
    (fun _ => True) (Program.call (.commit id)) :=
  StoreAction.ensures_of_done (stable s₀ C k) fun _ _ _ h hdone =>
    ⟨of_setSession s₀ C k h (fun n => (hdone.collection n).trans (ite_changed_nil _ _))
      hdone.nextSession hdone.sessions rfl, trivial⟩

/-- **An abort** of a session started since. -/
theorem ensures_abort {id : SessionId} (hstarted : s₀.nextSession ≤ id.number) :
    StoreAction.Ensures (Untouched s₀ C k) (fun _ => True) (Program.call (.abort id)) := by
  refine StoreAction.ensures_of_done (stable s₀ C k) fun s _ t h hdone => ⟨?_, trivial⟩
  refine h.of_revertAll (fun e he => ?_) hdone.collection hdone.nextSession ?_
  · cases hid : s.session? id with
    | none => simp [rolledBack, hid] at he
    | some session =>
      exact h.harmless_of_session? hid hstarted e (by simpa [rolledBack, hid] using he)
  · rw [hdone.sessions]
    exact h.harmless_setSession id fun _ e he => absurd he List.not_mem_nil

/-- **The end** of a session started since, with an abort of what is open on it. -/
theorem ensures_endSession {id : SessionId} (hstarted : s₀.nextSession ≤ id.number) :
    StoreAction.Ensures (Untouched s₀ C k) (fun _ => True) (Program.call (.endSession id)) := by
  refine StoreAction.ensures_of_done (stable s₀ C k) fun s _ t h hdone => ⟨?_, trivial⟩
  refine h.of_revertAll (fun e he => ?_) hdone.collection hdone.nextSession fun entry hentry => ?_
  · cases hid : s.session? id with
    | none => simp [rolledBack, hid] at he
    | some session =>
      cases hopen : session.inTransaction with
      | false => simp [rolledBack, hid, Option.filter_some, hopen] at he
      | true =>
        exact h.harmless_of_session? hid hstarted e
          (by simpa [rolledBack, hid, Option.filter_some, hopen] using he)
  · rw [hdone.sessions] at hentry
    exact h.harmless entry (List.mem_filter.1 hentry).1

end Untouched

end Store

end ObjectEngine
