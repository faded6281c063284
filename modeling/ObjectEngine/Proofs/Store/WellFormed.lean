import ObjectEngine.Proofs.Store.Effect

/-!
# Well-formed stores

A store keeps its records by increasing ids, and numbers its sessions from zero on. Every call
keeps it that way, whether it succeeds or not (`Store.WellFormed.run`).
-/

namespace ObjectEngine

namespace Store

/-- Every session has a number below a bound. -/
def Numbered (bound : Nat) (sessions : List (SessionId × Session)) : Prop :=
  ∀ entry ∈ sessions, entry.1.number < bound

/-- A store as calls leave it: ids increase, and no session has a number yet to be given. -/
structure WellFormed (s : Store) : Prop where
  sorted : ∀ name, (s.collection name).records.Sorted
  numbered : Numbered s.nextSession s.sessions

/-! ### Records -/

theorem sorted_applyChanges {records : Members Record} (h : records.Sorted) (ws : List Change) :
    (applyChanges ws records).Sorted := by
  refine List.foldlRecOn ws _ h fun records h w _ => ?_
  unfold Change.applyTo
  split
  · exact Members.sorted_insert h _ _
  · exact Members.sorted_erase h _

theorem sorted_revert (entry : UndoEntry) {c : Collection} (h : c.records.Sorted) :
    (entry.revert c).records.Sorted := by
  unfold UndoEntry.revert
  split
  · exact Members.sorted_erase h _
  · split
    · exact h
    · exact Members.sorted_insert h _ _
  · split
    · exact h
    · exact Members.sorted_insert h _ _

theorem sorted_revertAll (name : String) (entries : List UndoEntry) {c : Collection}
    (h : c.records.Sorted) : (revertAll name entries c).records.Sorted := by
  refine List.foldlRecOn (motive := fun c : Collection => c.records.Sorted) entries _ h
    fun c h e _ => ?_
  split
  · exact sorted_revert e h
  · exact h

/-- **The records after a call** are sorted if they were before it. -/
theorem sorted_collectionAfter (s : Store) (call : Call) {name : String}
    (h : (s.collection name).records.Sorted) :
    (s.collectionAfter call name).records.Sorted := by
  have hite {p : Prop} [Decidable p] {c : Collection} (hc : c.records.Sorted) :
      (if p then c else s.collection name).records.Sorted := by
    split
    · exact hc
    · exact h
  cases call with
  | drop n => exact hite List.Pairwise.nil
  | createIndex n index => exact hite h
  | dropIndex n index => exact hite h
  | abort id => exact sorted_revertAll name _ h
  | endSession id => exact sorted_revertAll name _ h
  | _ => exact hite (sorted_applyChanges h _)

/-! ### Sessions -/

variable {s t : Store} {bound : Nat}

theorem numbered_setSession (h : Numbered bound s.sessions) (id : SessionId) (session : Session) :
    Numbered bound (s.setSession id session).sessions := by
  intro entry hentry
  obtain ⟨old, hold, rfl⟩ := List.mem_map.1 hentry
  split
  · rename_i hid
    exact hid ▸ h old hold
  · exact h old hold

theorem numbered_logged (h : Numbered bound s.sessions) (session : Option SessionId)
    (entry : UndoEntry) : Numbered bound (s.logged session entry).sessions := by
  unfold logged
  split
  · exact h
  · split
    · split
      · exact numbered_setSession h _ _
      · exact h
    · exact h

theorem numbered_loggedAll (h : Numbered bound s.sessions) (session : Option SessionId)
    (entries : List UndoEntry) : Numbered bound (s.loggedAll session entries).sessions :=
  List.foldlRecOn (motive := fun s : Store => Numbered bound s.sessions) entries _ h
    fun _ h entry _ => numbered_logged h session entry

theorem numbered_sessionsAfter (call : Call) (h : Numbered s.nextSession s.sessions) :
    Numbered (s.nextSessionAfter call) (s.sessionsAfter call) := by
  cases call with
  | startSession =>
    intro entry hentry
    rcases List.mem_append.1 hentry with hentry | hentry
    · exact Nat.lt_succ_of_lt (h entry hentry)
    · obtain rfl := List.mem_singleton.1 hentry
      exact Nat.lt_succ_self _
  | startTransaction id => exact numbered_setSession h _ _
  | commit id => exact numbered_setSession h _ _
  | abort id => exact numbered_setSession h _ _
  | endSession id => exact fun entry hentry => h entry (List.mem_filter.1 hentry).1
  | _ => exact numbered_loggedAll h _ _

/-! ### Calls -/

namespace WellFormed

/-- A store without sessions whose collections are sorted. -/
theorem of_sorted {collections : Members Collection} (faults : List Fault)
    (h : ∀ m ∈ collections, m.2.records.Sorted) :
    WellFormed { collections := collections, faults := faults } where
  sorted name := by
    unfold Store.collection Store.collection?
    cases hlookup : collections.lookup name with
    | none => exact List.Pairwise.nil
    | some c =>
      obtain ⟨m, hm, rfl⟩ := List.mem_map.1 (Members.mem_values_of_lookup hlookup)
      exact h m hm
  numbered _ hentry := absurd hentry List.not_mem_nil

theorem congr (hs : s.WellFormed) (h : SameContent s t) : t.WellFormed where
  sorted name := h.collection name ▸ hs.sorted name
  numbered := by
    rw [h.sessions, h.nextSession]
    exact hs.numbered

theorem of_done {call : Call} {a : call.Answer} (hs : s.WellFormed) (h : Done s call a t) :
    t.WellFormed where
  sorted name := by
    rw [h.collection]
    exact sorted_collectionAfter s call (hs.sorted name)
  numbered := by
    rw [h.sessions, h.nextSession]
    exact numbered_sessionsAfter call hs.numbered

/-- **A call keeps a store well formed**, whether it succeeds or not. -/
theorem run (h : s.WellFormed) (call : Call) : (s.run call).store.WellFormed := by
  cases hrun : (s.run call).outcome with
  | error e => exact h.congr (run_error hrun)
  | ok a => exact h.of_done (run_ok hrun)

end WellFormed

end Store

end ObjectEngine
