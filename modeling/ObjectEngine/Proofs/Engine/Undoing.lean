import ObjectEngine.Proofs.Engine.Recording
import ObjectEngine.Proofs.Engine.Sequence
import ObjectEngine.Proofs.Engine.Tending

/-!
# Relations after a transaction that fails

When a transaction is taken back, the records that were there before it are there again, and no
others; a record that the transaction has added or removed, but not rewritten, has all of its
members again (`Store.Returned`). Writes add and remove edges and rewrite none, and leave the schemas
alone (`Store.Backed.run_of_issues`). So a transaction that fails leaves relations as they were
(`Batch.tracks_transaction_error`).
-/

namespace ObjectEngine

namespace Store

variable {s t u : Store} {name : String} {id : SessionId}

/-! ### A store that is back -/

/-- **A store that is back where it was**: it has the same records, the schemas are as they were, and
the edges have the same members. -/
structure Returned (s t : Store) : Prop where
  wellFormed : t.WellFormed
  schemas : Catalog.Still s t
  indexes (name : String) : (t.collection name).indexes = (s.collection name).indexes
  same (name k : String) : (t.record? name k).isSome = (s.record? name k).isSome
  cells (field className k key : String) :
    cell key (t.record? (Join.collection field className) k) =
      cell key (s.record? (Join.collection field className) k)

/-- Records with the same members are the same edges. -/
theorem exists_of_cells {r? r'? : Option Record} (h : ∀ key, cell key r'? = cell key r?)
    {r : Record} (hr : r? = some r) : ∃ r', r'? = some r' ∧
      ∀ owner related, Join.IsEdge r' owner related ↔ Join.IsEdge r owner related := by
  subst hr
  obtain ⟨r', rfl, -⟩ := Option.map_eq_some_iff.1 (h Join.owningKey)
  refine ⟨r', rfl, fun owner related => ?_⟩
  have hlookup (key : String) : Record.string? r' key = r.string? key := by
    rw [Record.string?, Option.some.inj (h key), Record.string?]
  rw [Join.IsEdge, Join.IsEdge, hlookup, hlookup]

section

variable {field className : String} (h : Returned s t)

include h

theorem Returned.edges (hadvances : Advances s t)
    (hs : s.Edges (Join.collection field className)) :
    t.Edges (Join.collection field className) := by
  have hback {k : String} {r : Record} (hr : t.record? (Join.collection field className) k = some r) :
      ∃ r', s.record? (Join.collection field className) k = some r' ∧
        ∀ owner related, Join.IsEdge r' owner related ↔ Join.IsEdge r owner related :=
    exists_of_cells (fun key => (h.cells field className k key).symm) hr
  refine ⟨?_, h.wellFormed.sorted _, fun k r hr => ?_, fun k r hr => ?_,
    fun k k' r r' owner related hr hr' hedge hedge' => ?_⟩
  · intro i hi
    rw [h.indexes] at hi
    exact hs.unrestricted i hi
  · obtain ⟨r', hr', -⟩ := hback hr
    obtain ⟨n, hn, hk⟩ := hs.numbered k r' hr'
    exact ⟨n, Nat.lt_of_lt_of_le hn hadvances.nextId, hk⟩
  · obtain ⟨r', hr', hedges⟩ := hback hr
    obtain ⟨owner, related, hedge⟩ := hs.edge k r' hr'
    exact ⟨owner, related, (hedges _ _).1 hedge⟩
  · obtain ⟨q, hq, hedges⟩ := hback hr
    obtain ⟨q', hq', hedges'⟩ := hback hr'
    exact hs.once k k' q q' owner related hq hq' ((hedges _ _).2 hedge) ((hedges' _ _).2 hedge')

theorem Returned.links (hs : s.Edges (Join.collection field className)) (owner related : String) :
    t.Links (Join.collection field className) owner related ↔
      s.Links (Join.collection field className) owner related := by
  rw [links_iff (h.wellFormed.sorted _), links_iff hs.sorted]
  constructor
  · rintro ⟨k, r, hr, hedge⟩
    obtain ⟨r', hr', hedges⟩ := exists_of_cells (fun key => (h.cells field className k key).symm) hr
    exact ⟨k, r', hr', (hedges _ _).2 hedge⟩
  · rintro ⟨k, r, hr, hedge⟩
    obtain ⟨r', hr', hedges⟩ := exists_of_cells (fun key => h.cells field className k key) hr
    exact ⟨k, r', hr', (hedges _ _).2 hedge⟩

end

/-- **Relations are as they were** where the store is. -/
theorem Returned.tracks {C : String} {fields : List String} (h : Returned s t)
    (hadvances : Advances s t) (hs : ∀ f ∈ fields, s.Bound C f) :
    Tracks C fields (fun _ => []) s t where
  bound f hf := ⟨h.edges hadvances (hs f hf).edges, fun o x hlinks =>
    (h.same C o).trans ((hs f hf).owned o x ((h.links (hs f hf).edges o x).1 hlinks))⟩
  relation f hf := relation_congr (h.same C) (h.links (hs f hf).edges)

theorem Returned.congr (h : Returned s t) (hu : u.WellFormed)
    (hcollection : ∀ name, u.collection name = t.collection name) : Returned s u where
  wellFormed := hu
  schemas := by rw [Catalog.Still, hcollection, h.schemas]
  indexes name := by rw [hcollection, h.indexes]
  same name k := by rw [record?, hcollection, ← h.same name k, record?]
  cells field className k key := by
    rw [record?, hcollection, ← h.cells field className k key, record?]

/-! ### A transaction on its way -/

/-- **A revision within a write on a class**: it is of no schema, and rewrites no edge. -/
def Edges.Spared (name : String) (before after : Option Record) : Prop :=
  name ≠ Catalog.collection ∧ ∀ field className, name = Join.collection field className →
    ∀ r r', before = some r → after = some r' → r' = r

/-- **A transaction that can be taken back** to a store `s`: the history of each record since is
known, no schema has been touched, and no edge has been rewritten. -/
structure Backed (id : SessionId) (s t : Store) : Prop where
  wellFormed : t.WellFormed
  indexes (name : String) : (t.collection name).indexes = (s.collection name).indexes
  recalls (name k : String) : t.Recalls id name k (Edges.Spared name) (· = s.record? name k)

namespace Backed

theorem of_open (hwf : t.WellFormed) (hopen : t.Open id [])
    (hcollection : ∀ name, t.collection name = s.collection name) : Backed id s t where
  wellFormed := hwf
  indexes name := by rw [hcollection]
  recalls name k := .of_open hopen (by rw [record?, hcollection, record?])

theorem congr (h : Backed id s t) (hsame : SameContent t u) : Backed id s u where
  wellFormed := h.wellFormed.congr hsame
  indexes name := by rw [hsame.collection, h.indexes]
  recalls name k := (h.recalls name k).congr hsame

/-- A write on the session that rewrites no edge. -/
theorem run (h : Backed id s t) {c : Call} (hwrites : c.Writes) (hsession : c.session? = some id)
    (hspared : ∀ w ∈ t.changes c, Edges.Spared c.collection w.before w.after) :
    Backed id s (t.run c).store where
  wellFormed := h.wellFormed.run c
  indexes name := by
    rw [← h.indexes name]
    cases hrun : (t.run c).outcome with
    | error e => rw [(run_error hrun).collection]
    | ok a =>
      rw [(run_ok hrun).collection_of_writes hwrites]
      split <;> rfl
  recalls name k := (h.recalls name k).run h.wellFormed hwrites hsession
    fun hname w hw _ => hname ▸ hspared w hw

/-- **A write on a class** rewrites no edge. -/
theorem run_of_issues (h : Backed id s t) (hname : isClassName name = true) {c : Call}
    (hc : Write.Issues (some id) name c) : Backed id s (t.run c).store := by
  cases hc with
  | find sel => exact h.congr (sameContent_find t name sel _)
  | count p limit => exact h.congr (sameContent_count t name p limit _)
  | own hwrites hcollection hsession =>
    refine h.run hwrites hsession fun w _ => ?_
    rw [hcollection]
    exact ⟨(Catalog.collection_ne_of_isClassName hname).symm, fun field className hjoin =>
      absurd hjoin (Join.collection_ne_of_isClassName hname field className).symm⟩
  | link field p =>
    refine h.run trivial rfl fun w hw => ⟨(Join.collection_ne_schemas field name).symm,
      fun _ _ _ r r' hbefore hafter => ?_⟩
    rcases mem_changes_upsert hw with ⟨record, -, rfl⟩ | hw
    · exact absurd hbefore (by simp)
    · obtain ⟨current, next, heq, -, -, happly, -⟩ := mem_rewrites hw
      rw [heq] at hbefore hafter
      obtain rfl := Option.some.inj hbefore
      obtain rfl := Option.some.inj hafter
      exact (Except.ok.inj happly).symm
  | unlink field p =>
    refine h.run trivial rfl fun w hw => ⟨(Join.collection_ne_schemas field name).symm,
      fun _ _ _ r r' _ hafter => ?_⟩
    simp only [changes] at hw
    split at hw
    · obtain ⟨v, -, rfl⟩ := List.mem_map.1 hw
      exact absurd hafter (by simp)
    · exact absurd hw List.not_mem_nil

/-- **An abort** takes the transaction back. -/
theorem abort (h : Backed id s t) (hs : s.WellFormed) (hquiet : t.Quiet) :
    (t.run (.abort id)).outcome = .ok () ∧ Returned s (t.run (.abort id)).store ∧
      (t.run (.abort id)).store.session? id = some {} := by
  obtain ⟨-, -, -, -, -, undo, hopen, -⟩ := h.recalls "" ""
  have hnoted : (t.noted "abortTransaction" "" (some id)).session? id = some ⟨true, undo⟩ := hopen
  have hrun := run_rollBack id (t.noted "abortTransaction" "" (some id))
  rw [hnoted] at hrun
  have hok : (t.run (.abort id)).outcome = .ok () :=
    (hquiet.run_eq (c := .abort id) hrun).1
  have hdone := run_ok hok
  have hwf := h.wellFormed.run (.abort id)
  refine ⟨hok, ⟨hwf, ?_, fun name => ?_, fun name k => ?_, fun field className k key => ?_⟩, ?_⟩
  · refine (hwf.sorted _).ext (hs.sorted _) fun k => ?_
    obtain ⟨first, vs, last, rfl, hleads, hvs, hlookup⟩ :=
      (h.recalls Catalog.collection k).rolledBack (.inl rfl)
    rw [hdone.collection, hlookup]
    cases vs with
    | nil => exact hleads.symm
    | cons v vs => exact absurd rfl (hvs v List.mem_cons_self).2.1
  · rw [hdone.collection, collectionAfter_of_closes (.inl rfl), revertAll_indexes, h.indexes]
  · obtain ⟨first, vs, last, rfl, hleads, hvs, hlookup⟩ :=
      (h.recalls name k).rolledBack (.inl rfl)
    have hcell := cell_rewound "" hleads fun v hv => (hvs v hv).1
    rw [record?, hdone.collection, hlookup]
    have hsome := congrArg Option.isSome hcell
    rwa [cell, Option.isSome_map, Option.isSome_map, cell, Option.isSome_map] at hsome
  · obtain ⟨first, vs, last, rfl, hleads, hvs, hlookup⟩ :=
      (h.recalls (Join.collection field className) k).rolledBack (.inl rfl)
    rw [record?, hdone.collection, hlookup]
    refine cell_rewound_of_renewed hleads (fun v hv r r' hbefore hafter => .inl ?_)
      fun v hv => (hvs v hv).1
    rw [(hvs v hv).2.2 field className rfl r r' hbefore hafter]
  · refine (session?_congr (s := t.setSession id {}) hdone.sessions id).trans ?_
    rw [session?_setSession, if_pos rfl, hopen]
    rfl

end Backed

/-- A transaction starts on a session that is idle. -/
theorem Quiet.open_startTransaction (h : s.Quiet) (hidle : s.session? id = some {}) :
    (s.run (.startTransaction id)).outcome = .ok () ∧
      Rests s (s.run (.startTransaction id)).store ∧
      (s.run (.startTransaction id)).store.Open id [] := by
  have hnoted : (s.noted "startTransaction" "" (some id)).session? id = some {} := hidle
  have hrun : (perform (.startTransaction id)).run (s.noted "startTransaction" "" (some id)) =
      (.ok (), (s.noted "startTransaction" "" (some id)).setSession id
        { inTransaction := true, undo := [] }) := by
    dsimp only [perform, Call.Answer]
    simp only [run_bind, run_get, hnoted]
    rfl
  obtain ⟨houtcome, hstore⟩ := h.run_eq hrun
  rw [houtcome, hstore]
  refine ⟨rfl, ⟨fun _ => rfl, rfl, rfl⟩, ?_⟩
  rw [Open, session?_setSession, if_pos rfl, hnoted]
  rfl

end Store

/-! ### Transactions -/

namespace Batch

open Store (Returned Backed)

variable {w v : World} {writes : List Write} {id : SessionId} {e : EngineError}
  (hclasses : ∀ write ∈ writes, isClassName write.collection = true)

include hclasses

/-- The writes of a transaction can be taken back. -/
theorem backed_mapM {s : Store} (h : Backed id s w.store) :
    Backed id s ((writes.mapM (Write.run (some id))).run.run w).2.store := by
  have hensures : StoreAction.Ensures (Backed id s) (fun _ => True)
      (writes.mapM (Write.run (some id))) :=
    StoreAction.Ensures.mono (fun _ _ => trivial) ((StoreAction.judgement _).mapM (R := fun _ => True)
      fun write hwrite => write.ensures_run_of_issues
        fun c hc t ht => ht.run_of_issues (hclasses write hwrite) hc)
  exact (Program.Ensures.run hensures h).1

/-- A transaction that fails on a session is taken back. -/
theorem returned_runOn {s : Store} (hs : s.WellFormed)
    (hcollection : ∀ name, w.store.collection name = s.collection name)
    (hquiet : w.store.Quiet) (hwf : w.store.WellFormed) (hidle : w.store.session? id = some {})
    (hrun : (runOn id writes).run.run w = (.error e, v)) :
    Returned s v.store ∧ v.store.session? id = some {} := by
  obtain ⟨hstart, hrests, hopen⟩ := hquiet.open_startTransaction hidle
  revert hrun
  refine run_bind_cases (P := fun out => out = (.error e, v) → _) (fun _ _ hcall => ?_)
    fun _ begun hcall => ?_
  · exact absurd ((store_of_run_call hcall).1.symm.trans hstart) (by simp)
  · obtain ⟨-, hbegun⟩ := store_of_run_call hcall
    have hwf' := hwf.run (.startTransaction id)
    rw [hbegun] at hrests hopen hwf'
    have hbacked := backed_mapM hclasses (w := begun) (s := s)
      (.of_open hwf' hopen fun name => (hrests.collection name).trans (hcollection name))
    have hquiet' := (hquiet.rests hrests).advances
      ((hquiet.rests hrests).advances_run (writes.mapM (Write.run (some id))).run)
    refine run_outcomeOf_cases (P := fun out => out = (.error e, v) → _)
      fun r written hwritten => ?_
    rw [hwritten] at hbacked hquiet'
    cases r with
    | error cause =>
      obtain ⟨-, hreturned, hidle'⟩ := hbacked.abort hs hquiet'
      refine run_outcomeOf_cases (P := fun out => out = (.error e, v) → _)
        fun _ aborted habort hout => ?_
      obtain ⟨-, rfl⟩ := Prod.mk.inj hout
      rw [← (store_of_run_call habort).2]
      exact ⟨hreturned, hidle'⟩
    | ok results =>
      obtain ⟨-, -, -, -, -, undo, hopen', -⟩ := hbacked.recalls "" ""
      obtain ⟨hcommit, -, -⟩ := hquiet'.run_commit (Option.isSome_iff_exists.2 ⟨_, hopen'⟩)
      refine run_outcomeOf_cases (P := fun out => out = (.error e, v) → _)
        fun r committed hcall => ?_
      obtain rfl : r = .ok () := (store_of_run_call hcall).1.symm.trans hcommit
      exact fun hout => absurd (Prod.mk.inj hout).1 (by simp)

/-- **A transaction that fails** leaves the store back where it was. -/
theorem returned_transaction (hquiet : w.store.Quiet) (hwf : w.store.WellFormed)
    {retries number : Nat}
    (hrun : (transaction writes retries number).run.run w = (.error e, v)) :
    Returned w.store v.store := by
  have hwf' := hwf.run_program (transaction writes retries number).run
  rw [hrun] at hwf'
  rw [run_transaction hclasses hquiet] at hrun
  obtain ⟨hid, hstarted, hsession⟩ := hquiet.run_startSession
  revert hrun
  refine run_bind_cases (P := fun out => out = (.error e, v) → _) (fun _ _ hcall => ?_)
    fun id opened hcall => ?_
  · exact absurd ((store_of_run_call hcall).1.symm.trans hid) (by simp)
  · obtain ⟨houtcome, hopened⟩ := store_of_run_call hcall
    obtain rfl : id = ⟨w.store.nextSession⟩ := Except.ok.inj (houtcome.symm.trans hid)
    have hidle := Store.Idle.of_startSession hwf (Store.run_ok hid)
    have hopenwf := hwf.run .startSession
    rw [hopened] at hstarted hsession hidle hopenwf
    obtain ⟨state, hstate⟩ := Option.isSome_iff_exists.1 hsession
    obtain rfl := hidle state hstate
    refine run_outcomeOf_cases (P := fun out => out = (.error e, v) → _) fun r done hdone => ?_
    refine run_outcomeOf_cases (P := fun out => out = (.error e, v) → _)
      fun _ ended hended hout => ?_
    obtain ⟨rfl, rfl⟩ := Prod.mk.inj hout
    obtain ⟨hreturned, hclosed⟩ := returned_runOn hclasses hwf hstarted.collection
      (hquiet.rests hstarted) hopenwf hstate hdone
    have hdonequiet := (hquiet.rests hstarted).advances
      ((hquiet.rests hstarted).advances_run (runOn ⟨w.store.nextSession⟩ writes).run)
    rw [hdone] at hdonequiet
    have hend := hdonequiet.run_endSession hclosed
    rw [(store_of_run_call hended).2] at hend
    exact hreturned.congr hwf' hend.collection

/-- **Relations after a transaction that fails** are as they were. -/
theorem tracks_transaction_error {C : String} {fields : List String}
    (h : w.store.Tended C fields) {retries number : Nat}
    (hrun : (transaction writes retries number).run.run w = (.error e, v)) :
    Store.Tracks C fields (fun _ => []) w.store v.store := by
  have hadvances := h.quiet.advances_run (transaction writes retries number).run
  rw [hrun] at hadvances
  exact (returned_transaction hclasses h.quiet h.wellFormed hrun).tracks hadvances h.bound

end Batch

end ObjectEngine
