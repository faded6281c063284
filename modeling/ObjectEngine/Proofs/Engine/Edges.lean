import ObjectEngine.Proofs.Engine.Membership
import ObjectEngine.Proofs.Store.Advancing
import ObjectEngine.Proofs.Store.Seeding
import ObjectEngine.Proofs.Store.Succeeding

/-!
# Edges

A join collection is in order (`Store.Edges`) if its records are edges under ids that the store made
up, and none links the same two objects as another. Where no fault is due, the two calls that
change edges then succeed and keep it in order: to add an edge makes one link, whether or not it was
there (`Store.Edges.relinks_add`), and to remove edges takes away the links that the predicate tells
of (`Store.Edges.relinks_remove`).
-/

namespace ObjectEngine

namespace Store

variable {s t u : Store} {name id : String} {r : Record} {p : Predicate} {edit : Edit}

/-! ### Calls -/

/-- The records of a collection stay in order. -/
theorem sorted_run (h : (s.collection name).records.Sorted) (call : Call) :
    ((s.run call).store.collection name).records.Sorted := by
  cases hrun : (s.run call).outcome with
  | error e =>
    rw [(run_error hrun).collection]
    exact h
  | ok a =>
    rw [(run_ok hrun).collection]
    exact sorted_collectionAfter s call h

/-- A record without an id is put under one that is made up. -/
theorem run_insertSeed_fresh (hquiet : s.Quiet) (hs : Unrestricted (s.collection name))
    (hedit : edit.apply true p.seed = .ok r) (hid : r.id? = none)
    (hfree : s.record? name (freshText s.nextId) = none) :
    ∃ out t, (insertSeed name p edit none).run s = (.ok out, t) ∧
      Touches name (freshText s.nextId) s (some (s.identified r).2) t ∧ s.nextId < t.nextId := by
  have hidentified : s.identified r = (freshText s.nextId,
      Members.insert Record.idKey (.string (freshText s.nextId)) r) := by rw [identified, hid]
  have hinserts : Stays .advancing (insertRecord "upsert" name none (freshText s.nextId)
    (s.identified r).2) := .insertRecord _ _ _ _ _
  have hadvances : Advances { s with nextId := s.nextId + 1 } _ := hinserts _ (hquiet.of_faults rfl)
  obtain ⟨t, hrun, htouches⟩ := run_insertRecord_free
    (s := { s with nextId := s.nextId + 1 }) hs hfree "upsert" (s.identified r).2
  rw [hrun] at hadvances
  refine ⟨{ matched := 0, id := some (freshText s.nextId), record := (s.identified r).2 }, t, ?_,
    htouches.congr rfl fun _ => rfl, hadvances.nextId⟩
  rw [hidentified] at hrun ⊢
  simp only [insertSeed, run_bind, run_finish, hedit, hid, run_freshId, run_pure, hrun]

/-- **An upsert that finds nothing** and describes no id inserts a record under a new one. -/
theorem Quiet.run_upsert_fresh (h : s.Quiet) (hs : Unrestricted (s.collection name))
    (hids : matchingIds true p (s.collection name).records = .ok [])
    (hedit : edit.apply true p.seed = .ok r) (hid : r.id? = none)
    (hfree : s.record? name (freshText s.nextId) = none) :
    ∃ out, (s.run (.upsert name p edit none)).outcome = .ok out ∧
      Touches name (freshText s.nextId) s (some (s.identified r).2)
        (s.run (.upsert name p edit none)).store ∧
      s.nextId < (s.run (.upsert name p edit none)).store.nextId := by
  obtain ⟨out, t, hrun, htouches, hnext⟩ := run_insertSeed_fresh
    (s := s.noted "upsert" name none) (h.of_faults rfl) hs hedit hid hfree
  have hperform := (perform_upsert (s := s.noted "upsert" name none) hids).trans hrun
  obtain ⟨houtcome, hstore⟩ := h.run_eq (c := .upsert name p edit none) hperform
  rw [houtcome, hstore]
  exact ⟨out, rfl, htouches.congr rfl fun _ => rfl, hnext⟩

theorem lookup_foldl_erase (k : String) (ids : List String) (records : Members Record) :
    (ids.foldl (fun records id => Members.erase id records) records).lookup k =
      if k ∈ ids then none else records.lookup k := by
  induction ids generalizing records with
  | nil => simp
  | cons id rest ih =>
    rw [List.foldl_cons, ih, Members.lookup_erase]
    by_cases hk : k = id <;> simp [hk]

/-- **A removal** takes away the records of the ids that its predicate finds. -/
theorem Quiet.run_delete (h : s.Quiet) {ids : List String}
    (hids : matchingIds false p (s.collection name).records = .ok ids) :
    (∃ n, (s.run (.delete name p none)).outcome = .ok n) ∧
      (∀ n, n ≠ name → (s.run (.delete name p none)).store.collection n = s.collection n) ∧
      ((s.run (.delete name p none)).store.collection name).indexes =
        (s.collection name).indexes ∧
      ∀ k, (s.run (.delete name p none)).store.record? name k =
        if k ∈ ids then none else s.record? name k := by
  obtain ⟨t, hrests, -, hrun⟩ := run_deleteIds_rests name none ids (s.noted "delete" name none)
  rw [loggedAll_none] at hrun
  have hperform := (perform_delete (s := s.noted "delete" name none) hids).trans hrun
  obtain ⟨houtcome, hstore⟩ := h.run_eq (c := .delete name p none) hperform
  rw [houtcome, hstore]
  have hcollection (n : String) : t.collection n = if n = name then { s.collection name with
      records := ids.foldl (fun records id => Members.erase id records)
        (s.collection name).records } else s.collection n :=
    (hrests.collection n).trans (collection_setCollection _ _ _ _)
  refine ⟨⟨_, rfl⟩, fun n hn => by rw [hcollection, if_neg hn], by rw [hcollection, if_pos rfl],
    fun k => ?_⟩
  rw [record?, hcollection, if_pos rfl]
  exact lookup_foldl_erase k ids _

end Store

/-! ### Edges -/

namespace Join

/-- **An edge**: a record that links an owner to a related object. -/
def IsEdge (r : Record) (owner related : String) : Prop :=
  r.string? owningKey = some owner ∧ r.string? relatedKey = some related

/-- An edge links one owner to one object. -/
theorem IsEdge.unique {r : Record} {owner related o x : String} (h : IsEdge r owner related)
    (h' : IsEdge r o x) : o = owner ∧ x = related :=
  ⟨Option.some.inj (h'.1.symm.trans h.1), Option.some.inj (h'.2.symm.trans h.2)⟩

/-- The edges between two objects. -/
def linking (owner related : String) : Predicate :=
  (Predicate.field owningKey (.eq (.string owner))).both (.field relatedKey (.eq (.string related)))

/-- The edges between an object and some others. -/
def linkingAny (owner : String) (related : List String) : Predicate :=
  (Predicate.field owningKey (.eq (.string owner))).both (.field relatedKey (anyOf related))

variable {r : Record} {owner related o x : String}

theorem split_relatedKey : Text.split '.' relatedKey = [relatedKey] := rfl

/-- An owner is named by its id. -/
theorem eval_owner (h : IsEdge r o x) :
    ((Predicate.field owningKey (.eq (.string owner))).eval none r).1 = .ok true ↔ o = owner := by
  rw [Predicate.eval_key_eq split_owningKey, Record.lookup_of_string? h.1]
  simp [Datum.Names, Collation.fold]

theorem eval_linking (h : IsEdge r o x) :
    ((linking owner related).eval none r).1 = .ok true ↔ o = owner ∧ x = related := by
  rw [linking, Predicate.eval_both, eval_owner h, Predicate.eval_key_eq split_relatedKey,
    Record.lookup_of_string? h.2]
  simp [Datum.Names, Collation.fold]

/-- Whether a record is such an edge can be told. -/
theorem equates_linking (owner related : String) : (linking owner related).Equates :=
  .both (.field (by decide) _) (.field (by decide) _)

/-- A new edge has the two ids and nothing else. -/
theorem seed_linking (owner related : String) : (linking owner related).seed =
    [(owningKey, .string owner), (relatedKey, .string related)] := by
  rw [Predicate.seed, show (linking owner related).equalities =
    [(relatedKey, .string related), (owningKey, .string owner)] from rfl]
  exact if_pos (show owningKey < relatedKey by decide)

theorem eval_linkingAny (h : IsEdge r o x) {ids : List String} :
    ((linkingAny owner ids).eval none r).1 = .ok true ↔ o = owner ∧ x ∈ ids := by
  rw [linkingAny, Predicate.eval_both, eval_owner h, anyOf,
    Predicate.eval_key_isIn split_relatedKey, Record.lookup_of_string? h.2]
  simp [Datum.Names, Collation.fold]

theorem exists_eval_linkingAny (owner : String) (ids : List String) (r : Record) :
    ∃ b, ((linkingAny owner ids).eval none r).1 = .ok b := by
  -- the second condition is evaluated if the first holds
  rw [show (linkingAny owner ids).eval none r = Predicate.evalUntil none r false
    [.field owningKey (.eq (.string owner)), .field relatedKey (anyOf ids)] from rfl]
  simp only [Predicate.evalUntil, Predicate.eval, Condition.holds, anyOf]
  split
  · exact ⟨_, rfl⟩
  · split <;> exact ⟨_, rfl⟩

theorem eval_owners (h : IsEdge r o x) {ids : List String} :
    ((Predicate.field owningKey (anyOf ids)).eval none r).1 = .ok true ↔ o ∈ ids := by
  rw [anyOf, Predicate.eval_key_isIn split_owningKey, Record.lookup_of_string? h.1]
  simp [Datum.Names, Collation.fold]

end Join

namespace Store

/-- **A join collection in order**: each record is an edge under an id that the store has made up,
and no two link the same objects. -/
structure Edges (name : String) (s : Store) : Prop where
  unrestricted : Unrestricted (s.collection name)
  sorted : (s.collection name).records.Sorted
  numbered (k : String) (r : Record) : s.record? name k = some r → ∃ n < s.nextId, k = freshText n
  edge (k : String) (r : Record) :
    s.record? name k = some r → ∃ owner related, Join.IsEdge r owner related
  once (k k' : String) (r r' : Record) (owner related : String) : s.record? name k = some r →
    s.record? name k' = some r' → Join.IsEdge r owner related → Join.IsEdge r' owner related →
    k = k'

variable {s t u : Store} {name owner related : String}

/-- A link is an edge under some id. -/
theorem links_iff (h : (s.collection name).records.Sorted) : s.Links name owner related ↔
    ∃ k r, s.record? name k = some r ∧ Join.IsEdge r owner related := by
  constructor
  · rintro ⟨r, hr, hedge⟩
    obtain ⟨m, hm, rfl⟩ := List.mem_map.1 hr
    exact ⟨m.1, m.2, h.lookup_of_mem hm, hedge⟩
  · rintro ⟨k, r, hr, hedge⟩
    exact ⟨r, Members.mem_values_of_lookup hr, hedge⟩

theorem links_congr (h : t.collection name = s.collection name) :
    t.Links name owner related ↔ s.Links name owner related := by
  rw [Links, Links, h]

namespace Edges

/-- The next id is free. -/
theorem free (h : s.Edges name) : s.record? name (freshText s.nextId) = none := by
  cases hr : s.record? name (freshText s.nextId) with
  | none => rfl
  | some r =>
    obtain ⟨n, hn, heq⟩ := h.numbered _ r hr
    exact absurd (freshText_inj heq) (Nat.ne_of_gt hn)

/-- Fewer edges are in order as well. -/
theorem of_records (h : s.Edges name) (hadvances : Advances s t)
    (hindexes : (t.collection name).indexes = (s.collection name).indexes)
    (hsorted : (t.collection name).records.Sorted)
    (hrecords : ∀ k r, t.record? name k = some r → s.record? name k = some r) :
    t.Edges name where
  unrestricted i hi := h.unrestricted i (hindexes ▸ hi)
  sorted := hsorted
  numbered k r hr :=
    let ⟨n, hn, hk⟩ := h.numbered k r (hrecords k r hr)
    ⟨n, Nat.lt_of_lt_of_le hn hadvances.nextId, hk⟩
  edge k r hr := h.edge k r (hrecords k r hr)
  once k k' r r' owner related hr hr' :=
    h.once k k' r r' owner related (hrecords k r hr) (hrecords k' r' hr')

theorem congr (h : s.Edges name) (hadvances : Advances s t)
    (hcollection : t.collection name = s.collection name) : t.Edges name := by
  refine h.of_records hadvances (by rw [hcollection]) (hcollection ▸ h.sorted) fun k r hr => ?_
  rwa [record?, hcollection] at hr

end Edges

/-- **The links of a join collection change** to those that `L` tells of, and nothing else does. -/
structure Relinks (name : String) (s : Store) (L : String → String → Prop) (t : Store) : Prop where
  advances : Advances s t
  other (n : String) : n ≠ name → t.collection n = s.collection n
  edges : t.Edges name
  links (owner related : String) : t.Links name owner related ↔ L owner related

namespace Relinks

variable {L L' : String → String → Prop}

theorem mono (h : Relinks name s L t) (hL : ∀ owner related, L owner related ↔ L' owner related) :
    Relinks name s L' t :=
  ⟨h.advances, h.other, h.edges, fun owner related => (h.links owner related).trans (hL _ _)⟩

theorem refl (h : s.Edges name) : Relinks name s (s.Links name) s :=
  ⟨.refl s, fun _ _ => rfl, h, fun _ _ => Iff.rfl⟩

theorem trans (h : Relinks name s L t) (h' : Relinks name t L' u) : Relinks name s L' u :=
  ⟨h.advances.trans h'.advances, fun n hn => (h'.other n hn).trans (h.other n hn), h'.edges,
    h'.links⟩

end Relinks

namespace Edges

/-- The store does not find a record that is another edge. -/
theorem eval_linking_eq_false (h : s.Edges name) {m : String × Record}
    (hm : m ∈ (s.collection name).records) (hnot : ¬Join.IsEdge m.2 owner related) :
    ((Join.linking owner related).eval none m.2).1 = .ok false := by
  obtain ⟨o, x, hedge⟩ := h.edge _ _ (h.sorted.lookup_of_mem hm)
  obtain ⟨b, hb⟩ := (Join.equates_linking owner related).exists_eval none m.2
  cases b with
  | false => exact hb
  | true =>
    obtain ⟨rfl, rfl⟩ := (Join.eval_linking hedge).1 hb
    exact absurd hedge hnot

/-- **To add an edge** that is there changes nothing. -/
theorem relinks_of_links (h : s.Edges name) (hs : s.Quiet) (hlinks : s.Links name owner related) :
    ∃ out, (s.run (.upsert name (Join.linking owner related) {} none)).outcome = .ok out ∧
      Relinks name s (s.Links name)
        (s.run (.upsert name (Join.linking owner related) {} none)).store := by
  obtain ⟨k, r, hr, hedge⟩ := (links_iff h.sorted).1 hlinks
  have hids : matchingIds true (Join.linking owner related) (s.collection name).records =
      .ok [k] := by
    refine matchingIds_eq_singleton hr ((Join.eval_linking hedge).2 ⟨rfl, rfl⟩)
      fun m hm hne => h.eval_linking_eq_false hm fun hedge' => ?_
    exact hne (h.once _ _ _ _ _ _ (h.sorted.lookup_of_mem hm) hr hedge' hedge)
  obtain ⟨hout, htouches⟩ := hs.run_upsert_one h.unrestricted hids hr
    (show ({} : Edit).apply false r = .ok r from rfl)
  have hadvances := hs.run_advances (.upsert name (Join.linking owner related) {} none)
  have hsorted := htouches.sorted h.sorted
  generalize (s.run (.upsert name (Join.linking owner related) {} none)).store = t at *
  have hrecord (j : String) : t.record? name j = s.record? name j := by
    by_cases hj : j = k
    · rw [hj, htouches.record?, hr]
    · exact htouches.others j hj
  refine ⟨_, hout, hadvances, htouches.other, ?_, fun o x => ?_⟩
  · exact h.of_records hadvances htouches.indexes hsorted fun j r' hr' => hrecord j ▸ hr'
  · rw [links_iff hsorted, links_iff h.sorted]
    simp only [hrecord]

/-- A new edge under the next id makes one link, if it links what was not linked. -/
theorem relinks_insert (h : s.Edges name) (hadvances : Advances s t) (hnext : s.nextId < t.nextId)
    (hlinks : ¬s.Links name owner related) {new : Record}
    (htouches : Touches name (freshText s.nextId) s (some new) t)
    (hnew : Join.IsEdge new owner related) :
    Relinks name s (fun o x => s.Links name o x ∨ o = owner ∧ x = related) t := by
  have hsorted := htouches.sorted h.sorted
  -- a record is the new edge under the new id, or one that was there
  have hrecord (k : String) (r : Record) : t.record? name k = some r ↔
      k = freshText s.nextId ∧ r = new ∨ k ≠ freshText s.nextId ∧ s.record? name k = some r := by
    by_cases hk : k = freshText s.nextId
    · rw [hk, htouches.record?]
      simp [eq_comm]
    · rw [htouches.others k hk]
      simp [hk]
  have hunlinked (k : String) (r : Record) (hr : s.record? name k = some r) :
      ¬Join.IsEdge r owner related := fun hedge => hlinks ((links_iff h.sorted).2 ⟨k, r, hr, hedge⟩)
  refine ⟨hadvances, htouches.other, ⟨?_, hsorted, ?_, ?_, ?_⟩, fun o x => ?_⟩
  · intro i hi
    rw [htouches.indexes] at hi
    exact h.unrestricted i hi
  · intro k r hr
    rcases (hrecord k r).1 hr with ⟨rfl, -⟩ | ⟨-, hr⟩
    · exact ⟨_, hnext, rfl⟩
    · obtain ⟨n, hn, hk⟩ := h.numbered k r hr
      exact ⟨n, Nat.lt_trans hn hnext, hk⟩
  · intro k r hr
    rcases (hrecord k r).1 hr with ⟨-, rfl⟩ | ⟨-, hr⟩
    · exact ⟨_, _, hnew⟩
    · exact h.edge k r hr
  -- two edges that link the same are both new or both old
  · intro k k' r r' o x hr hr' hedge hedge'
    rcases (hrecord k r).1 hr with ⟨rfl, rfl⟩ | ⟨-, hr⟩ <;>
      rcases (hrecord k' r').1 hr' with ⟨rfl, rfl⟩ | ⟨-, hr'⟩
    · rfl
    · obtain ⟨rfl, rfl⟩ := hnew.unique hedge
      exact absurd hedge' (hunlinked k' r' hr')
    · obtain ⟨rfl, rfl⟩ := hnew.unique hedge'
      exact absurd hedge (hunlinked k r hr)
    · exact h.once k k' r r' o x hr hr' hedge hedge'
  · rw [links_iff hsorted, links_iff h.sorted]
    constructor
    · rintro ⟨k, r, hr, hedge⟩
      rcases (hrecord k r).1 hr with ⟨-, rfl⟩ | ⟨-, hr⟩
      · exact .inr (hnew.unique hedge)
      · exact .inl ⟨k, r, hr, hedge⟩
    · rintro (⟨k, r, hr, hedge⟩ | ⟨rfl, rfl⟩)
      · refine ⟨k, r, (hrecord k r).2 (.inr ⟨?_, hr⟩), hedge⟩
        rintro rfl
        exact absurd (hr.symm.trans h.free) (by simp)
      · exact ⟨_, _, (hrecord _ _).2 (.inl ⟨rfl, rfl⟩), hnew⟩

/-- **To add an edge** that is not there makes one link. -/
theorem relinks_of_not_links (h : s.Edges name) (hs : s.Quiet)
    (hlinks : ¬s.Links name owner related) :
    ∃ out, (s.run (.upsert name (Join.linking owner related) {} none)).outcome = .ok out ∧
      Relinks name s (fun o x => s.Links name o x ∨ o = owner ∧ x = related)
        (s.run (.upsert name (Join.linking owner related) {} none)).store := by
  have hids : matchingIds true (Join.linking owner related) (s.collection name).records =
      .ok [] := by
    refine matchingIds_eq_nil fun m hm => h.eval_linking_eq_false hm fun hedge => hlinks ?_
    exact (links_iff h.sorted).2 ⟨_, _, h.sorted.lookup_of_mem hm, hedge⟩
  have hid : (Join.linking owner related).seed.id? = none := by
    rw [Join.seed_linking]
    rfl
  obtain ⟨out, hout, htouches, hnext⟩ := hs.run_upsert_fresh h.unrestricted hids
    (show ({} : Edit).apply true _ = .ok (Join.linking owner related).seed from rfl) hid h.free
  have hnew : Join.IsEdge (s.identified (Join.linking owner related).seed).2 owner related := by
    constructor
    · rw [Record.string?, lookup_identified s _ (by decide), Join.seed_linking]
      rfl
    · rw [Record.string?, lookup_identified s _ (by decide), Join.seed_linking]
      rfl
  exact ⟨out, hout, h.relinks_insert (hs.run_advances _) hnext hlinks htouches hnew⟩

/-- **To add an edge** makes one link, whether or not it was there. -/
theorem relinks_add (h : s.Edges name) (hs : s.Quiet) (owner related : String) :
    ∃ out, (s.run (.upsert name (Join.linking owner related) {} none)).outcome = .ok out ∧
      Relinks name s (fun o x => s.Links name o x ∨ o = owner ∧ x = related)
        (s.run (.upsert name (Join.linking owner related) {} none)).store := by
  by_cases hlinks : s.Links name owner related
  · obtain ⟨out, hout, hrelinks⟩ := h.relinks_of_links hs hlinks
    refine ⟨out, hout, hrelinks.mono fun o x => (or_iff_left_of_imp ?_).symm⟩
    rintro ⟨rfl, rfl⟩
    exact hlinks
  · exact h.relinks_of_not_links hs hlinks

/-- **To remove edges** takes away the links that the predicate tells of. -/
theorem relinks_remove (h : s.Edges name) (hs : s.Quiet) {p : Predicate}
    {P : String → String → Prop} (htells : ∀ r, ∃ b, (p.eval none r).1 = .ok b)
    (hp : ∀ r o x, Join.IsEdge r o x → ((p.eval none r).1 = .ok true ↔ P o x)) :
    ∃ n, (s.run (.delete name p none)).outcome = .ok n ∧
      Relinks name s (fun o x => s.Links name o x ∧ ¬P o x)
        (s.run (.delete name p none)).store := by
  obtain ⟨ids, hids⟩ : ∃ ids, matchingIds false p (s.collection name).records = .ok ids :=
    exists_matchingIds false fun m _ => htells m.2
  obtain ⟨⟨n, hout⟩, hother, hindexes, hrecord⟩ := hs.run_delete hids
  have hadvances := hs.run_advances (.delete name p none)
  have hsorted := sorted_run h.sorted (.delete name p none)
  generalize (s.run (.delete name p none)).store = t at *
  -- the edges that stay are those of which the predicate does not tell
  have hstays {k : String} {r : Record} {o x : String} (hedge : Join.IsEdge r o x) :
      t.record? name k = some r ↔ s.record? name k = some r ∧ ¬P o x := by
    rw [hrecord, ite_eq_iff, mem_matchingIds_iff hids]
    constructor
    · rintro (⟨-, hnone⟩ | ⟨hk, hr⟩)
      · exact absurd hnone (by simp)
      · exact ⟨hr, fun hP => hk ⟨r, Members.mem_of_lookup hr, (hp r o x hedge).2 hP⟩⟩
    · rintro ⟨hr, hP⟩
      refine .inr ⟨?_, hr⟩
      rintro ⟨r', hr', htrue⟩
      obtain rfl : r' = r := Option.some.inj ((h.sorted.lookup_of_mem hr').symm.trans hr)
      exact hP ((hp r' o x hedge).1 htrue)
  refine ⟨n, hout, hadvances, hother, h.of_records hadvances hindexes hsorted fun k r hr => ?_,
    fun o x => ?_⟩
  · rw [hrecord] at hr
    split at hr
    · exact absurd hr (by simp)
    · exact hr
  · rw [links_iff hsorted, links_iff h.sorted]
    constructor
    · rintro ⟨k, r, hr, hedge⟩
      exact ⟨⟨k, r, ((hstays hedge).1 hr).1, hedge⟩, ((hstays hedge).1 hr).2⟩
    · rintro ⟨⟨k, r, hr, hedge⟩, hP⟩
      exact ⟨k, r, (hstays hedge).2 ⟨hr, hP⟩, hedge⟩

end Edges

end Store

/-! ### Work on edges -/

/-- **A loop that does not fail**: `P` tells what is known of the store when the first of its steps
are done. -/
theorem StoreAction.exists_run_forIn {α : Type} {f : α → PUnit → StoreAction (ForInStep PUnit)}
    {P : List α → Store → Prop} {xs : List α}
    (hstep : ∀ done a later, xs = done ++ a :: later → ∀ w : World, P done w.store →
      ∃ v, (f a ⟨⟩).run.run w = (.ok (.yield ⟨⟩), v) ∧ P (done ++ [a]) v.store)
    {w : World} (h : P [] w.store) :
    ∃ v, (forIn xs PUnit.unit f).run.run w = (.ok ⟨⟩, v) ∧ P xs v.store := by
  -- the steps that are left, from any point on the way
  suffices ∀ later done, xs = done ++ later → ∀ w : World, P done w.store →
      ∃ v, (forIn later PUnit.unit f).run.run w = (.ok ⟨⟩, v) ∧ P xs v.store from
    this xs [] rfl w h
  intro later
  induction later with
  | nil =>
    intro done hdone w hw
    rw [List.append_nil] at hdone
    exact ⟨w, rfl, hdone ▸ hw⟩
  | cons a later ih =>
    intro done hdone w hw
    obtain ⟨v, hrun, hv⟩ := hstep done a later hdone w hw
    obtain ⟨u, hrest, hu⟩ := ih (done ++ [a]) (by simp [hdone]) v hv
    refine ⟨u, ?_, hu⟩
    rw [List.forIn_cons, run_bind, hrun]
    exact hrest

/-- A call that succeeds, before the rest of the work. -/
theorem StoreAction.exists_run_call_bind {α : Type} {c : Store.Call} {f : c.Answer → StoreAction α}
    {w : World} {a : c.Answer} (h : (w.store.run c).outcome = .ok a) :
    ∃ v, v.store = (w.store.run c).store ∧
      ((Program.call c : StoreAction c.Answer) >>= f).run.run w = (f a).run.run v := by
  refine ⟨((Program.call c).run.run w).2, rfl, ?_⟩
  rw [run_bind, show (Program.call c).run.run w =
    ((w.store.run c).outcome, ((Program.call c).run.run w).2) from rfl, h]

namespace Join

variable {C : String} {e : Plan.RelationEdit} {w : World}

/-- Edges are added one by one. -/
theorem exists_run_add (hs : w.store.Quiet) {name : String} (h : w.store.Edges name)
    (owner : String) (ids : List String) :
    ∃ v, (forIn ids PUnit.unit fun related _ => do
        let _ ← Program.call (.upsert name (linking owner related) {} none)
        pure (.yield ⟨⟩) : StoreAction PUnit).run.run w = (.ok ⟨⟩, v) ∧
      w.store.Relinks name (fun o x => w.store.Links name o x ∨ o = owner ∧ x ∈ ids) v.store := by
  refine StoreAction.exists_run_forIn (P := fun done => w.store.Relinks name fun o x =>
    w.store.Links name o x ∨ o = owner ∧ x ∈ done) (fun done related _ _ u hu => ?_)
    (.mono (.refl h) (by simp))
  obtain ⟨out, hout, hrelinks⟩ := hu.edges.relinks_add (hs.advances hu.advances) owner related
  obtain ⟨v, hstore, hrun⟩ := StoreAction.exists_run_call_bind hout
  refine ⟨v, hrun, hstore ▸ (hu.trans hrelinks).mono fun o x => ?_⟩
  rw [hu.links, List.mem_append, List.mem_singleton, and_or_left, or_assoc]

/-- **To edit the edges of an owner** adds some links and takes away others. -/
theorem exists_run_apply (hs : w.store.Quiet) (h : w.store.Edges (collection e.field C))
    (owner : String) :
    ∃ v, (apply C owner e none).run.run w = (.ok (), v) ∧
      w.store.Relinks (collection e.field C) (fun o x =>
        (w.store.Links (collection e.field C) o x ∨ o = owner ∧ x ∈ e.add) ∧
          ¬(o = owner ∧ x ∈ e.remove)) v.store := by
  obtain ⟨u, hadd, hu⟩ := exists_run_add hs h owner e.add
  cases hremove : e.remove with
  | nil =>
    refine ⟨u, StoreAction.run_bind_eq_ok.2 ⟨⟨⟩, u, hadd, ?_⟩, hu.mono fun o x => by simp⟩
    rw [hremove]
    rfl
  | cons first rest =>
    obtain ⟨n, hout, hrelinks⟩ := hu.edges.relinks_remove (hs.advances hu.advances)
      (p := linkingAny owner (first :: rest)) (P := fun o x => o = owner ∧ x ∈ first :: rest)
      (fun r => exists_eval_linkingAny owner _ r) fun r o x hedge => eval_linkingAny hedge
    obtain ⟨v, hstore, hrun⟩ := StoreAction.exists_run_call_bind hout
    refine ⟨v, StoreAction.run_bind_eq_ok.2 ⟨⟨⟩, u, hadd, ?_⟩,
      hstore ▸ (hu.trans hrelinks).mono fun o x => by rw [hu.links]⟩
    rw [hremove]
    exact hrun

/-- **To remove the edges of owners** takes away their links. -/
theorem exists_run_removeOwners (hs : w.store.Quiet) {field : String}
    (h : w.store.Edges (collection field C)) (owners : List String) :
    ∃ n v, (removeOwners C field owners none).run.run w = (.ok n, v) ∧
      w.store.Relinks (collection field C) (fun o x =>
        w.store.Links (collection field C) o x ∧ o ∉ owners) v.store := by
  cases owners with
  | nil => exact ⟨0, w, rfl, .mono (.refl h) (by simp)⟩
  | cons first rest =>
    obtain ⟨n, hout, hrelinks⟩ := h.relinks_remove hs
      (p := .field owningKey (anyOf (first :: rest))) (P := fun o _ => o ∈ first :: rest)
      (fun r => ⟨_, rfl⟩) fun r o x hedge => eval_owners hedge
    exact ⟨n, _, congrArg (·, _) hout, hrelinks⟩

end Join

end ObjectEngine
