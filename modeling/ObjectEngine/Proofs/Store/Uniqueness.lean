import Mathlib.Data.List.Induction
import ObjectEngine.Proofs.Store.Effect

/-!
# Unique indexes

A unique index promises that no two records of its collection have one key. The store checks
every record that it writes against its collection, but not against the other records that the
same call writes, and a transaction that is rolled back puts records back without a check.

This file says exactly when the promise is broken. `Store.Collides` describes the calls that
break it: an update that gives two records one key (`Collapse`), a write of a record that the
check takes for another because it has its `_id` (`Shadow`), a rolled-back record whose key is
taken (`Store.Revives`) and an index over keys that are written differently but equal
(`Store.Conflates`). `Store.unique_run_iff` is the step: a call keeps the promise unless it
collides. `Store.unique_runAll_iff` is the run: the promise holds all along a run from the
empty store if and only if no call of it collides.
-/

namespace ObjectEngine

/-! ### Equality of data -/

namespace Datum

theorem double_same_comm (x y : Double) : x.same y = y.same x := by
  simp only [Double.same, eq_comm, Bool.and_comm]

mutual

theorem same_comm (a b : Datum) : a.same b = b.same a := by
  cases a <;> cases b <;> first | rfl | skip
  case bool.bool => simp only [same, eq_comm]
  case int.int => simp only [same, eq_comm]
  case double.double => exact double_same_comm _ _
  case string.string => simp only [same, eq_comm]
  case date.date => simp only [same, eq_comm]
  case binary.binary => simp only [same, eq_comm]
  case array.array as bs => exact sameItems_comm as bs
  case record.record as bs => exact sameMembers_comm as bs
  case extended.extended => simp only [same, eq_comm]

theorem sameItems_comm (as bs : List Datum) : sameItems as bs = sameItems bs as := by
  cases as <;> cases bs <;> first | rfl | skip
  case cons.cons a as b bs => simp only [sameItems, same_comm a b, sameItems_comm as bs]

theorem sameMembers_comm (as bs : List (String × Datum)) :
    sameMembers as bs = sameMembers bs as := by
  cases as <;> cases bs <;> first | rfl | skip
  case cons.cons a as b bs =>
    obtain ⟨k, a⟩ := a
    obtain ⟨l, b⟩ := b
    simp only [sameMembers, same_comm a b, sameMembers_comm as bs, eq_comm]

end

end Datum

/-! ### The promise -/

/-- **One key**: both records are indexed, and their keys are equal. -/
def StoreIndex.SameKey (index : StoreIndex) (r r' : Record) : Prop :=
  ∃ k k', index.key? r = some k ∧ index.key? r' = some k' ∧ Store.sameKey k k' = true

theorem StoreIndex.SameKey.symm {index : StoreIndex} {r r' : Record} (h : index.SameKey r r') :
    index.SameKey r' r := by
  obtain ⟨k, k', hk, hk', hsame⟩ := h
  exact ⟨k', k, hk', hk, (Datum.sameItems_comm k' k).trans hsame⟩

namespace Collection

variable {c : Collection} {ws : List Store.Change}

/-- A unique index of a collection. -/
def Enforces (c : Collection) (index : StoreIndex) : Prop :=
  index.unique = true ∧ ∃ n, c.indexes.lookup n = some index

/-- **A clash**: two records of a collection with one key under a unique index of it. -/
def Clash (c : Collection) (a b : String) : Prop :=
  a ≠ b ∧ ∃ ra rb, c.records.lookup a = some ra ∧ c.records.lookup b = some rb ∧
    ∃ index, c.Enforces index ∧ index.SameKey ra rb

theorem Clash.symm {a b : String} (h : c.Clash a b) : c.Clash b a := by
  obtain ⟨hne, ra, rb, ha, hb, index, hindex, hsame⟩ := h
  exact ⟨hne.symm, rb, ra, hb, ha, index, hindex, hsame.symm⟩

/-- **The promise of unique indexes**: no two records have one key. -/
def Unique (c : Collection) : Prop := ∀ a b, ¬c.Clash a b

/-- Two records that are put in have one key. -/
def Collapse (c : Collection) (ws : List Store.Change) : Prop :=
  ∃ w ∈ ws, ∃ w' ∈ ws, w.id ≠ w'.id ∧ ∃ r r', w.after = some r ∧ w'.after = some r' ∧
    ∃ index, c.Enforces index ∧ index.SameKey r r'

/-- A record that is put in has the key and the `_id` of a record that stays under another
id, so that the check takes the two for one. -/
def Shadow (c : Collection) (ws : List Store.Change) : Prop :=
  ∃ w ∈ ws, ∃ b, (∀ w' ∈ ws, w'.id ≠ b) ∧ ∃ r rb, w.after = some r ∧
    c.records.lookup b = some rb ∧
    Datum.sameOption (rb.lookup Record.idKey) (r.lookup Record.idKey) = true ∧
    ∃ index, c.Enforces index ∧ index.SameKey r rb

/-- Two records have keys under a new unique index that are equal but written differently. -/
def Conflate (c : Collection) (index : StoreIndex) : Prop :=
  index.unique = true ∧ ∃ a b ra rb, a ≠ b ∧ c.records.lookup a = some ra ∧
    c.records.lookup b = some rb ∧ ∃ k k', index.key? ra = some k ∧ index.key? rb = some k' ∧
      Store.sameKey k k' = true ∧ Datum.identicalItems k k' = false

/-- **A record that passes the check** has the key of no record but those with its `_id`. -/
theorem sameOption_of_check {name : String} {r rb : Record} {b : String} {index : StoreIndex}
    (hcheck : Store.checkUnique name c r = .ok ()) (hindex : c.Enforces index)
    (hb : c.records.lookup b = some rb) (hsame : index.SameKey r rb) :
    Datum.sameOption (rb.lookup Record.idKey) (r.lookup Record.idKey) = true := by
  obtain ⟨hunique, n, hn⟩ := hindex
  obtain ⟨k, k', hk, hk', hkeys⟩ := hsame
  have hnone :
      (Members.values c.indexes).find? (fun i => i.unique && Store.clashes c i r) = none := by
    unfold Store.checkUnique at hcheck
    split at hcheck
    · exact absurd hcheck (by simp)
    · assumption
  have hclash : Store.clashes c index r = false := by
    simpa [hunique] using List.find?_eq_none.1 hnone index (Members.mem_values_of_lookup hn)
  simp only [Store.clashes, hk, List.any_eq_false] at hclash
  have hother := hclash rb (Members.mem_values_of_lookup hb)
  simpa [hk', Store.sameKey, Datum.sameItems_comm k' k, show Datum.sameItems k k' = true from hkeys]
    using hother

/-- **A write keeps the promise unless its records collapse or one shadows another.** -/
theorem unique_changed_iff {name : String} (hc : c.Unique)
    (hagree : ∀ w ∈ ws, ∀ w' ∈ ws, w.id = w'.id → w.after = w'.after)
    (hadmitted : ∀ w ∈ ws, w.Admitted name c) :
    (Store.changed ws c).Unique ↔ ¬(c.Collapse ws ∨ c.Shadow ws) := by
  -- what is read after the write: the record of a change, or what was there
  have hnew {w : Store.Change} (hw : w ∈ ws) :
      (Store.changed ws c).records.lookup w.id = w.after :=
    Store.lookup_applyChanges hagree hw c.records
  have hold {b : String} (hb : ∀ w ∈ ws, w.id ≠ b) :
      (Store.changed ws c).records.lookup b = c.records.lookup b :=
    Store.lookup_applyChanges_of_ne hb c.records
  have hmixed {w : Store.Change} {b : String} (hw : w ∈ ws) (hb : ∀ w' ∈ ws, w'.id ≠ b)
      (h : (Store.changed ws c).Clash w.id b) : c.Shadow ws := by
    obtain ⟨-, r, rb, hr, hrb, index, hindex, hsame⟩ := h
    rw [hnew hw] at hr
    rw [hold hb] at hrb
    exact ⟨w, hw, b, hb, r, rb, hr, hrb,
      sameOption_of_check ((hadmitted w hw).check r hr) hindex hrb hsame, index, hindex, hsame⟩
  constructor
  · rintro hunique (⟨w, hw, w', hw', hne, r, r', hr, hr', hkeys⟩ |
      ⟨w, hw, b, hb, r, rb, hr, hrb, -, hkeys⟩)
    · exact hunique w.id w'.id ⟨hne, r, r', (hnew hw).trans hr, (hnew hw').trans hr', hkeys⟩
    · exact hunique w.id b ⟨hb w hw, r, rb, (hnew hw).trans hr, (hold hb).trans hrb, hkeys⟩
  · intro h a b hclash
    -- a clash is between two changes, a change and what stays, or two that stay
    by_cases ha : ∃ w ∈ ws, w.id = a
    · obtain ⟨w, hw, rfl⟩ := ha
      by_cases hb : ∃ w' ∈ ws, w'.id = b
      · obtain ⟨w', hw', rfl⟩ := hb
        obtain ⟨hne, r, r', hr, hr', hkeys⟩ := hclash
        exact h (.inl ⟨w, hw, w', hw', hne, r, r', (hnew hw).symm.trans hr,
          (hnew hw').symm.trans hr', hkeys⟩)
      · exact h (.inr (hmixed hw (fun w' hw' he => hb ⟨w', hw', he⟩) hclash))
    · have ha' : ∀ w ∈ ws, w.id ≠ a := fun w hw he => ha ⟨w, hw, he⟩
      by_cases hb : ∃ w' ∈ ws, w'.id = b
      · obtain ⟨w', hw', rfl⟩ := hb
        exact h (.inr (hmixed hw' ha' hclash.symm))
      · have hb' : ∀ w ∈ ws, w.id ≠ b := fun w hw he => hb ⟨w, hw, he⟩
        obtain ⟨hne, ra, rb, hra, hrb, hkeys⟩ := hclash
        exact hc a b ⟨hne, ra, rb, (hold ha').symm.trans hra, (hold hb').symm.trans hrb, hkeys⟩

/-- **A rollback keeps the promise unless a record that it touches clashes afterwards.** -/
theorem unique_revertAll_iff {name : String} {entries : List Store.UndoEntry} (hc : c.Unique) :
    (Store.revertAll name entries c).Unique ↔
      ¬∃ entry ∈ entries, entry.collection = name ∧
        ∃ b, (Store.revertAll name entries c).Clash entry.id b := by
  refine ⟨fun hunique ⟨entry, _, _, b, hclash⟩ => hunique entry.id b hclash, fun h a b hclash => ?_⟩
  -- no touched record clashes, so the two of a clash are what they were
  have hold {k : String} (hk : ∀ other, (Store.revertAll name entries c).Clash k other →
      ∀ entry ∈ entries, entry.collection = name → entry.id ≠ k) {other : String}
      (hother : (Store.revertAll name entries c).Clash k other) :
      (Store.revertAll name entries c).records.lookup k = c.records.lookup k :=
    Store.lookup_revertAll_of_ne (hk other hother) c
  have huntouched (k other : String) (hk : (Store.revertAll name entries c).Clash k other) :
      ∀ entry ∈ entries, entry.collection = name → entry.id ≠ k := fun entry he hname hid =>
    h ⟨entry, he, hname, other, hid ▸ hk⟩
  have ha := hold (huntouched a) hclash
  have hb := hold (huntouched b) hclash.symm
  obtain ⟨hne, ra, rb, hra, hrb, index, ⟨hunique, n, hn⟩, hsame⟩ := hclash
  rw [Store.revertAll_indexes] at hn
  exact hc a b ⟨hne, ra, rb, ha ▸ hra, hb ▸ hrb, index, ⟨hunique, n, hn⟩, hsame⟩

/-- Records without duplicate keys have keys that are written differently, read in the order
of their ids. -/
theorem identicalItems_of_hasDuplicateKeys {index : StoreIndex} {records : Members Record}
    (h : Store.hasDuplicateKeys index (Members.values records) = false) {a b : String}
    (hne : a ≠ b) {ra rb : Record} (ha : records.lookup a = some ra)
    (hb : records.lookup b = some rb) {k k' : List Datum} (hk : index.key? ra = some k)
    (hk' : index.key? rb = some k') :
    Datum.identicalItems k k' = false ∨ Datum.identicalItems k' k = false := by
  induction records with
  | nil => exact absurd ha (by simp)
  | cons m rest ih =>
    obtain ⟨hfirst, hrest⟩ := Bool.or_eq_false_iff.1 h
    -- the first record differs from every later one that has a key
    have hlater {key : List Datum} (hkey : index.key? m.2 = some key) {other : Record}
        {key' : List Datum} (hother : other ∈ Members.values rest)
        (hkey' : index.key? other = some key') : Datum.identicalItems key key' = false := by
      rw [hkey, List.any_eq_false] at hfirst
      simpa [hkey'] using hfirst other hother
    rw [Members.lookup_cons] at ha hb
    by_cases hma : a = m.1
    · rw [if_pos hma] at ha
      rw [if_neg fun hmb => hne (hma.trans hmb.symm)] at hb
      obtain rfl : m.2 = ra := Option.some.inj ha
      exact .inl (hlater hk (Members.mem_values_of_lookup hb) hk')
    · rw [if_neg hma] at ha
      by_cases hmb : b = m.1
      · rw [if_pos hmb] at hb
        obtain rfl : m.2 = rb := Option.some.inj hb
        exact .inr (hlater hk' (Members.mem_values_of_lookup ha) hk)
      · rw [if_neg hmb] at hb
        exact ih hrest ha hb

/-- **A new index keeps the promise unless it conflates two keys.** -/
theorem unique_insertIndex_iff {index : StoreIndex} (hc : c.Unique)
    (hcheck : index.unique = true →
      Store.hasDuplicateKeys index (Members.values c.records) = false) :
    Collection.Unique { c with indexes := Members.insert index.name index c.indexes } ↔
      ¬c.Conflate index := by
  constructor
  · rintro hunique ⟨hindex, a, b, ra, rb, hne, hra, hrb, k, k', hk, hk', hsame, -⟩
    refine hunique a b ⟨hne, ra, rb, hra, hrb, index, ⟨hindex, index.name, ?_⟩,
      k, k', hk, hk', hsame⟩
    exact (Members.lookup_insert ..).trans (if_pos rfl)
  · rintro h a b ⟨hne, ra, rb, hra, hrb, other, ⟨hother, n, hn⟩, hsame⟩
    rw [Members.lookup_insert] at hn
    split at hn
    · obtain rfl := Option.some.inj hn
      obtain ⟨k, k', hk, hk', hkeys⟩ := hsame
      -- the check compares the two keys in the order of their ids only
      rcases identicalItems_of_hasDuplicateKeys (hcheck hother) hne hra hrb hk hk' with hid | hid
      · exact h ⟨hother, a, b, ra, rb, hne, hra, hrb, k, k', hk, hk', hkeys, hid⟩
      · exact h ⟨hother, b, a, rb, ra, hne.symm, hrb, hra, k', k, hk', hk,
          (Datum.sameItems_comm k' k).trans hkeys, hid⟩
    · exact hc a b ⟨hne, ra, rb, hra, hrb, other, ⟨hother, n, hn⟩, hsame⟩

/-- Fewer indexes promise less. -/
theorem Unique.eraseIndex (hc : c.Unique) (index : String) :
    Collection.Unique { c with indexes := Members.erase index c.indexes } := by
  rintro a b ⟨hne, ra, rb, hra, hrb, other, ⟨hother, n, hn⟩, hsame⟩
  rw [Members.lookup_erase] at hn
  split at hn
  · exact absurd hn (by simp)
  · exact hc a b ⟨hne, ra, rb, hra, hrb, other, ⟨hother, n, hn⟩, hsame⟩

end Collection

namespace Store

/-! ### One call -/

/-- All collections keep the promise of their unique indexes. -/
def Unique (s : Store) : Prop := ∀ name, (s.collection name).Unique

/-- A rolled-back record has a key that was taken meanwhile. -/
def Revives (s : Store) (call : Call) : Prop :=
  ∃ entry ∈ s.rolledBack call, ∃ b,
    (s.collectionAfter call entry.collection).Clash entry.id b

/-- A new unique index over keys that are equal but written differently. -/
def Conflates (s : Store) : Call → Prop
  | .createIndex name index =>
    (s.collection name).indexes.lookup index.name = none ∧ (s.collection name).Conflate index
  | _ => False

/-- **A call that breaks the promise**: it succeeds, and gives two records one key in one of
four ways. -/
def Collides (s : Store) (call : Call) : Prop :=
  (∃ a, (s.run call).outcome = .ok a) ∧
    ((s.collection call.collection).Collapse (s.changes call) ∨
      (s.collection call.collection).Shadow (s.changes call) ∨
      s.Revives call ∨ s.Conflates call)

theorem SameContent.unique_iff {s t : Store} (h : SameContent s t) : t.Unique ↔ s.Unique :=
  forall_congr' fun name => by rw [h.collection]

/-- A store of which one collection may change keeps the promise if that one does. -/
theorem unique_iff_of_collection {s t : Store} (hs : s.Unique) {name : String} {c : Collection}
    (h : ∀ n, t.collection n = if n = name then c else s.collection n) : t.Unique ↔ c.Unique := by
  constructor
  · intro ht
    have := ht name
    rwa [h, if_pos rfl] at this
  · intro hc n
    rw [h]
    split
    · exact hc
    · exact hs n

/-- No changes collapse, and no change shadows anything. -/
theorem not_collapse_nil (c : Collection) : ¬c.Collapse [] := fun ⟨_, hw, _⟩ => by simp at hw

theorem not_shadow_nil (c : Collection) : ¬c.Shadow [] := fun ⟨_, hw, _⟩ => by simp at hw

/-- A call that only writes to its collection. -/
theorem unique_iff_of_changes {s t : Store} (hs : s.Unique) {call : Call} {a : call.Answer}
    (hdone : Done s call a t)
    (hafter : ∀ n, s.collectionAfter call n =
      if n = call.collection then changed (s.changes call) (s.collection n) else s.collection n)
    (hundo : s.rolledBack call = []) (hindex : ¬s.Conflates call) :
    t.Unique ↔ ¬((s.collection call.collection).Collapse (s.changes call) ∨
      (s.collection call.collection).Shadow (s.changes call) ∨
      s.Revives call ∨ s.Conflates call) := by
  have hrevives : ¬s.Revives call := fun ⟨entry, hentry, _⟩ => by
    rw [hundo] at hentry
    exact absurd hentry List.not_mem_nil
  have hcollection (n : String) : t.collection n =
      if n = call.collection then changed (s.changes call) (s.collection call.collection)
      else s.collection n := by
    rw [hdone.collection, hafter]
    by_cases h : n = call.collection
    · rw [if_pos h, if_pos h, h]
    · rw [if_neg h, if_neg h]
  have hchanged := Collection.unique_changed_iff (hs call.collection)
    (fun w hw w' hw' => changes_agree hw hw') hdone.admitted
  rw [unique_iff_of_collection hs hcollection, hchanged]
  simp only [hrevives, hindex, or_false]

/-- A call that rolls back. -/
theorem unique_iff_of_revertAll {s t : Store} (hs : s.Unique) {call : Call} {a : call.Answer}
    (hdone : Done s call a t)
    (hafter : ∀ n, s.collectionAfter call n = revertAll n (s.rolledBack call) (s.collection n))
    (hchanges : s.changes call = []) (hindex : ¬s.Conflates call) :
    t.Unique ↔ ¬((s.collection call.collection).Collapse (s.changes call) ∨
      (s.collection call.collection).Shadow (s.changes call) ∨
      s.Revives call ∨ s.Conflates call) := by
  have hunique (n : String) : (t.collection n).Unique ↔
      ¬∃ entry ∈ s.rolledBack call, entry.collection = n ∧
        ∃ b, (s.collectionAfter call n).Clash entry.id b := by
    rw [hdone.collection, hafter]
    exact Collection.unique_revertAll_iff (hs n)
  have hrevives : t.Unique ↔ ¬s.Revives call := by
    refine ⟨fun ht ⟨entry, hentry, b, hclash⟩ => ?_, fun h n => (hunique n).2 ?_⟩
    · exact (hunique entry.collection).1 (ht _) ⟨entry, hentry, rfl, b, hclash⟩
    · rintro ⟨entry, hentry, rfl, b, hclash⟩
      exact h ⟨entry, hentry, b, hclash⟩
  rw [hchanges]
  simp only [hrevives, hindex, not_collapse_nil, not_shadow_nil, false_or, or_false]

/-- A call that changes no record keeps the promise if its indexes do. -/
theorem not_collides_of_nil {s : Store} {call : Call} (hchanges : s.changes call = [])
    (hundo : s.rolledBack call = []) :
    ((s.collection call.collection).Collapse (s.changes call) ∨
      (s.collection call.collection).Shadow (s.changes call) ∨
      s.Revives call ∨ s.Conflates call) ↔ s.Conflates call := by
  have hrevives : ¬s.Revives call := fun ⟨entry, hentry, _⟩ => by
    rw [hundo] at hentry
    exact absurd hentry List.not_mem_nil
  rw [hchanges]
  simp only [hrevives, not_collapse_nil, not_shadow_nil, false_or]

/-- A collection that is dropped promises nothing. -/
theorem unique_of_drop {s t : Store} (hs : s.Unique) {name : String}
    {a : (Call.drop name).Answer} (hdone : Done s (.drop name) a t) : t.Unique := by
  have hempty : Collection.Unique {} := fun a b ⟨_, ra, _, ha, _⟩ => by simp at ha
  exact (unique_iff_of_collection hs hdone.collection).2 hempty

/-- **An index that is created** keeps the promise unless it is new and conflates keys. -/
theorem unique_iff_of_createIndex {s t : Store} (hs : s.Unique) {name : String}
    {index : StoreIndex} {a : (Call.createIndex name index).Answer}
    (hdone : Done s (.createIndex name index) a t) :
    t.Unique ↔ ¬s.Conflates (.createIndex name index) := by
  by_cases hfree : (s.collection name).indexes.lookup index.name = none
  · have hcollection (n : String) : t.collection n =
        if n = name then
          { s.collection name with
            indexes := Members.insert index.name index (s.collection name).indexes }
        else s.collection n := by
      rw [hdone.collection]
      simp only [collectionAfter]
      by_cases h : n = name
      · subst h
        rw [if_pos ⟨rfl, hfree⟩, if_pos rfl]
      · rw [if_neg fun hand => h hand.1, if_neg h]
    rw [unique_iff_of_collection hs hcollection,
      Collection.unique_insertIndex_iff (hs name) (hdone.answers hfree)]
    simp only [Conflates, hfree, true_and]
  · have hcollection (n : String) : t.collection n = s.collection n := by
      rw [hdone.collection]
      simp only [collectionAfter]
      refine if_neg fun hand => hfree ?_
      rw [← hand.1]
      exact hand.2
    have hunique : t.Unique := fun n => by
      rw [hcollection]
      exact hs n
    exact iff_of_true hunique fun h => hfree h.1

/-- An index that is dropped keeps the promise of the others. -/
theorem unique_of_dropIndex {s t : Store} (hs : s.Unique) {name index : String}
    {a : (Call.dropIndex name index).Answer} (hdone : Done s (.dropIndex name index) a t) :
    t.Unique := by
  have hcollection (n : String) : t.collection n =
      if n = name then
        { s.collection name with indexes := Members.erase index (s.collection name).indexes }
      else s.collection n := by
    rw [hdone.collection]
    simp only [collectionAfter]
    by_cases h : n = name
    · rw [if_pos h, if_pos h, h]
    · rw [if_neg h, if_neg h]
  exact (unique_iff_of_collection hs hcollection).2 ((hs name).eraseIndex index)

/-- **The step**: a call keeps the promise of the unique indexes unless it collides. -/
theorem unique_run_iff {s : Store} (hs : s.Unique) (call : Call) :
    (s.run call).store.Unique ↔ ¬s.Collides call := by
  cases hrun : (s.run call).outcome with
  | error e =>
    have hnot : ¬s.Collides call := fun ⟨⟨a, ha⟩, _⟩ => by simp [hrun] at ha
    exact ((run_error hrun).unique_iff.trans (iff_of_true hs hnot))
  | ok a =>
    have hdone := run_ok hrun
    rw [show s.Collides call ↔ _ from and_iff_right ⟨a, hrun⟩]
    cases call with
    | drop name =>
      rw [not_collides_of_nil rfl rfl]
      exact iff_of_true (unique_of_drop hs hdone) id
    | createIndex name index =>
      rw [not_collides_of_nil rfl rfl]
      exact unique_iff_of_createIndex hs hdone
    | dropIndex name index =>
      rw [not_collides_of_nil rfl rfl]
      exact iff_of_true (unique_of_dropIndex hs hdone) id
    | abort session => exact unique_iff_of_revertAll hs hdone (fun _ => rfl) rfl id
    | endSession session => exact unique_iff_of_revertAll hs hdone (fun _ => rfl) rfl id
    | _ => exact unique_iff_of_changes hs hdone (fun _ => rfl) rfl id

/-! ### A run -/

/-- The store after a run of calls. -/
def runAll (s : Store) (calls : List Call) : Store :=
  calls.foldl (fun s call => (s.run call).store) s

theorem runAll_append (s : Store) (calls : List Call) (call : Call) :
    runAll s (calls ++ [call]) = ((runAll s calls).run call).store := by
  simp only [runAll, List.foldl_append, List.foldl_cons, List.foldl_nil]

/-- The empty store keeps the promise. -/
theorem unique_empty (faults : List Fault) : Unique { faults := faults } :=
  fun _ _ _ ⟨_, _, _, ha, _⟩ => by simp [collection, collection?] at ha

/-- **The run**: from the empty store the promise of the unique indexes holds all along a run
if and only if no call of it collides. -/
theorem unique_runAll_iff (faults : List Fault) (calls : List Call) :
    (∀ before, before <+: calls → (runAll { faults := faults } before).Unique) ↔
      ∀ before call, before ++ [call] <+: calls →
        ¬(runAll { faults := faults } before).Collides call := by
  constructor
  · intro h before call hprefix
    have hbefore := h before ((List.prefix_append _ _).trans hprefix)
    have hafter := h _ hprefix
    rw [runAll_append] at hafter
    exact (unique_run_iff hbefore call).1 hafter
  · intro h before
    -- the calls are made one after another, so a run grows at its end
    induction before using List.reverseRecOn with
    | nil => exact fun _ => unique_empty faults
    | append_singleton before call ih =>
      intro hprefix
      rw [runAll_append]
      have hbefore := ih ((List.prefix_append _ _).trans hprefix)
      exact (unique_run_iff hbefore call).2 (h before call hprefix)

/-- A run whose last call gives the records `a` and `b` the key 5. -/
def crowding : List Call :=
  [.createIndex "C" ⟨"n_1", [("n", 1)], true, false, none⟩,
    .insert "C" [("_id", .string "a"), ("n", .int 1)] none,
    .insert "C" [("_id", .string "b"), ("n", .int 2)] none,
    .update "C" .all { set := [("n", .int 5)] } none]

/-- An update of several records can break the promise. -/
theorem not_unique_crowding : ¬(runAll {} crowding).Unique := by
  intro h
  refine h "C" "a" "b" ⟨by decide, [("_id", .string "a"), ("n", .int 5)],
    [("_id", .string "b"), ("n", .int 5)], rfl, rfl,
    ⟨"n_1", [("n", 1)], true, false, none⟩, ⟨rfl, "n_1", rfl⟩, ?_⟩
  exact ⟨[.int 5], [.int 5], rfl, rfl, rfl⟩

end Store

end ObjectEngine
