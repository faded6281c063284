import Mathlib.Algebra.BigOperators.Group.List.Basic
import Mathlib.Algebra.Ring.Int.Defs
import ObjectEngine.Proofs.Engine.Tallying
import ObjectEngine.Proofs.Stored.Selfsame

/-!
# What upserts accumulate in a record

A series of updates that count, all with the same operators on the same paths (`Plan.Series`),
accumulates in one record. The first of them is applied to the seed of a predicate and makes a
record that satisfies it (`Plan.accumulated_insert`), and each of the others leaves what the first
one has set, adds to the sums and leaves the record satisfying the predicate
(`Plan.Accumulated.update`).
-/

namespace ObjectEngine

open Record (OpenAt)
open Stored (Own keyPath stampKeys)

/-! ### Whole fields -/

/-- **Values of whole fields**: the names are different names of a caller's own fields, and there
is no NaN in the values. -/
structure WholeFields (wanted : Members Value) : Prop where
  isName : ∀ m ∈ wanted, isFieldName m.1 = true
  notDefault : ∀ m ∈ wanted, m.1 ∉ defaultFields
  nodup : (Members.keys wanted).Nodup
  nanFree : ∀ m ∈ wanted, m.2.NaNFree

namespace WholeFields

variable {schema : ClassSchema} {wanted : Members Value} {m n : String × Value}

theorem own (h : WholeFields wanted) (hm : m ∈ wanted) : Own m.1 :=
  Stored.own_of_isIdentifier (h.isName m hm) (h.notDefault m hm)

theorem split (h : WholeFields wanted) (hm : m ∈ wanted) : Text.split '.' m.1 = [m.1] :=
  Text.split_of_not_mem (not_mem_of_isIdentifier (h.isName m hm))

theorem root (h : WholeFields wanted) (hm : m ∈ wanted) : Text.root m.1 = m.1 :=
  Text.root_of_split (h.split hm)

theorem root_keyPath (h : WholeFields wanted) (hm : m ∈ wanted) :
    Text.root (keyPath schema m.1) = keyPath schema m.1 := by
  rw [Stored.root_keyPath, h.root hm, Stored.keyPath_eq (h.isName m hm)]

theorem dot_not_mem (h : WholeFields wanted) (hm : m ∈ wanted) :
    '.' ∉ (keyPath schema m.1).toList :=
  h.root_keyPath hm ▸ Text.dot_not_mem_root _

/-- Different fields are stored under different keys. -/
theorem eq_of_keyPath (h : WholeFields wanted) (hm : m ∈ wanted) (hn : n ∈ wanted)
    (hkey : keyPath schema m.1 = keyPath schema n.1) : m = n := by
  refine List.inj_on_of_nodup_map h.nodup hm hn (Stored.keyPath_inj ?_ ?_ hkey)
  · rw [h.root hm]
    exact h.own hm
  · rw [h.root hn]
    exact h.own hn

/-- A path that is apart from a whole field has another root. -/
theorem root_ne_of_apart (h : WholeFields wanted) (hm : m ∈ wanted) {path : String}
    (hapart : Text.Apart path m.1) : Text.root path ≠ m.1 := by
  intro hroot
  have hhead := Text.head?_split path
  rw [hroot] at hhead
  obtain ⟨rest, hrest⟩ := List.head?_eq_some_iff.1 hhead
  refine hapart.2 ?_
  rw [h.split hm, hrest]
  exact List.cons_prefix_cons.2 ⟨rfl, List.nil_prefix⟩

end WholeFields

namespace Plan

variable {schema : ClassSchema} {caller : Caller} {wanted : Members Value} {p : Predicate}

/-! ### Predicates on whole fields -/

namespace Compares

variable (h : Compares schema caller wanted p) (hwhole : WholeFields wanted)
  {x y : String × Datum}

include h hwhole

theorem eq_of_key (hx : x ∈ p.equalities) (hy : y ∈ p.equalities) (hkey : x.1 = y.1) : x = y := by
  obtain ⟨m, hm, hmx⟩ := h.operand x hx
  obtain ⟨n, hn, hny⟩ := h.operand y hy
  obtain rfl := hwhole.eq_of_keyPath hm hn (hmx.1.symm.trans (hkey.trans hny.1))
  exact hmx.unique hny

theorem split_key (hx : x ∈ p.equalities) : Text.split '.' x.1 = [x.1] := by
  obtain ⟨m, hm, hkey, -⟩ := h.operand x hx
  rw [hkey]
  exact Text.split_of_not_mem (hwhole.dot_not_mem hm)

theorem equalUnder_self (hx : x ∈ p.equalities) (c : Option Collation) :
    x.2.equalUnder c x.2 = true := by
  obtain ⟨m, hm, -, target, -, hd⟩ := h.operand x hx
  exact Datum.equalUnder_self (same_operand (hwhole.nanFree m hm) hd) c

theorem lookup_seed (hx : x ∈ p.equalities) : p.seed.lookup x.1 = some x.2 :=
  Predicate.lookup_seed (fun _ _ _ hd hd' => (Prod.mk.inj (h.eq_of_key hwhole hd hd' rfl)).2) hx

/-- **A record with the values** satisfies the predicate. -/
theorem eval {r : Record} (hr : ∀ x ∈ p.equalities, r.lookup x.1 = some x.2) :
    (p.eval none r).1 = .ok true :=
  Predicate.eval_of_lookup h.equates fun x hx => ⟨hr x hx, h.equalUnder_self hwhole hx none⟩

/-- A key of the predicate is none that a stamp writes. -/
theorem apart_stampKeys (hx : x ∈ p.equalities) {key : String} (hkey : key ∈ stampKeys) :
    Text.Apart x.1 key := by
  obtain ⟨m, hm, hkeyPath, -⟩ := h.operand x hx
  rw [hkeyPath]
  exact (apart_of_mem_stampKeys ((hwhole.root hm).symm ▸ hwhole.own hm) hkey).symm

theorem root_ne_keyPath (hx : x ∈ p.equalities) {path : String} (hown : Own (Text.root path))
    (hapart : ∀ m ∈ wanted, Text.Apart path m.1) :
    x.1 ≠ Text.root (keyPath schema path) := by
  obtain ⟨m, hm, hkey, -⟩ := h.operand x hx
  rw [hkey, Stored.root_keyPath, Stored.keyPath_eq (hwhole.isName m hm)]
  intro heq
  exact hwhole.root_ne_of_apart hm (hapart m hm) (Stored.rootKey_inj (hwhole.own hm) hown heq).symm

theorem apart_keyPath (hx : x ∈ p.equalities) {path : String} (hown : Own (Text.root path))
    (hapart : ∀ m ∈ wanted, Text.Apart path m.1) : Text.Apart x.1 (keyPath schema path) := by
  refine Text.apart_of_root ?_
  rw [Text.root_of_split (h.split_key hwhole hx)]
  exact h.root_ne_keyPath hwhole hx hown hapart

end Compares

/-! ### Series of updates -/

/-- What an update adds at a path. -/
def amount (path : String) (ops : UpdateMap) : Int :=
  match ops.lookup path with
  | some (.increment (.int n)) => n.toInt
  | _ => 0

/-- What updates add at a path, taken together. -/
def total (path : String) (calls : List UpdateMap) : Int := (calls.map (amount path)).sum

/-- The paths of the operators, and what kind of operator each is. -/
def outline (ops : UpdateMap) : List (String × String) := ops.map fun m => (m.1, m.2.name)

/-- **A series of updates that count**: all of them are accepted and have the same operators on
the same paths, which are different paths of a caller's own, apart from the fields with wanted
values; and no sum overflows. -/
structure Series (schema : ClassSchema) (caller : Caller) (wanted : Members Value)
    (calls : List UpdateMap) : Prop where
  counts : ∀ ops ∈ calls, ∀ m ∈ ops, m.2.Counts
  accepted : ∀ ops ∈ calls, ∃ out, update schema caller ops = .ok out
  nodup : ∀ ops ∈ calls, (Members.keys ops).Nodup
  notReserved : ∀ ops ∈ calls, ∀ m ∈ ops, ¬Stored.Reserved (Text.root m.1)
  apart : ∀ ops ∈ calls, ∀ m ∈ ops, ∀ n ∈ wanted, Text.Apart m.1 n.1
  alike : ∀ ops ∈ calls, ∀ ops' ∈ calls, outline ops = outline ops'
  fits : ∀ path k, (Words.int64? (total path (calls.take k))).isSome

theorem amount_of_mem {ops : UpdateMap} (hnodup : (Members.keys ops).Nodup) {path : String}
    {n : Int64} (h : (path, .increment (.int n)) ∈ ops) : amount path ops = n.toInt := by
  have hlookup : ops.lookup path = some (.increment (.int n)) :=
    Members.lookup_eq_some_of_unique h fun op hop =>
      (Prod.mk.inj (List.inj_on_of_nodup_map hnodup hop h rfl)).2
  rw [amount, hlookup]

theorem amount_eq_zero {ops : UpdateMap} {path : String}
    (h : ∀ n, (path, .increment (.int n)) ∉ ops) : amount path ops = 0 := by
  unfold amount
  split
  case h_1 n hlookup => exact absurd (Members.mem_of_lookup hlookup) (h n)
  case h_2 => rfl

theorem total_eq_zero {path : String} {calls : List UpdateMap}
    (h : ∀ ops ∈ calls, ∀ n, (path, .increment (.int n)) ∉ ops) : total path calls = 0 := by
  refine List.sum_eq_zero fun n hn => ?_
  obtain ⟨ops, hops, rfl⟩ := List.mem_map.1 hn
  exact amount_eq_zero (h ops hops)

theorem total_snoc (path : String) (calls : List UpdateMap) (ops : UpdateMap) :
    total path (calls ++ [ops]) = total path calls + amount path ops := by
  simp [total]

namespace Series

variable {calls : List UpdateMap} {ops ops' : UpdateMap} {path : String}

variable (h : Series schema caller wanted calls)

include h

/-- An operator has its like in every other update of the series. -/
theorem exists_alike (hops : ops ∈ calls) (hops' : ops' ∈ calls) {m : String × UpdateOp}
    (hm : m ∈ ops) : ∃ m' ∈ ops', m'.1 = m.1 ∧ m'.2.name = m.2.name := by
  have hmem : (m.1, m.2.name) ∈ outline ops' :=
    h.alike ops hops ops' hops' ▸ List.mem_map_of_mem hm
  obtain ⟨m', hm', heq⟩ := List.mem_map.1 hmem
  exact ⟨m', hm', (Prod.mk.inj heq).1, (Prod.mk.inj heq).2⟩

theorem exists_increment (hops : ops ∈ calls) (hops' : ops' ∈ calls) {n : Int64}
    (hm : (path, .increment (.int n)) ∈ ops) :
    ∃ n', (path, .increment (.int n')) ∈ ops' := by
  obtain ⟨⟨path', op⟩, hm', rfl, hname⟩ := h.exists_alike hops hops' hm
  cases h.counts ops' hops' _ hm' with
  | setOnInsert v => exact absurd hname (by simp [UpdateOp.name])
  | increment n' => exact ⟨n', hm'⟩

theorem exists_setOnInsert (hops : ops ∈ calls) (hops' : ops' ∈ calls) {v : Value}
    (hm : (path, .setOnInsert v) ∈ ops) : ∃ v', (path, .setOnInsert v') ∈ ops' := by
  obtain ⟨⟨path', op⟩, hm', rfl, hname⟩ := h.exists_alike hops hops' hm
  cases h.counts ops' hops' _ hm' with
  | setOnInsert v' => exact ⟨v', hm'⟩
  | increment n => exact absurd hname (by simp [UpdateOp.name])

/-- No sum overflows after an update. -/
theorem fits_snoc {done rest : List UpdateMap} (hcalls : calls = done ++ ops :: rest)
    (path : String) : (Words.int64? (total path (done ++ [ops]))).isSome := by
  have htake : calls.take (done.length + 1) = done ++ [ops] := by
    rw [hcalls, List.take_append, List.take_of_length_le (Nat.le_succ _), Nat.add_sub_cancel_left]
    rfl
  exact htake ▸ h.fits path _

/-- The paths of an update are a caller's own. -/
theorem own (hops : ops ∈ calls) : ∀ m ∈ ops, Own (Text.root m.1) := by
  obtain ⟨out, hout⟩ := h.accepted ops hops
  obtain ⟨-, -, hms⟩ := update_eq_tally (h.counts ops hops) hout
  exact fun m hm => ⟨(hms m hm).1, h.notReserved ops hops m hm⟩

/-- Every update of the series tallies when it is stamped. -/
theorem tallies (hops : ops ∈ calls) (t : Instant) (id : String) :
    (stamped t id (tally schema caller ops)).Tallies := by
  obtain ⟨out, hout⟩ := h.accepted ops hops
  exact tallies_stamped (h.own hops) (update_eq_tally (h.counts ops hops) hout).2.1 t id

theorem mem_inc_iff (hops : ops ∈ calls) {x : String × Datum} :
    x ∈ (tally schema caller ops).inc ↔
      ∃ path n, (path, .increment (.int n)) ∈ ops ∧ x = (keyPath schema path, .int n) := by
  refine (mem_ofList_filterMap (fun _ _ => key_addition?) (h.own hops) (h.nodup ops hops)).trans ?_
  simp only [addition?_eq_some]
  constructor
  · rintro ⟨⟨path, op⟩, hm, n, rfl, rfl⟩
    exact ⟨path, n, hm, rfl⟩
  · rintro ⟨path, n, hm, rfl⟩
    exact ⟨_, hm, n, rfl, rfl⟩

theorem mem_setOnInsert_iff (hops : ops ∈ calls) {x : String × Datum} :
    x ∈ (tally schema caller ops).setOnInsert ↔
      ∃ path v, (path, .setOnInsert v) ∈ ops ∧ x.1 = keyPath schema path ∧
        ∃ target, resolve schema caller path = .ok target ∧ setValue target path v = .ok x.2 := by
  refine (mem_ofList_filterMap (fun _ _ => key_insertion?) (h.own hops) (h.nodup ops hops)).trans ?_
  simp only [insertion?_eq_some]
  constructor
  · rintro ⟨⟨path, op⟩, hm, v, rfl, hx⟩
    exact ⟨path, v, hm, hx⟩
  · rintro ⟨path, v, hm, hx⟩
    exact ⟨_, hm, v, rfl, hx⟩

/-- Every value to be set on insertion has its stored form. -/
theorem exists_mem_setOnInsert (hops : ops ∈ calls) {v : Value}
    (hm : (path, .setOnInsert v) ∈ ops) :
    ∃ d, (keyPath schema path, d) ∈ (tally schema caller ops).setOnInsert ∧
      ∃ target, resolve schema caller path = .ok target ∧ setValue target path v = .ok d := by
  obtain ⟨out, hout⟩ := h.accepted ops hops
  obtain ⟨-, -, hms⟩ := update_eq_tally (h.counts ops hops) hout
  have hsome : (insertion? schema caller (path, .setOnInsert v)).isSome :=
    (hms _ hm).2.resolve_left (by simp [addition?])
  obtain ⟨x, hx⟩ := Option.isSome_iff_exists.1 hsome
  obtain ⟨_, ⟨⟩, hkey, htarget⟩ := insertion?_eq_some.1 hx
  exact ⟨x.2, (h.mem_setOnInsert_iff hops).2 ⟨path, v, hm, rfl, htarget⟩, htarget⟩

/-- **A stamped update** can be applied where its paths are open and its integers can be added. -/
theorem exists_apply (hops : ops ∈ calls) {r : Record}
    (hopen : ∀ m ∈ ops, OpenAt (keyPath schema m.1) r)
    (hadded : ∀ path n, (path, .increment (.int n)) ∈ ops → ∃ d,
      Edit.added (keyPath schema path) (.int n) (r.get? (keyPath schema path)) = .ok d)
    (inserting : Bool) (t : Instant) (id : String) :
    ∃ r', (stamped t id (tally schema caller ops)).apply inserting r = .ok r' ∧
      Edit.Tallied (stamped t id (tally schema caller ops)) inserting r r' := by
  have hstamp (key : String) (hkey : Text.split '.' key = [key]) : OpenAt key r :=
    Record.openAt_key hkey r
  refine (h.tallies hops t id).apply inserting (fun m hm => ?_) (fun m hm => ?_) (fun m hm => ?_)
    fun m hm => ?_
  · obtain rfl := List.mem_singleton.1 hm
    exact hstamp Stored.updatedAtKey rfl
  · obtain ⟨path, n, hop, rfl⟩ := (h.mem_inc_iff hops).1 hm
    exact hopen (path, .increment (.int n)) hop
  · rcases List.mem_cons.1 ((setOnInsert_stamped (h.own hops) t id).mem_iff.1 hm) with rfl | hm
    · exact hstamp Record.idKey rfl
    · rcases List.mem_cons.1 hm with rfl | hm
      · exact hstamp Stored.createdAtKey rfl
      · obtain ⟨path, v, hop, hkey, -⟩ := (h.mem_setOnInsert_iff hops).1 hm
        exact hkey ▸ hopen (path, .setOnInsert v) hop
  · obtain ⟨path, n, hop, rfl⟩ := (h.mem_inc_iff hops).1 hm
    exact hadded path n hop

/-- **A stamped update leaves the keys of the predicate alone.** -/
theorem lookup_of_tallied (hops : ops ∈ calls) (hp : Compares schema caller wanted p)
    (hwhole : WholeFields wanted) {t : Instant} {id : String} {inserting : Bool} {r r' : Record}
    (htallied : Edit.Tallied (stamped t id (tally schema caller ops)) inserting r r')
    {x : String × Datum} (hx : x ∈ p.equalities) : r'.lookup x.1 = r.lookup x.1 := by
  have hkey := hp.split_key hwhole hx
  have hown {a : String} (ha : a ∈ Members.keys (tally schema caller ops).inc ++
      Members.keys (tally schema caller ops).setOnInsert) : Text.Apart x.1 a := by
    obtain ⟨op, hop, rfl⟩ := exists_op_of_mem_tally ha
    exact hp.apart_keyPath hwhole hx (h.own hops op hop) (h.apart ops hops op hop)
  have hstamp (key : String) (hmem : key ∈ stampKeys) : Text.Apart x.1 key :=
    hp.apart_stampKeys hwhole hx hmem
  rw [← Record.get?_key hkey, ← Record.get?_key hkey]
  refine htallied.other x.1 (fun m hm => ?_) (fun m hm => ?_) fun m hm => ?_
  · obtain rfl := List.mem_singleton.1 hm
    exact hstamp Stored.updatedAtKey (by decide)
  · exact hown (List.mem_append_left _ (List.mem_map_of_mem hm))
  · rcases List.mem_cons.1 ((setOnInsert_stamped (h.own hops) t id).mem_iff.1 hm) with rfl | hm
    · exact hstamp Record.idKey (by decide)
    · rcases List.mem_cons.1 hm with rfl | hm
      · exact hstamp Stored.createdAtKey (by decide)
      · exact hown (List.mem_append_right _ (List.mem_map_of_mem hm))

end Series

/-! ### Records -/

/-- **What calls have accumulated** in a record: it satisfies the predicate, has what the first of
them set on insertion, and the sums of what they add. -/
structure Accumulated (schema : ClassSchema) (caller : Caller) (p : Predicate) (id : String)
    (calls : List UpdateMap) (r : Record) : Prop where
  id : r.lookup Record.idKey = some (.string id)
  wanted : ∀ x ∈ p.equalities, r.lookup x.1 = some x.2
  setOnInsert : ∀ first ∈ calls.head?, ∀ x ∈ (tally schema caller first).setOnInsert,
    r.get? x.1 = some x.2
  inc : ∀ ops ∈ calls, ∀ path n, (path, .increment (.int n)) ∈ ops →
    ∃ sum : Int64, sum.toInt = total path calls ∧ r.get? (keyPath schema path) = some (.int sum)

section

variable {calls rest : List UpdateMap} {first : UpdateMap} {id : String}

/-- **The first call** makes a record of the seed. -/
theorem accumulated_insert (h : Series schema caller wanted (first :: rest))
    (hp : Compares schema caller wanted p) (hwhole : WholeFields wanted) (t : Instant) :
    ∃ r, (stamped t id (tally schema caller first)).apply true p.seed = .ok r ∧
      Accumulated schema caller p id [first] r := by
  have hfirst : first ∈ first :: rest := List.mem_cons_self
  have habsent {m : String × UpdateOp} (hm : m ∈ first) :
      p.seed.lookup (Text.root (keyPath schema m.1)) = none :=
    Predicate.lookup_seed_eq_none fun x hx =>
      hp.root_ne_keyPath hwhole hx (h.own hfirst m hm) (h.apart first hfirst m hm)
  have hadded {path : String} {n : Int64} (hop : (path, .increment (.int n)) ∈ first) :
      Edit.added (keyPath schema path) (.int n) (p.seed.get? (keyPath schema path)) =
        .ok (.int n) := by
    rw [Record.get?_of_lookup_none (habsent hop)]
    rfl
  obtain ⟨r, hr, htallied⟩ := h.exists_apply hfirst
    (fun m hm => Record.openAt_of_lookup_none (habsent hm)) (fun path n hop => ⟨_, hadded hop⟩)
    true t id
  have hmem {m : String × Datum} (hm : m ∈ (Record.idKey, .string id) ::
      (Stored.createdAtKey, .date t) :: (tally schema caller first).setOnInsert) :
      r.get? m.1 = some m.2 :=
    htallied.setOnInsert m ((setOnInsert_stamped (h.own hfirst) t id).mem_iff.2 hm)
  refine ⟨r, hr, ?_, fun x hx => ?_, ?_, ?_⟩
  · exact (Record.get?_key rfl r).symm.trans (hmem List.mem_cons_self)
  · rw [h.lookup_of_tallied hfirst hp hwhole htallied hx, hp.lookup_seed hwhole hx]
  · rintro _ ⟨⟩ x hx
    exact hmem (List.mem_cons_of_mem _ (List.mem_cons_of_mem _ hx))
  · intro ops hops path n hop
    obtain rfl := List.mem_singleton.1 hops
    refine ⟨n, ?_, htallied.inc _ ((h.mem_inc_iff hfirst).2 ⟨path, n, hop, rfl⟩) _ (hadded hop)⟩
    simp [total, amount_of_mem (h.nodup _ hfirst) hop]

namespace Accumulated

variable {done : List UpdateMap} {ops : UpdateMap} {r : Record} {path : String}
  (hr : Accumulated schema caller p id done r) (h : Series schema caller wanted calls)
  (hdone : ∀ ops' ∈ done, ops' ∈ calls) (hne : done ≠ []) (hops : ops ∈ calls)

include hr h hdone hne hops

/-- What an update would set on insertion is there. -/
theorem exists_get?_of_setOnInsert {v : Value} (hop : (path, .setOnInsert v) ∈ ops) :
    ∃ d, r.get? (keyPath schema path) = some d := by
  obtain ⟨first, tail, rfl⟩ := List.exists_cons_of_ne_nil hne
  have hfirst : first ∈ calls := hdone first List.mem_cons_self
  obtain ⟨v', hop'⟩ := h.exists_setOnInsert hops hfirst hop
  obtain ⟨d, hd, -⟩ := h.exists_mem_setOnInsert hfirst hop'
  exact ⟨d, hr.setOnInsert first rfl (keyPath schema path, d) hd⟩

/-- **What an update adds to** is the sum so far. -/
theorem exists_added (hfits : (Words.int64? (total path (done ++ [ops]))).isSome) {n : Int64}
    (hop : (path, .increment (.int n)) ∈ ops) :
    ∃ sum sum' : Int64, r.get? (keyPath schema path) = some (.int sum) ∧
      sum'.toInt = total path (done ++ [ops]) ∧
      Edit.added (keyPath schema path) (.int n) (some (.int sum)) = .ok (.int sum') := by
  obtain ⟨first, tail, rfl⟩ := List.exists_cons_of_ne_nil hne
  obtain ⟨n', hop'⟩ := h.exists_increment hops (hdone first List.mem_cons_self) hop
  obtain ⟨sum, hsum, hget⟩ := hr.inc first List.mem_cons_self path n' hop'
  have hnext : total path (first :: tail ++ [ops]) = sum.toInt + n.toInt := by
    rw [total_snoc, hsum, amount_of_mem (h.nodup ops hops) hop]
  obtain ⟨sum', hsum'⟩ := Option.isSome_iff_exists.1 hfits
  rw [hnext] at hsum'
  refine ⟨sum, sum', hget, (Words.int64?_eq_some_iff.1 hsum').trans hnext.symm, ?_⟩
  simp only [Edit.added, Edit.addNumbers, hsum']

/-- Its paths are open. -/
theorem openAt (hfits : ∀ path, (Words.int64? (total path (done ++ [ops]))).isSome)
    {m : String × UpdateOp} (hm : m ∈ ops) : OpenAt (keyPath schema m.1) r := by
  obtain ⟨path, op⟩ := m
  cases h.counts ops hops _ hm with
  | setOnInsert v =>
    obtain ⟨d, hget⟩ := hr.exists_get?_of_setOnInsert h hdone hne hops hm
    exact Record.openAt_of_get? hget
  | increment n =>
    obtain ⟨sum, -, hget, -⟩ := hr.exists_added h hdone hne hops (hfits path) hm
    exact Record.openAt_of_get? hget

end Accumulated

/-- **Every further call** adds to the sums. -/
theorem Accumulated.update (h : Series schema caller wanted calls)
    (hp : Compares schema caller wanted p) (hwhole : WholeFields wanted)
    {done : List UpdateMap} {ops : UpdateMap} (hcalls : calls = done ++ ops :: rest)
    (hne : done ≠ []) {r : Record} (hr : Accumulated schema caller p id done r) (t : Instant)
    (other : String) :
    ∃ r', (stamped t other (tally schema caller ops)).apply false r = .ok r' ∧
      Accumulated schema caller p id (done ++ [ops]) r' := by
  have hops : ops ∈ calls := hcalls ▸ List.mem_append_right _ List.mem_cons_self
  have hdone : ∀ ops' ∈ done, ops' ∈ calls := fun ops' hops' =>
    hcalls ▸ List.mem_append_left _ hops'
  have hfits := h.fits_snoc hcalls
  obtain ⟨r', hr', htallied⟩ := h.exists_apply hops
    (fun m hm => hr.openAt h hdone hne hops hfits hm)
    (fun path n hop => by
      obtain ⟨sum, sum', hget, -, hadded⟩ := hr.exists_added h hdone hne hops (hfits path) hop
      exact ⟨_, hget ▸ hadded⟩) false t other
  -- without an insertion, what would be set on one stays as it is
  have hkept (m : String × Datum) (hm : m ∈ (Record.idKey, .string other) ::
      (Stored.createdAtKey, .date t) :: (tally schema caller ops).setOnInsert) :
      r'.get? m.1 = r.get? m.1 :=
    htallied.setOnInsert m ((setOnInsert_stamped (h.own hops) t other).mem_iff.2 hm)
  refine ⟨r', hr', ?_, fun x hx => ?_, fun first hfirst x hx => ?_, fun ops' hops' path n hop => ?_⟩
  · have hid : r'.get? Record.idKey = r.get? Record.idKey :=
      hkept _ List.mem_cons_self
    rw [Record.get?_key rfl, Record.get?_key rfl] at hid
    exact hid.trans hr.id
  · exact (h.lookup_of_tallied hops hp hwhole htallied hx).trans (hr.wanted x hx)
  · rw [List.head?_append_of_ne_nil _ hne] at hfirst
    have hmem : first ∈ calls := hdone first (List.mem_of_mem_head? hfirst)
    obtain ⟨path, v, hop, hkey, -⟩ := (h.mem_setOnInsert_iff hmem).1 hx
    obtain ⟨v', hop'⟩ := h.exists_setOnInsert hmem hops hop
    obtain ⟨d, hd, -⟩ := h.exists_mem_setOnInsert hops hop'
    have hsame : r'.get? (keyPath schema path) = r.get? (keyPath schema path) :=
      hkept (keyPath schema path, d) (List.mem_cons_of_mem _ (List.mem_cons_of_mem _ hd))
    rw [hkey, hsame, ← hkey]
    exact hr.setOnInsert first hfirst x hx
  · have hmem : ops' ∈ calls := (List.mem_append.1 hops').elim (hdone ops') fun hlast =>
      List.mem_singleton.1 hlast ▸ hops
    obtain ⟨n', hop'⟩ := h.exists_increment hmem hops hop
    obtain ⟨sum, sum', hget, hsum', hadded⟩ := hr.exists_added h hdone hne hops (hfits path) hop'
    refine ⟨sum', hsum', htallied.inc (keyPath schema path, .int n') ?_ _ (hget ▸ hadded)⟩
    exact (h.mem_inc_iff hops).2 ⟨path, n', hop', rfl⟩

end

end Plan

end ObjectEngine
