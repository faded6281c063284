import Mathlib.Data.List.Nodup
import ObjectEngine.Proofs.Engine.Permission
import ObjectEngine.Proofs.Engine.Preparing
import ObjectEngine.Proofs.Engine.Readable
import ObjectEngine.Proofs.Store.Seeding
import ObjectEngine.Proofs.Store.Separate

/-!
# Plans that tally

A filter that asks for values of fields, all at once, is planned as a conjunction of equalities at
the keys of the fields (`Plan.compares_filter`). An update whose operators only set values on
insertion and add integers is planned as `Plan.tally` says, operator by operator
(`Plan.update_eq_tally`), at paths that are apart from each other, since otherwise it is refused
(`Plan.pairwise_apart`).

Fields of a caller's own (`Stored.Own`), which neither every class has nor the storage layout
reserves, have keys that are neither those of another such field nor those that are stamped on a
record. So what is stamped on an upsert does not get into the way of its operators
(`Plan.tallies_stamped`).
-/

namespace ObjectEngine

/-! ### Keys of fields -/

namespace Stored

variable {schema : ClassSchema} {a b : String}

/-- The keys that the engine stamps on a record. -/
def stampKeys : List String := [updatedAtKey, Record.idKey, createdAtKey]

/-- **A reserved key**: one that is stamped on a record, or one that a pointer is stored under. -/
def Reserved (name : String) : Prop :=
  name ∈ stampKeys ∨ (Text.afterStart? pointerMark name).isSome

instance (name : String) : Decidable (Reserved name) := inferInstanceAs (Decidable (_ ∨ _))

/-- **A field of a caller's own**: not one of every class, and no reserved key. -/
structure Own (name : String) : Prop where
  notDefault : name ∉ defaultFields
  notReserved : ¬Reserved name

theorem own_of_isIdentifier (h : isIdentifier a = true) (hdefault : a ∉ defaultFields) : Own a := by
  refine ⟨hdefault, ?_⟩
  rintro (hstamp | hpointer)
  · exact absurd h ((by decide : ∀ key ∈ stampKeys, ¬isIdentifier key = true) a hstamp)
  · rw [afterStart?_pointerMark h] at hpointer
    exact absurd hpointer (by simp)

/-- The key of a pointer is reserved. -/
theorem reserved_pointerMark (name : String) : Reserved (pointerMark ++ name) :=
  .inr (by rw [Text.afterStart?_append, Option.isSome_some])

/-- The key of such a field is none that is stamped on a record. -/
theorem Own.rootKey_not_mem (h : Own a) : rootKey schema a ∉ stampKeys := by
  rw [rootKey_eq h.notDefault]
  split
  · intro hmem
    have hmark := (by decide :
      ∀ key ∈ stampKeys, (Text.afterStart? pointerMark key).isSome = false) _ hmem
    rw [Text.afterStart?_append] at hmark
    exact absurd hmark (by simp)
  · exact fun hmem => h.notReserved (.inl hmem)

/-- **Different fields of a caller's own** have different keys. -/
theorem rootKey_inj (ha : Own a) (hb : Own b) (h : rootKey schema a = rootKey schema b) :
    a = b := by
  rw [rootKey_eq ha.notDefault, rootKey_eq hb.notDefault] at h
  split at h <;> split at h
  · exact (String.append_right_inj _).1 h
  · exact absurd (h ▸ reserved_pointerMark a) hb.notReserved
  · exact absurd (h ▸ reserved_pointerMark b) ha.notReserved
  · exact h

/-- What is below a field is stored below its key. -/
theorem exists_keyPath (schema : ClassSchema) (path : String) :
    ∃ rest, path = Text.root path ++ rest ∧
      keyPath schema path = rootKey schema (Text.root path) ++ rest := by
  have hroot := Text.root_eq path
  rw [keyPath]
  cases hsplit : Text.splitFirst '.' path with
  | none =>
    rw [hsplit] at hroot
    rw [show Text.root path = path from hroot]
    exact ⟨"", by simp⟩
  | some parts =>
    obtain ⟨root, rest⟩ := parts
    rw [hsplit] at hroot
    obtain ⟨⟨cs, ds⟩, hchars, hparts⟩ := Option.map_eq_some_iff.1 hsplit
    obtain ⟨rfl, rfl⟩ := Prod.mk.inj hparts
    rw [show Text.root path = String.ofList cs from hroot]
    refine ⟨"." ++ String.ofList ds, String.toList_inj.1 ?_, String.append_assoc ..⟩
    rw [(Text.splitFirstChars_eq_some.1 hchars).2]
    simp

/-- **Different paths into such fields** are stored at different paths. -/
theorem keyPath_inj (ha : Own (Text.root a)) (hb : Own (Text.root b))
    (h : keyPath schema a = keyPath schema b) : a = b := by
  have hroot : Text.root a = Text.root b :=
    rootKey_inj ha hb (by rw [← root_keyPath, ← root_keyPath, h])
  obtain ⟨rest, hrest, hkey⟩ := exists_keyPath schema a
  obtain ⟨rest', hrest', hkey'⟩ := exists_keyPath schema b
  rw [hkey, hkey', hroot, String.append_right_inj] at h
  rw [hrest, hrest', hroot, h]

end Stored

open Stored (Own keyPath stampKeys)

/-! ### Filters -/

/-- **A filter that asks for values**: a conjunction of equalities, each with the value that is
wanted of its field. -/
inductive Filter.Asks (wanted : Members Value) : Filter → Prop
  | all : Asks wanted .all
  | and {parts : List Filter} (h : ∀ f ∈ parts, Asks wanted f) : Asks wanted (.and parts)
  | field {name : String} {v : Value} (h : (name, v) ∈ wanted) :
    Asks wanted (.field name (.equals v))

namespace Plan

variable {schema : ClassSchema} {caller : Caller} {wanted : Members Value}

/-- **What a wanted value is compared with** in the store. -/
def Operand (schema : ClassSchema) (caller : Caller) (m : String × Value) (x : String × Datum) :
    Prop :=
  x.1 = keyPath schema m.1 ∧
    ∃ target, resolve schema caller m.1 = .ok target ∧ operand target m.1 m.2 = .ok x.2

theorem Operand.unique {m : String × Value} {x y : String × Datum}
    (hx : Operand schema caller m x) (hy : Operand schema caller m y) : x = y := by
  obtain ⟨hkey, target, htarget, hd⟩ := hx
  obtain ⟨hkey', target', htarget', hd'⟩ := hy
  obtain rfl := Except.ok.inj (htarget.symm.trans htarget')
  exact Prod.ext (hkey.trans hkey'.symm) (Except.ok.inj (hd.symm.trans hd'))

/-- **A predicate that compares** some keys with what wanted values are compared with. -/
structure Compares (schema : ClassSchema) (caller : Caller) (wanted : Members Value)
    (p : Predicate) : Prop where
  equates : p.Equates
  operand : ∀ x ∈ p.equalities, ∃ m ∈ wanted, Operand schema caller m x

theorem Compares.both {p q : Predicate} (hp : Compares schema caller wanted p)
    (hq : Compares schema caller wanted q) : Compares schema caller wanted (p.both q) :=
  ⟨hp.equates.both hq.equates, fun x hx =>
    (Predicate.mem_equalities_both.1 hx).elim (hp.operand x) (hq.operand x)⟩

theorem compares_all : Compares schema caller wanted .all :=
  ⟨.all, by simp [Predicate.equalities]⟩

theorem compares_conjunction {policy : Policy} {parts : List Filter}
    (hparts : ∀ f ∈ parts, ∀ planned, filter schema policy f = .ok planned →
      Compares schema policy.caller wanted planned.filter) {acc planned : FilterPlan}
    (hacc : Compares schema policy.caller wanted acc.filter)
    (h : conjunction schema policy acc parts = .ok planned) :
    Compares schema policy.caller wanted planned.filter := by
  induction parts generalizing acc with
  | nil =>
    obtain rfl := Except.ok.inj h
    exact hacc
  | cons part rest ih =>
    obtain ⟨hfirst, hrest⟩ := List.forall_mem_cons.1 hparts
    obtain ⟨p, hp, h⟩ := Outcome.bind_eq_ok.1 h
    exact ih hrest (hacc.both (hfirst p hp)) h

/-- **A filter that asks for values of whole fields** is planned as a predicate that compares
their keys. -/
theorem compares_filter {policy : Policy} {f : Filter} (hf : f.Asks wanted)
    (hwhole : ∀ m ∈ wanted, '.' ∉ (keyPath schema m.1).toList) {planned : FilterPlan}
    (h : filter schema policy f = .ok planned) :
    Compares schema policy.caller wanted planned.filter := by
  induction hf generalizing planned with
  | all =>
    obtain rfl := Except.ok.inj h
    exact compares_all
  | and _ ih => exact compares_conjunction (fun f hf _ h => ih f hf h) compares_all h
  | @field name v hwanted =>
    obtain ⟨target, htarget, cond, hcond, hplanned⟩ := exists_of_fieldFilter h
    obtain ⟨d, hd, hcond⟩ := Outcome.bind_eq_ok.1 hcond
    obtain ⟨rfl, -⟩ := Prod.mk.inj (Except.ok.inj hcond)
    rw [hplanned]
    refine ⟨.field (hwhole _ hwanted) d, fun x hx => ⟨_, hwanted, ?_⟩⟩
    obtain ⟨-, hkey, hcond⟩ := Predicate.mem_equalities_field.1 hx
    obtain rfl := Condition.eq.inj hcond
    exact ⟨hkey.symm, target, htarget, hd⟩

end Plan

/-! ### Updates -/

/-- **An operator that counts**: it sets a value on insertion or adds an integer. -/
inductive UpdateOp.Counts : UpdateOp → Prop
  | setOnInsert (v : Value) : Counts (.setOnInsert v)
  | increment (n : Int64) : Counts (.increment (.int n))

namespace Plan

variable {schema : ClassSchema} {caller : Caller} {ops : UpdateMap}

/-- What an operator adds, and to the number at which path in the store. -/
def addition? (schema : ClassSchema) : String × UpdateOp → Option (String × Datum)
  | (path, .increment (.int n)) => some (keyPath schema path, .int n)
  | _ => none

/-- What an operator sets on insertion, and at which path in the store. -/
def insertion? (schema : ClassSchema) (caller : Caller) :
    String × UpdateOp → Option (String × Datum)
  | (path, .setOnInsert v) => do
    let target ← (resolve schema caller path).toOption
    return (keyPath schema path, ← (setValue target path v).toOption)
  | _ => none

theorem addition?_eq_some {m : String × UpdateOp} {x : String × Datum} :
    addition? schema m = some x ↔
      ∃ n, m.2 = .increment (.int n) ∧ x = (keyPath schema m.1, .int n) := by
  obtain ⟨path, op⟩ := m
  unfold addition?
  split <;> simp_all [eq_comm]

theorem insertion?_eq_some {m : String × UpdateOp} {x : String × Datum} :
    insertion? schema caller m = some x ↔
      ∃ v, m.2 = .setOnInsert v ∧ x.1 = keyPath schema m.1 ∧
        ∃ target, resolve schema caller m.1 = .ok target ∧ setValue target m.1 v = .ok x.2 := by
  obtain ⟨path, op⟩ := m
  obtain ⟨key, d⟩ := x
  cases op with
  | setOnInsert v =>
    simp only [insertion?, Option.bind_eq_bind, Option.bind_eq_some_iff, Option.pure_def,
      Outcome.toOption_eq_some, Option.some.injEq, Prod.mk.injEq, UpdateOp.setOnInsert.injEq]
    constructor
    · rintro ⟨target, htarget, d', hd', rfl, rfl⟩
      exact ⟨v, rfl, rfl, target, htarget, hd'⟩
    · rintro ⟨_, rfl, rfl, target, htarget, hd⟩
      exact ⟨target, htarget, d, hd, rfl, rfl⟩
  | _ => simp [insertion?]

theorem key_addition? {m : String × UpdateOp} {x : String × Datum}
    (h : addition? schema m = some x) : x.1 = keyPath schema m.1 := by
  obtain ⟨n, -, rfl⟩ := addition?_eq_some.1 h
  rfl

theorem key_insertion? {m : String × UpdateOp} {x : String × Datum}
    (h : insertion? schema caller m = some x) : x.1 = keyPath schema m.1 := by
  obtain ⟨v, -, hkey, -⟩ := insertion?_eq_some.1 h
  exact hkey

/-- The edit of operators that count. -/
def tally (schema : ClassSchema) (caller : Caller) (ops : UpdateMap) : Edit where
  inc := Members.ofList (ops.filterMap (addition? schema))
  setOnInsert := Members.ofList (ops.filterMap (insertion? schema caller))

/-- The paths that such an edit touches. -/
theorem keys_touched_tally : (tally schema caller ops).touched.map Prod.fst =
    Members.keys (tally schema caller ops).inc ++
      Members.keys (tally schema caller ops).setOnInsert := by
  simp [Edit.touched, tally, Members.keys, Function.comp_def]

/-- It touches the paths of its operators. -/
theorem exists_op_of_mem_tally {key : String}
    (h : key ∈ Members.keys (tally schema caller ops).inc ++
      Members.keys (tally schema caller ops).setOnInsert) :
    ∃ m ∈ ops, keyPath schema m.1 = key := by
  have hmem {f : String × UpdateOp → Option (String × Datum)}
      (hf : ∀ m x, f m = some x → x.1 = keyPath schema m.1)
      (h : key ∈ Members.keys (Members.ofList (ops.filterMap f))) :
      ∃ m ∈ ops, keyPath schema m.1 = key := by
    obtain ⟨x, hx, rfl⟩ := List.mem_map.1 h
    obtain ⟨m, hm, hx⟩ :=
      List.mem_filterMap.1 ((Members.mem_insertAll hx).resolve_right List.not_mem_nil)
    exact ⟨m, hm, (hf m x hx).symm⟩
  exact (List.mem_append.1 h).elim (hmem fun _ _ => key_addition?)
    (hmem fun _ _ => key_insertion?)

/-- **What is asked for at each path**, of operators on different paths of the caller's own. -/
theorem mem_ofList_filterMap {f : String × UpdateOp → Option (String × Datum)}
    (hf : ∀ m x, f m = some x → x.1 = keyPath schema m.1) (hown : ∀ m ∈ ops, Own (Text.root m.1))
    (hnodup : (Members.keys ops).Nodup) {x : String × Datum} :
    x ∈ Members.ofList (ops.filterMap f) ↔ ∃ m ∈ ops, f m = some x := by
  rw [Members.mem_ofList_iff, List.mem_filterMap]
  intro key d d' hd hd'
  obtain ⟨m, hm, hmd⟩ := List.mem_filterMap.1 hd
  obtain ⟨n, hn, hnd⟩ := List.mem_filterMap.1 hd'
  have hpath : m.1 = n.1 :=
    Stored.keyPath_inj (hown m hm) (hown n hn) ((hf m (key, d) hmd).symm.trans (hf n (key, d') hnd))
  obtain rfl := List.inj_on_of_nodup_map hnodup hm hn hpath
  exact (Prod.mk.inj (Option.some.inj (hmd.symm.trans hnd))).2

/-- One more operator. -/
theorem tally_snoc (ops : UpdateMap) (m : String × UpdateOp) :
    tally schema caller (ops ++ [m]) =
      { inc := Members.insertAll (tally schema caller ops).inc (addition? schema m).toList
        setOnInsert := Members.insertAll (tally schema caller ops).setOnInsert
          (insertion? schema caller m).toList } := by
  have hlast {f : String × UpdateOp → Option (String × Datum)} :
      Members.ofList ((ops ++ [m]).filterMap f) =
        Members.insertAll (Members.ofList (ops.filterMap f)) (f m).toList := by
    have hone : [m].filterMap f = (f m).toList := by
      rw [List.filterMap_cons]
      cases f m <;> rfl
    rw [List.filterMap_append, hone]
    exact Members.insertAll_append ..
  rw [tally, hlast, hlast]
  rfl

/-- **The step**: an operator that counts. -/
theorem updateStep_tally {m : String × UpdateOp} (hm : m.2.Counts) {out : UpdatePlan}
    (h : updateStep schema caller { edit := tally schema caller ops } m.1 m.2 = .ok out) :
    out = { edit := tally schema caller (ops ++ [m]) } ∧
      Text.root m.1 ∉ defaultFields ∧
        ((addition? schema m).isSome ∨ (insertion? schema caller m).isSome) := by
  obtain ⟨path, op⟩ := m
  obtain ⟨hwritable, target, htarget, -, h⟩ := route_of_ok h
  unfold route at h
  split at h
  · cases hm <;> exact absurd h (by simp [relationEdit, bind, Except.bind])
  · split at h
    · cases hm <;> exact absurd h (by simp [aclEdit, bind, Except.bind])
    · rename_i hacl
      have hdefault : Text.root path ∉ defaultFields := by
        simp only [readOnlyFields, defaultFields, List.mem_cons, List.not_mem_nil, or_false,
          not_or] at hwritable ⊢
        exact ⟨hwritable.1, hwritable.2.1, hwritable.2.2, hacl⟩
      obtain ⟨e, he, h⟩ := Outcome.bind_eq_ok.1 h
      obtain rfl := Except.ok.inj h
      rw [tally_snoc]
      cases hm with
      | setOnInsert v =>
        obtain ⟨d, hd, he⟩ := Outcome.bind_eq_ok.1 he
        obtain rfl := Except.ok.inj he
        have hinsertion : insertion? schema caller (path, .setOnInsert v) =
            some (keyPath schema path, d) := by
          simp [insertion?, htarget, hd, Except.toOption]
        rw [hinsertion]
        exact ⟨rfl, hdefault, .inr rfl⟩
      | increment n =>
        obtain ⟨-, -, he⟩ := Outcome.bind_eq_ok.1 he
        obtain rfl := Except.ok.inj he
        exact ⟨rfl, hdefault, .inl rfl⟩

/-- **The run**: operators that count are planned one after another. -/
theorem foldlM_tally {done : UpdateMap} (hops : ∀ m ∈ ops, m.2.Counts) {out : UpdatePlan}
    (h : ops.foldlM (fun out m => updateStep schema caller out m.1 m.2)
      { edit := tally schema caller done } = .ok out) :
    out = { edit := tally schema caller (done ++ ops) } ∧
      ∀ m ∈ ops, Text.root m.1 ∉ defaultFields ∧
        ((addition? schema m).isSome ∨ (insertion? schema caller m).isSome) := by
  induction ops generalizing done with
  | nil =>
    obtain rfl := Except.ok.inj h
    rw [List.append_nil]
    exact ⟨rfl, fun m hm => absurd hm List.not_mem_nil⟩
  | cons m rest ih =>
    obtain ⟨hfirst, hrest⟩ := List.forall_mem_cons.1 hops
    rw [List.foldlM_cons] at h
    obtain ⟨next, hnext, h⟩ := Outcome.bind_eq_ok.1 h
    obtain ⟨rfl, hm⟩ := updateStep_tally hfirst hnext
    obtain ⟨rfl, hms⟩ := ih hrest h
    rw [List.append_assoc, List.singleton_append]
    exact ⟨rfl, List.forall_mem_cons.2 ⟨hm, hms⟩⟩

/-- **An update whose operators count** is planned operator by operator. -/
theorem update_eq_tally (hops : ∀ m ∈ ops, m.2.Counts) {out : UpdatePlan}
    (h : update schema caller ops = .ok out) :
    out = { edit := tally schema caller ops } ∧
      checkConflicts (tally schema caller ops) = .ok () ∧
        ∀ m ∈ ops, Text.root m.1 ∉ defaultFields ∧
          ((addition? schema m).isSome ∨ (insertion? schema caller m).isSome) := by
  obtain ⟨planned, hplanned, h⟩ := Outcome.bind_eq_ok.1 h
  obtain ⟨⟨⟩, hconflicts, h⟩ := Outcome.bind_eq_ok.1 h
  obtain rfl := Except.ok.inj h
  obtain ⟨rfl, hms⟩ := @foldlM_tally schema caller ops [] hops _ hplanned
  exact ⟨rfl, hconflicts, hms⟩

/-! ### Paths that are touched -/

theorem touchedLe_iff {a b : String × String} :
    touchedLe a b = true ↔ a.1 < b.1 ∨ a.1 = b.1 ∧ a.2 ≤ b.2 := by
  rw [touchedLe, Bool.or_eq_true, Bool.and_eq_true, decide_eq_true_iff, decide_eq_true_iff,
    Bool.not_eq_true', decide_eq_false_iff_not, String.not_lt]

theorem touchedLe_total (a b : String × String) : touchedLe a b = true ∨ touchedLe b a = true := by
  simp only [touchedLe_iff]
  by_cases hlt : a.1 < b.1
  · exact .inl (.inl hlt)
  · by_cases hgt : b.1 < a.1
    · exact .inr (.inl hgt)
    · have heq : a.1 = b.1 := String.le_antisymm (String.not_lt.1 hgt) (String.not_lt.1 hlt)
      exact (String.le_total a.2 b.2).imp (fun h => .inr ⟨heq, h⟩) fun h => .inr ⟨heq.symm, h⟩

theorem touchedLe_trans (a b c : String × String) (h : touchedLe a b = true)
    (h' : touchedLe b c = true) : touchedLe a c = true := by
  simp only [touchedLe_iff] at h h' ⊢
  rcases h with h | ⟨heq, h⟩ <;> rcases h' with h' | ⟨heq', h'⟩
  · exact .inl (String.lt_trans h h')
  · exact .inl (heq' ▸ h)
  · exact .inl (heq ▸ h')
  · exact .inr ⟨heq.trans heq', String.le_trans h h'⟩

/-- No path comes before one that it lies below. -/
theorem not_append_lt (a b : String) : ¬a ++ b < a := by
  intro hlt
  have hchars : a.toList ++ b.toList < a.toList := String.toList_append ▸ hlt
  exact List.not_lt.2 List.le_append_left hchars

theorem isBelow_append (a b : String) : isBelow (a ++ "." ++ b) a = true := by
  rw [isBelow, String.append_assoc, Text.afterStart?_append]
  simp [String.toList_append]

/-- **An update whose paths do not conflict** touches paths that are apart from each other. -/
theorem pairwise_apart {e : Edit} (h : checkConflicts e = .ok ()) :
    (e.touched.map Prod.fst).Pairwise Text.Apart := by
  have hnotBelow := pairwise_of_conflict? (conflict?_of_checkConflicts h)
  have hordered := Sorting.sort_ordered touchedLe_total touchedLe_trans e.touched
  rw [List.pairwise_map]
  refine ((Sorting.sort_perm touchedLe e.touched).pairwise_iff Text.Apart.symm).1 ?_
  refine (hnotBelow.and hordered).imp fun {a b} hab => ⟨fun habove => ?_, ?_⟩
  · rcases Text.eq_or_append_of_split habove with heq | ⟨c, heq⟩
    · exact hab.1.1 heq.symm
    · rw [heq, isBelow_append] at hab
      exact absurd hab.1.2 (by simp)
  -- a path that lies below another comes later
  · intro hbelow
    rcases Text.eq_or_append_of_split hbelow with heq | ⟨c, heq⟩
    · exact hab.1.1 heq
    · rcases touchedLe_iff.1 hab.2 with hlt | ⟨heq', -⟩
      · rw [heq, String.append_assoc] at hlt
        exact not_append_lt _ _ hlt
      · exact hab.1.1 heq'

/-! ### Stamped edits -/

/-- An edit that also says when it was made, and when and under which id a record is inserted. -/
def stamped (t : Instant) (id : String) (e : Edit) : Edit :=
  { e.stamped t with
    setOnInsert := Members.insert Record.idKey (.string id)
      (Members.insert Stored.createdAtKey (.date t) e.setOnInsert) }

theorem pairwise_stampKeys : stampKeys.Pairwise Text.Apart :=
  (by decide : stampKeys.Pairwise fun a b => Text.root a ≠ Text.root b).imp Text.apart_of_root

/-- A path into a field of the caller's own is apart from the keys that a stamp writes. -/
theorem apart_of_mem_stampKeys {path key : String} (h : Own (Text.root path))
    (hkey : key ∈ stampKeys) : Text.Apart key (keyPath schema path) := by
  have hroot : Text.root key = key :=
    (by decide : ∀ key ∈ stampKeys, Text.root key = key) key hkey
  refine Text.apart_of_root ?_
  rw [hroot, Stored.root_keyPath]
  rintro rfl
  exact h.rootKey_not_mem hkey

section

variable (hown : ∀ m ∈ ops, Own (Text.root m.1))

include hown

theorem apart_of_mem_tally {key : String} (hkey : key ∈ stampKeys) {a : String}
    (ha : a ∈ Members.keys (tally schema caller ops).inc ++
      Members.keys (tally schema caller ops).setOnInsert) : Text.Apart key a := by
  obtain ⟨op, hop, rfl⟩ := exists_op_of_mem_tally ha
  exact apart_of_mem_stampKeys (hown op hop) hkey

/-- A stamp writes two keys on insertion that no operator writes. -/
theorem setOnInsert_stamped (t : Instant) (id : String) :
    (stamped t id (tally schema caller ops)).setOnInsert.Perm
      ((Record.idKey, .string id) :: (Stored.createdAtKey, .date t) ::
        (tally schema caller ops).setOnInsert) := by
  have hnew {key : String} (hkey : key ∈ stampKeys) (m : String × Datum)
      (hm : m ∈ (tally schema caller ops).setOnInsert) : m.1 ≠ key := by
    rintro rfl
    exact (apart_of_mem_tally hown hkey
      (List.mem_append_right _ (List.mem_map_of_mem hm))).1 (List.prefix_refl _)
  have hcreated := Members.insert_perm (hnew (show Stored.createdAtKey ∈ stampKeys by decide))
    (.date t)
  refine (Members.insert_perm (fun m hm => ?_) _).trans (hcreated.cons _)
  rcases Members.mem_insert hm with rfl | hm
  · exact (by decide : Stored.createdAtKey ≠ Record.idKey)
  · exact hnew (by decide) m hm

/-- **An update whose operators count**, on fields of the caller's own, tallies when it is
stamped. -/
theorem tallies_stamped (hconflicts : checkConflicts (tally schema caller ops) = .ok ())
    (t : Instant) (id : String) : (stamped t id (tally schema caller ops)).Tallies := by
  have hperm : (Members.keys (stamped t id (tally schema caller ops)).set ++
      Members.keys (stamped t id (tally schema caller ops)).inc ++
        Members.keys (stamped t id (tally schema caller ops)).setOnInsert).Perm
      (stampKeys ++ (Members.keys (tally schema caller ops).inc ++
        Members.keys (tally schema caller ops).setOnInsert)) :=
    .cons _ ((((setOnInsert_stamped hown t id).map Prod.fst).append_left _).trans
      (List.perm_append_comm_assoc _ [Record.idKey, Stored.createdAtKey] _))
  refine ⟨rfl, rfl, rfl, rfl, (hperm.pairwise_iff Text.Apart.symm).2 ?_⟩
  refine List.pairwise_append.2 ⟨pairwise_stampKeys, ?_, fun key hkey a ha =>
    apart_of_mem_tally hown hkey ha⟩
  rw [← keys_touched_tally]
  exact pairwise_apart hconflicts

end

end Plan

end ObjectEngine
