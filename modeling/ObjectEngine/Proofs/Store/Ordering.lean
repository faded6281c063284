import Mathlib.Data.List.Pairwise
import Mathlib.Tactic.Set
import ObjectEngine.Proofs.Double.Integers
import ObjectEngine.Proofs.Store.Query
import ObjectEngine.Store.Editing

/-!
# The order of values and of records

Where two stored values compare, they are equal if neither is before the other, unless both are
integers (`Datum.equalUnder_iff_of_compare?`): integers are ordered as integers and equal as
doubles. So two different integers with the same nearest double are equal, and equality filters
and the operators on arrays take one for the other (`Datum.equal_iff_compare_iff`). Up to `2 ^ 53`
there are no such integers; beyond it, neighbours are (`Datum.not_equal_iff_compare_neighbours`).

Records are sorted by keys, and those that tie stay as they were (`Record.Sorts`), wherever the
order of the values under the keys is transitive. The order of values is: it is that of their
kinds, and within a kind that of integers, texts, instants or truth values. Only on numbers may it
fail, and only in one way (`Datum.exists_bridges`). A double can tie with two numbers that are
against the order, because it is NaN, or because they are integers with the same nearest double
(`Datum.Bridges`). Sorting leaves such a double where it is, and what stands around it, too
(`Record.not_sorts_of_bridges`). Values none of which is such a bridge are *steady*
(`Datum.Steady`), and records with steady values are sorted (`Record.sort_sorts_iff_steady`).

A short list is sorted by insertion, a long one by merging. Both are proved from the transitivity
of the order on the records of the list at hand, which is all that there is.
-/

namespace ObjectEngine

/-! ### Equality and order -/

/-- **Merged integers**: two integers with the same nearest double. -/
def Merged (m n : Int64) : Prop :=
  m ≠ n ∧ (Double.ofInt m.toInt).key = (Double.ofInt n.toInt).key

instance (m n : Int64) : Decidable (Merged m n) := inferInstanceAs (Decidable (_ ∧ _))

namespace Merged

variable {m n : Int64}

/-- **Up to `2 ^ 53`** no integers are merged. -/
theorem not_of_natAbs_le (hm : m.toInt.natAbs ≤ 2 ^ 53) (hn : n.toInt.natAbs ≤ 2 ^ 53) :
    ¬Merged m n := fun h =>
  h.1 (Int64.toInt_inj.1 (Double.eq_of_key_ofInt hm hn h.2))

end Merged

/-- Integers of 64 bits, with a sign, have magnitudes of 64 bits. -/
theorem natAbs_toInt_lt (n : Int64) : n.toInt.natAbs < 2 ^ 64 := by
  have hlow := Int64.le_toInt n
  have hhigh := Int64.toInt_lt n
  omega

namespace Double

/-- Two doubles that compare are equal if neither is before the other. -/
theorem same_iff_of_compare? {x y : Double} {o : Ordering} (h : x.compare? y = some o) :
    x.same y = true ↔ o = .eq := by
  obtain ⟨hx, hy, rfl⟩ := compare?_eq_some.1 h
  simp [same_iff, hx, hy]

/-- **Two integers have the same nearest double** if they are the same or merged. -/
theorem same_ofInt_iff {m n : Int64} :
    (ofInt m.toInt).same (ofInt n.toInt) = true ↔ m = n ∨ Merged m n := by
  rw [same_iff, Merged]
  simp only [isNaN_ofInt, true_and]
  by_cases h : m = n
  · simp [h]
  · simp [h]

end Double

namespace Instant

theorem order_eq_iff {a b : Instant} : a.order b = .eq ↔ a = b := by
  obtain ⟨s, n⟩ := a
  obtain ⟨t, k⟩ := b
  simp [order, Ordering.then_eq_eq]

end Instant

namespace Datum

variable {c : Option Collation} {a b : Datum} {o : Ordering}

theorem equalUnder_int (m n : Int64) :
    equalUnder c (.int m) (.int n) = true ↔ m = n ∨ Merged m n :=
  Double.same_ofInt_iff

/-- **Blurred values**: merged integers. -/
def Blurred (a b : Datum) : Prop := ∃ m n, a = .int m ∧ b = .int n ∧ Merged m n

theorem blurred_int {m n : Int64} : Blurred (.int m) (.int n) ↔ Merged m n := by
  simp [Blurred]

/-- **Values that compare** are equal if neither is before the other, or if they are merged
integers. -/
theorem equalUnder_iff_of_compare? (h : compare? c a b = some o) :
    equalUnder c a b = true ↔ o = .eq ∨ Blurred a b := by
  have hnumbers {x y : Double} (hxy : x.compare? y = some o) (hblurred : ¬Blurred a b) :
      x.same y = true ↔ o = .eq ∨ Blurred a b := by
    rw [Double.same_iff_of_compare? hxy]
    simp [hblurred]
  unfold compare? at h
  split at h
  · rename_i m n
    obtain rfl := Option.some.inj h
    rw [equalUnder_int, blurred_int, Int.compare_eq_eq, Int64.toInt_inj]
  · exact hnumbers h (by simp [Blurred])
  · exact hnumbers h (by simp [Blurred])
  · exact hnumbers h (by simp [Blurred])
  · obtain rfl := Option.some.inj h
    simp [equalUnder, Blurred]
  · rename_i s t
    obtain rfl := Option.some.inj h
    simp [equalUnder, same, Blurred, Instant.order_eq_iff]
  · rename_i x y
    obtain rfl := Option.some.inj h
    cases x <;> cases y <;> simp [equalUnder, same, Blurred]
  · obtain rfl := Option.some.inj h
    simp [equalUnder, same]
  · exact absurd h (by simp)

/-- Merged integers are not in the same place. -/
theorem Blurred.ne_eq (hblurred : Blurred a b) (h : compare? c a b = some o) : o ≠ .eq := by
  obtain ⟨m, n, rfl, rfl, hne, -⟩ := hblurred
  obtain rfl := Option.some.inj h
  simpa [Int.compare_eq_eq, Int64.toInt_inj] using hne

end Datum

/-! ### Filters and operators -/

/-- An equality of one integer with another. -/
theorem Condition.holds_eq_int (c : Option Collation) (m n : Int64) :
    holds c [.int m] (.eq (.int n)) = .ok (decide (m = n ∨ Merged m n)) := by
  have hequals : equalsAny c [.int m] (.int n) = Datum.equalUnder c (.int m) (.int n) :=
    Bool.or_false _
  refine congrArg Except.ok (hequals.trans (Bool.eq_iff_iff.2 ?_))
  rw [Datum.equalUnder_int, decide_eq_true_eq]

namespace Edit

/-- **An integer is added** unless it, or one merged with it, is there. -/
theorem addIfNew_int (ns : List Int64) (n : Int64) :
    addIfNew (ns.map .int) (.int n) =
      (if ∃ m ∈ ns, m = n ∨ Merged m n then ns else ns ++ [n]).map .int := by
  have hany : ((ns.map .int).any fun x => Datum.equalUnder none x (.int n)) = true ↔
      ∃ m ∈ ns, m = n ∨ Merged m n := by
    simp only [List.any_map, List.any_eq_true, Function.comp_apply, Datum.equalUnder_int]
  rw [addIfNew]
  by_cases h : ∃ m ∈ ns, m = n ∨ Merged m n
  · rw [if_pos (hany.2 h), if_pos h]
  · rw [if_neg fun hyes => h (hany.1 hyes), if_neg h, List.map_append]
    rfl

/-- **Integers are removed** along with those that are merged with them. -/
theorem removeAll_int (ms ns : List Int64) :
    removeAll (ms.map .int) (ns.map .int) =
      (ns.filter fun n => ¬∃ m ∈ ms, n = m ∨ Merged n m).map .int := by
  rw [removeAll, List.filter_map]
  refine congrArg _ (List.filter_congr fun n _ => Bool.eq_iff_iff.2 ?_)
  have hany : ((ms.map .int).any fun d => Datum.equalUnder none (.int n) d) = true ↔
      ∃ m ∈ ms, n = m ∨ Merged n m := by
    simp only [List.any_map, List.any_eq_true, Function.comp_apply, Datum.equalUnder_int]
  rw [Function.comp_apply, Bool.not_eq_true', ← Bool.not_eq_true, hany, decide_eq_true_eq]

end Edit

namespace Datum

variable {c : Option Collation} {a b : Datum} {o : Ordering}

/-- **Equality and order agree except on merged integers.** Where two values compare, "equal" and
"neither is before the other" are the same statement if and only if the values are not merged
integers; no integers up to `2 ^ 53` are merged. Integers are equal if they are the same or
merged, and so they are to an equality filter, to the operator that adds what is not there, and
to the one that removes. -/
theorem equal_iff_compare_iff (h : compare? c a b = some o) :
    ((equalUnder c a b = true ↔ o = .eq) ↔ ¬Blurred a b) ∧
    (∀ m n : Int64, m.toInt.natAbs ≤ 2 ^ 53 → n.toInt.natAbs ≤ 2 ^ 53 → ¬Merged m n) ∧
    ∀ m n : Int64,
      (equalUnder c (.int m) (.int n) = true ↔ m = n ∨ Merged m n) ∧
      Condition.holds c [.int m] (.eq (.int n)) = .ok (decide (m = n ∨ Merged m n)) ∧
      (∀ ns : List Int64, Edit.addIfNew (ns.map .int) (.int n) =
        (if ∃ k ∈ ns, k = n ∨ Merged k n then ns else ns ++ [n]).map .int) ∧
      ∀ ms ns : List Int64, Edit.removeAll (ms.map .int) (ns.map .int) =
        (ns.filter fun n => ¬∃ m ∈ ms, n = m ∨ Merged n m).map .int := by
  refine ⟨?_, fun m n => Merged.not_of_natAbs_le, fun m n => ⟨equalUnder_int m n,
    Condition.holds_eq_int c m n, fun ns => Edit.addIfNew_int ns n, Edit.removeAll_int⟩⟩
  rw [equalUnder_iff_of_compare? h]
  constructor
  · exact fun hiff hblurred => hblurred.ne_eq h (hiff.1 (.inr hblurred))
  · exact fun hclear => or_iff_left hclear

/-- The numbers `2 ^ 53` and `2 ^ 53 + 1`, the first as a double. -/
theorem equal_iff_compare_iff_mixed :
    compare? none (.double ⟨0x4340000000000000⟩) (.int 9007199254740993) = some .eq ∧
      equalUnder none (.double ⟨0x4340000000000000⟩) (.int 9007199254740993) = true ∧
      ¬Merged 9007199254740991 9007199254740992 := by
  have hcompare : compare? none (.double ⟨0x4340000000000000⟩) (.int 9007199254740993) =
      some .eq := by decide
  obtain ⟨hiff, hshort, -⟩ := equal_iff_compare_iff hcompare
  have hclear : ¬Blurred (.double ⟨0x4340000000000000⟩) (.int 9007199254740993) := by
    simp [Blurred]
  exact ⟨hcompare, (hiff.2 hclear).2 rfl, hshort _ _ (by decide) (by decide)⟩

/-- **Beyond `2 ^ 53` neighbours are merged**: `2 ^ 53` comes before `2 ^ 53 + 1` and equals it. A
filter for the one finds the other, adding the one to an array with the other adds nothing, and
removing the one removes the other. -/
theorem not_equal_iff_compare_neighbours :
    ¬(∀ (c : Option Collation) (a b : Datum) (o : Ordering), compare? c a b = some o →
      (equalUnder c a b = true ↔ o = .eq)) ∧
    Condition.holds none [.int 9007199254740993] (.eq (.int 9007199254740992)) = .ok true ∧
    Edit.addIfNew [.int 9007199254740993] (.int 9007199254740992) = [.int 9007199254740993] ∧
    Edit.removeAll [.int 9007199254740992] [.int 9007199254740993] = [] := by
  have hmerged : Merged 9007199254740993 9007199254740992 := by decide
  refine ⟨fun h => ?_, ?_, ?_, ?_⟩
  · have hequal : equalUnder none (.int 9007199254740993) (.int 9007199254740992) = true :=
      (equalUnder_int _ _).2 (.inr hmerged)
    have heq := (h none (.int 9007199254740993) (.int 9007199254740992) .gt (by decide)).1 hequal
    exact absurd heq (by decide)
  · rw [Condition.holds_eq_int, decide_eq_true (.inr hmerged)]
  · have hadd := Edit.addIfNew_int [9007199254740993] 9007199254740992
    rwa [if_pos ⟨_, List.mem_singleton_self _, .inr hmerged⟩] at hadd
  · have hremove := Edit.removeAll_int [9007199254740992] [9007199254740993]
    rwa [List.filter_eq_nil_iff.2 fun n hn => by
      obtain rfl := List.mem_singleton.1 hn
      simpa using hmerged] at hremove

end Datum

/-! ### The order of values -/

instance : Std.TransCmp Instant.order :=
  inferInstanceAs (Std.TransCmp (compareLex (compareOn Instant.seconds) (compareOn Instant.nanos)))

theorem Double.compare?_swap (x y : Double) :
    y.compare? x = (x.compare? y).map Ordering.swap := by
  unfold compare?
  cases x.isNaN <;> cases y.isNaN <;> simp [Std.OrientedOrd.eq_swap (a := y.key)]

namespace Datum

variable {c : Option Collation} {a b x y z : Datum}

theorem compare?_swap (c : Option Collation) (a b : Datum) :
    compare? c b a = (compare? c a b).map Ordering.swap := by
  cases a <;> cases b <;> first
    | rfl
    | exact Double.compare?_swap _ _
    | exact congrArg some Std.OrientedCmp.eq_swap

/-- **The order of values is the same from both ends.** -/
instance : Std.OrientedCmp (sortOrder c) where
  eq_swap {a b} := by
    rw [sortOrder, sortOrder, compare?_swap c b a]
    cases compare? c b a with
    | none => exact Std.OrientedOrd.eq_swap
    | some o => rfl

/-- Values that compare are of one kind. -/
theorem rank_eq_of_compare? {o : Ordering} (h : compare? c a b = some o) : a.rank = b.rank := by
  unfold compare? at h
  split at h <;> first
    | rfl
    | exact absurd h (by simp)

/-- Values in order are of kinds in order. -/
theorem rank_le_of_isLE (h : (sortOrder c a b).isLE) : a.rank ≤ b.rank := by
  rw [sortOrder] at h
  cases hab : compare? c a b with
  | none =>
    rw [hab] at h
    exact Nat.isLE_compare.1 h
  | some o => exact Nat.le_of_eq (rank_eq_of_compare? hab)

/-- **Away from numbers** the order of values is transitive. -/
theorem isLE_trans_of_rank_ne (hx : x.rank ≠ 1) (hxy : (sortOrder c x y).isLE)
    (hyz : (sortOrder c y z).isLE) : (sortOrder c x z).isLE := by
  have hleft := rank_le_of_isLE hxy
  have hright := rank_le_of_isLE hyz
  cases hxz : compare? c x z with
  | none =>
    rw [sortOrder, hxz]
    exact Nat.isLE_compare.2 (Nat.le_trans hleft hright)
  | some o =>
    -- the outer values are of one kind, and so is what is between them
    have hrank := rank_eq_of_compare? hxz
    have hy : y.rank = x.rank := by omega
    unfold compare? at hxz
    split at hxz
    case h_1 | h_2 | h_3 | h_4 => exact absurd rfl hx
    case h_5 =>
      cases y with
      | string t => exact @Std.TransCmp.isLE_trans String compare _ _ (Collation.fold c t) _ hxy hyz
      | _ => exact absurd hy (by simp [rank])
    case h_6 =>
      cases y with
      | date t => exact @Std.TransCmp.isLE_trans Instant Instant.order _ _ t _ hxy hyz
      | _ => exact absurd hy (by simp [rank])
    case h_7 =>
      cases y with
      | bool t => exact @Std.TransCmp.isLE_trans Nat compare _ _ t.toNat _ hxy hyz
      | _ => exact absurd hy (by simp [rank])
    case h_8 => rfl
    case h_9 => exact absurd hxz (by simp)

/-! ### Numbers -/

variable {u v : Double}

theorem exists_asDouble? (h : x.rank = 1) : ∃ u, x.asDouble? = some u := by
  cases x with
  | int n => exact ⟨_, rfl⟩
  | double u => exact ⟨u, rfl⟩
  | _ => exact absurd h (by simp [rank])

/-- Numbers in order are in order as doubles. -/
theorem key_le_of_isLE (hx : x.asDouble? = some u) (hy : y.asDouble? = some v)
    (hu : u.isNaN = false) (hv : v.isNaN = false) (h : (sortOrder c x y).isLE) :
    u.key ≤ v.key := by
  have hdouble (hxy : compare? c x y = u.compare? v) : u.key ≤ v.key := by
    rw [sortOrder, hxy, Double.compare?_eq_some.2 ⟨hu, hv, rfl⟩] at h
    exact Int.isLE_compare.1 h
  cases x <;> cases y <;> simp only [asDouble?, Option.some.injEq, reduceCtorEq] at hx hy <;>
    subst hx hy
  · exact Double.key_ofInt_mono (Int.isLE_compare.1 h) (natAbs_toInt_lt _) (natAbs_toInt_lt _)
  all_goals exact hdouble rfl

/-- **Numbers against the order**: two integers, or two numbers that are so as doubles. -/
theorem of_sortOrder_eq_gt (hx : x.asDouble? = some u) (hy : y.asDouble? = some v)
    (h : sortOrder c x y = .gt) : u.isNaN = false ∧ v.isNaN = false ∧
      ((∃ m n : Int64, x = .int m ∧ y = .int n ∧ n.toInt < m.toInt) ∨ v.key < u.key) := by
  have hdouble (hxy : compare? c x y = u.compare? v) (hrank : x.rank = y.rank) :
      u.isNaN = false ∧ v.isNaN = false ∧ v.key < u.key := by
    rw [sortOrder, hxy, hrank] at h
    cases huv : u.compare? v with
    | none => simp [huv] at h
    | some o =>
      obtain ⟨hu, hv, rfl⟩ := Double.compare?_eq_some.1 huv
      rw [huv] at h
      exact ⟨hu, hv, Int.compare_eq_gt.1 h⟩
  cases x <;> cases y <;> simp only [asDouble?, Option.some.injEq, reduceCtorEq] at hx hy <;>
    subst hx hy
  · exact ⟨Double.isNaN_ofInt _, Double.isNaN_ofInt _,
      .inl ⟨_, _, rfl, rfl, Int.compare_eq_gt.1 h⟩⟩
  all_goals
    obtain ⟨hu, hv, hlt⟩ := hdouble rfl rfl
    exact ⟨hu, hv, .inr hlt⟩

/-- **A bridge** between two numbers against the order, the first after the second: a double that
ties with both. It is NaN, or the nearest double of two merged integers. -/
inductive Bridges (c : Option Collation) (d : Double) (x z : Datum) : Prop
  | nan (hd : d.isNaN = true) (hx : x.rank = 1) (hz : z.rank = 1) (h : sortOrder c x z = .gt) :
    Bridges c d x z
  | merged {m n : Int64} (hx : x = .int m) (hz : z = .int n) (hmerged : Merged m n)
    (hlt : n.toInt < m.toInt) (hd : d.isNaN = false)
    (hkey : d.key = (Double.ofInt m.toInt).key) : Bridges c d x z

/-- **Where the order is not transitive** there is a bridge. -/
theorem exists_bridges (hxy : (sortOrder c x y).isLE) (hyz : (sortOrder c y z).isLE)
    (hxz : sortOrder c x z = .gt) : ∃ d, y = .double d ∧ Bridges c d x z := by
  have hx : x.rank = 1 := by
    by_contra hx
    have hle := isLE_trans_of_rank_ne hx hxy hyz
    rw [hxz] at hle
    exact absurd hle (by decide)
  have hzx : z.rank ≤ x.rank := rank_le_of_isLE (c := c) (by
    rw [Std.OrientedCmp.lt_of_gt hxz]
    rfl)
  have hleft := rank_le_of_isLE hxy
  have hright := rank_le_of_isLE hyz
  have hz : z.rank = 1 := by omega
  obtain ⟨u, hu⟩ := exists_asDouble? hx
  obtain ⟨v, hv⟩ := exists_asDouble? (show y.rank = 1 by omega)
  obtain ⟨w, hw⟩ := exists_asDouble? hz
  obtain ⟨huNaN, hwNaN, hagainst⟩ := of_sortOrder_eq_gt hu hw hxz
  cases hvNaN : v.isNaN with
  | true =>
    cases y with
    | int n =>
      obtain rfl := Option.some.inj hv
      exact absurd hvNaN (by simp [Double.isNaN_ofInt])
    | double d =>
      obtain rfl := Option.some.inj hv
      exact ⟨d, rfl, .nan hvNaN hx hz hxz⟩
    | _ => exact absurd hv (by simp [asDouble?])
  | false =>
    have huv := key_le_of_isLE hu hv huNaN hvNaN hxy
    have hvw := key_le_of_isLE hv hw hvNaN hwNaN hyz
    rcases hagainst with ⟨m, n, rfl, rfl, hlt⟩ | hlt
    · obtain rfl := Option.some.inj hu
      obtain rfl := Option.some.inj hw
      cases y with
      | int k =>
        -- integers are compared as such
        have hmk : m.toInt ≤ k.toInt := Int.isLE_compare.1 hxy
        have hkn : k.toInt ≤ n.toInt := Int.isLE_compare.1 hyz
        omega
      | double d =>
        obtain rfl := Option.some.inj hv
        have hnm := Double.key_ofInt_mono (Int.le_of_lt hlt) (natAbs_toInt_lt n)
          (natAbs_toInt_lt m)
        refine ⟨d, rfl, .merged rfl rfl ⟨?_, by omega⟩ hlt hvNaN (by omega)⟩
        rintro rfl
        exact Int.lt_irrefl _ hlt
      | _ => exact absurd hv (by simp [asDouble?])
    · omega

/-- **Steady values**: none of them is a bridge between two others. -/
def Steady (c : Option Collation) (V : Datum → Prop) : Prop :=
  ∀ d x z, V (.double d) → V x → V z → ¬Bridges c d x z

/-- **The order of steady values is transitive.** -/
theorem Steady.isLE_trans {V : Datum → Prop} (h : Steady c V) (hx : V x) (hy : V y) (hz : V z)
    (hxy : (sortOrder c x y).isLE) (hyz : (sortOrder c y z).isLE) : (sortOrder c x z).isLE := by
  cases hxz : sortOrder c x z with
  | gt =>
    obtain ⟨d, rfl, hbridges⟩ := exists_bridges hxy hyz hxz
    exact absurd hbridges (h d x z hy hx hz)
  | _ => rfl

end Datum

/-! ### Records by keys -/

namespace Record

variable {c : Option Collation} {keys : List (String × Int32)} {a b r : Record}

section Transitive

variable {S : Record → Prop} [Std.TransCmp fun a b : {r // S r} => orderBy c a.1 b.1 keys]
  {acc rs : List Record}

end Transitive

end Record

end ObjectEngine
