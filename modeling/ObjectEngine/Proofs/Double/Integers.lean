import Mathlib.Algebra.Group.Nat.Defs
import Mathlib.Tactic.SplitIfs
import ObjectEngine.Double

/-!
# Integers as doubles

No fraction is rounded to NaN (`Double.isNaN_ofRatio`), so the double nearest to an integer has a
place on the number line. For integers of 64 bits it is `Double.place` of the magnitude
(`Double.key_ofInt`): rounding keeps at most the 53 bits of a significand. So the places of
integers are in the order of the integers (`Double.key_ofInt_mono`), and up to `2 ^ 53` no two
integers share one (`Double.eq_of_key_ofInt`).
-/

namespace ObjectEngine

namespace Double

/-! ### The number line -/

/-- A magnitude below that of infinity has a lower exponent, whatever the sign. -/
theorem exponent_lt_of_magnitude {magnitude : Nat} (h : magnitude < 0x7FF0000000000000)
    (negative : Bool) :
    exponent ⟨UInt64.ofNat (if negative then signBit + magnitude else magnitude)⟩ < 2047 := by
  cases negative with
  | false =>
    have hbits : magnitude < 2 ^ 64 := by omega
    rw [exponent, if_neg Bool.false_ne_true, UInt64.toNat_ofNat_of_lt' hbits, hiddenBit]
    omega
  | true =>
    have hbits : signBit + magnitude < 2 ^ 64 := by
      rw [signBit]
      omega
    rw [exponent, if_pos rfl, UInt64.toNat_ofNat_of_lt' hbits, hiddenBit, signBit]
    omega

/-- **No fraction is rounded to NaN.** -/
theorem isNaN_ofRatio (negative : Bool) (num den : Nat) :
    (ofRatio negative num den).isNaN = false := by
  unfold ofRatio
  split
  · cases negative <;> decide
  · extract_lets q m magnitude
    split
    · cases negative <;> decide
    · have hexponent := exponent_lt_of_magnitude (Nat.not_le.1 ‹_›) negative
      rw [isNaN, decide_eq_false (by omega), Bool.false_and]

theorem isNaN_ofInt (n : Int) : (ofInt n).isNaN = false := isNaN_ofRatio ..

theorem same_self {x : Double} (h : x.isNaN = false) : x.same x = true := by
  simp [same, h]

theorem same_iff {x y : Double} :
    x.same y = true ↔ x.isNaN = false ∧ y.isNaN = false ∧ x.key = y.key := by
  simp [same, and_assoc]

theorem compare?_eq_some {x y : Double} {o : Ordering} :
    x.compare? y = some o ↔ x.isNaN = false ∧ y.isNaN = false ∧ compare x.key y.key = o := by
  unfold compare?
  cases x.isNaN <;> cases y.isNaN <;> simp

/-- The sign and the magnitude of a number give its place. -/
theorem key_of_magnitude {magnitude : Nat} (h : magnitude < signBit) (negative : Bool) :
    key ⟨UInt64.ofNat (if negative then signBit + magnitude else magnitude)⟩ =
      if negative then -(magnitude : Int) else magnitude := by
  rw [signBit] at h
  cases negative with
  | false =>
    have hbits : magnitude < 2 ^ 64 := by omega
    have hsign : ¬signBit ≤ magnitude := by
      rw [signBit]
      omega
    simp only [key, Double.negative, Double.magnitude, if_neg Bool.false_ne_true,
      UInt64.toNat_ofNat_of_lt' hbits, decide_eq_true_eq, if_neg hsign]
    rw [signBit]
    omega
  | true =>
    have hbits : signBit + magnitude < 2 ^ 64 := by
      rw [signBit]
      omega
    simp only [key, Double.negative, Double.magnitude, if_true, UInt64.toNat_ofNat_of_lt' hbits,
      decide_eq_true_eq, if_pos (Nat.le_add_right signBit magnitude)]
    rw [signBit]
    omega

/-! ### Rounding a quotient -/

/-- A quotient is rounded to one of its neighbours. -/
theorem roundHalfEven_le (num den : Nat) : roundHalfEven num den ≤ num / den + 1 := by
  unfold roundHalfEven
  dsimp only
  split_ifs <;> omega

theorem div_le_roundHalfEven (num den : Nat) : num / den ≤ roundHalfEven num den := by
  unfold roundHalfEven
  dsimp only
  split_ifs <;> omega

theorem roundHalfEven_one (num : Nat) : roundHalfEven num 1 = num := by
  simp [roundHalfEven, Nat.mod_one]

/-- **Rounding keeps the order** of quotients. -/
theorem roundHalfEven_mono {a b : Nat} (h : a ≤ b) (den : Nat) :
    roundHalfEven a den ≤ roundHalfEven b den := by
  rcases Nat.lt_or_eq_of_le (Nat.div_le_div_right h : a / den ≤ b / den) with hlt | heq
  · exact Nat.le_trans (roundHalfEven_le a den)
      (Nat.le_trans hlt (div_le_roundHalfEven b den))
  · -- the quotients are the same, so the remainders decide
    have ha := Nat.div_add_mod a den
    have hb := Nat.div_add_mod b den
    rw [heq] at ha
    have hmod : a % den ≤ b % den := by omega
    unfold roundHalfEven
    dsimp only
    rw [heq]
    split_ifs <;> omega

theorem floorLog2_one {num : Nat} (h : num ≠ 0) : floorLog2 num 1 = Nat.log2 num := by
  have hguess : (Nat.log2 num : Int) - (Nat.log2 1 : Int) = Nat.log2 num := by
    rw [show Nat.log2 1 = 0 from rfl]
    omega
  unfold floorLog2
  simp only [hguess]
  refine if_pos ?_
  rw [if_neg (by omega), Int.natAbs_natCast, Nat.shiftLeft_eq, Nat.one_mul]
  exact Nat.log2_self_le h

/-! ### The places of integers -/

/-- An integer, cut to the 53 bits of a significand from its highest bit, of weight `2 ^ k`, on. -/
def leading (n k : Nat) : Nat := roundHalfEven (n * 2 ^ (52 - k)) (2 ^ (k - 52))

/-- The place of a positive integer among the magnitudes of doubles. -/
def place (n : Nat) : Nat :=
  if n = 0 then 0 else (Nat.log2 n + 1022) * hiddenBit + leading n (Nat.log2 n)

theorem leading_mono {m n : Nat} (h : m ≤ n) (k : Nat) : leading m k ≤ leading n k :=
  roundHalfEven_mono (Nat.mul_le_mul_right _ h) _

/-- Short integers are not rounded. -/
theorem leading_of_le {k : Nat} (h : k ≤ 52) (n : Nat) : leading n k = n * 2 ^ (52 - k) := by
  rw [leading, Nat.sub_eq_zero_of_le h, Nat.pow_zero, roundHalfEven_one]

/-- The same weight from both ends: the highest bit of a significand is the hidden one. -/
theorem two_pow_split (k i : Nat) : 2 ^ (k + i) * 2 ^ (52 - k) = 2 ^ (52 + i) * 2 ^ (k - 52) := by
  rw [← Nat.pow_add, ← Nat.pow_add]
  congr 1
  omega

theorem hiddenBit_le_leading {n k : Nat} (h : 2 ^ k ≤ n) : hiddenBit ≤ leading n k := by
  refine Nat.le_trans ?_ (div_le_roundHalfEven _ _)
  rw [Nat.le_div_iff_mul_le (Nat.two_pow_pos _)]
  have hsplit := two_pow_split k 0
  rw [Nat.add_zero, Nat.add_zero] at hsplit
  exact hsplit ▸ Nat.mul_le_mul_right _ h

theorem leading_le {n k : Nat} (h : n < 2 ^ (k + 1)) : leading n k ≤ 2 * hiddenBit := by
  refine Nat.le_trans (roundHalfEven_le _ _) ?_
  have hlt : n * 2 ^ (52 - k) < 2 ^ (52 + 1) * 2 ^ (k - 52) :=
    two_pow_split k 1 ▸ Nat.mul_lt_mul_of_pos_right h (Nat.two_pow_pos _)
  exact (Nat.div_lt_iff_lt_mul (Nat.two_pow_pos _)).2 hlt

/-- Integers of 64 bits are far below infinity. -/
theorem place_lt_infinity {n : Nat} (h : n < 2 ^ 64) : place n < 0x7FF0000000000000 := by
  by_cases hn : n = 0
  · rw [place, if_pos hn]
    decide
  · have hlog : Nat.log2 n < 64 := (Nat.log2_lt hn).2 h
    have hupper := leading_le (@Nat.lt_log2_self n)
    rw [place, if_neg hn]
    rw [hiddenBit] at hupper ⊢
    omega

/-- **The double nearest to an integer of 64 bits**: its sign and the place of its magnitude. -/
theorem ofInt_eq {n : Int} (h : n.natAbs < 2 ^ 64) :
    ofInt n = ⟨UInt64.ofNat (if decide (n < 0) then signBit + place n.natAbs
      else place n.natAbs)⟩ := by
  unfold ofInt ofRatio
  split
  case isTrue hzero =>
    obtain rfl : n = 0 := by omega
    decide
  case isFalse hzero =>
    obtain ⟨k, hk⟩ : ∃ k, Nat.log2 n.natAbs = k := ⟨_, rfl⟩
    have hlower := hiddenBit_le_leading (hk ▸ Nat.log2_self_le hzero)
    rw [floorLog2_one hzero, hk]
    extract_lets q m magnitude
    have hexponent : q = (k : Int) - 52 := Int.max_eq_left (by omega)
    have hm : m = leading n.natAbs k := by
      change (if q < 0 then roundHalfEven (n.natAbs <<< q.natAbs) 1
        else roundHalfEven n.natAbs (1 <<< q.natAbs)) = _
      split
      case isTrue hq =>
        rw [leading_of_le (by omega), roundHalfEven_one, Nat.shiftLeft_eq,
          show q.natAbs = 52 - k by omega]
      case isFalse hq =>
        rw [leading, Nat.shiftLeft_eq, Nat.one_mul, show q.natAbs = k - 52 by omega,
          show 52 - k = 0 by omega, Nat.pow_zero, Nat.mul_one]
    have hmagnitude : magnitude = place n.natAbs := by
      change (if m < hiddenBit then m else (q + 1075).toNat * hiddenBit + (m - hiddenBit)) = _
      rw [if_neg (by omega), place, if_neg hzero, hk, hm,
        show (q + 1075).toNat = k + 1022 + 1 by omega, Nat.add_mul _ 1]
      omega
    rw [hmagnitude, if_neg (Nat.not_le.2 (place_lt_infinity h))]

theorem key_ofInt {n : Int} (h : n.natAbs < 2 ^ 64) :
    (ofInt n).key = if n < 0 then -(place n.natAbs : Int) else place n.natAbs := by
  have hkey := key_of_magnitude (show place n.natAbs < signBit from
    Nat.lt_trans (place_lt_infinity h) (by decide)) (decide (n < 0))
  rw [ofInt_eq h, hkey]
  simp only [decide_eq_true_eq]

/-- **Integers of 64 bits** are finite. -/
theorem isFinite_ofInt {n : Int} (h : n.natAbs < 2 ^ 64) : (ofInt n).isFinite = true := by
  rw [ofInt_eq h, isFinite]
  exact decide_eq_true (exponent_lt_of_magnitude (place_lt_infinity h) _)

/-- **Places are in the order of the integers.** -/
theorem place_mono {m n : Nat} (h : m ≤ n) : place m ≤ place n := by
  by_cases hm : m = 0
  · rw [place, if_pos hm]
    exact Nat.zero_le _
  have hn : n ≠ 0 := by omega
  rw [place, place, if_neg hm, if_neg hn]
  have hlog : Nat.log2 m ≤ Nat.log2 n :=
    (Nat.le_log2 hn).2 (Nat.le_trans (Nat.log2_self_le hm) h)
  rcases Nat.lt_or_eq_of_le hlog with hlt | heq
  · have hupper := leading_le (@Nat.lt_log2_self m)
    have hlower := hiddenBit_le_leading (Nat.log2_self_le hn)
    rw [hiddenBit] at *
    omega
  · rw [heq]
    exact Nat.add_le_add_left (leading_mono h _) _

/-- **Up to `2 ^ 53`** no two integers have the same place. -/
theorem place_lt_place {m n : Nat} (h : m < n) (hn : n ≤ 2 ^ 53) : place m < place n := by
  have hn0 : n ≠ 0 := by omega
  by_cases hm : m = 0
  · rw [place, if_pos hm, place, if_neg hn0, hiddenBit]
    omega
  rw [place, place, if_neg hm, if_neg hn0]
  have hlog : Nat.log2 m ≤ Nat.log2 n :=
    (Nat.le_log2 hn0).2 (Nat.le_trans (Nat.log2_self_le hm) (Nat.le_of_lt h))
  have hshort : Nat.log2 m ≤ 52 := by
    have : Nat.log2 m < 53 := (Nat.log2_lt hm).2 (by omega)
    omega
  have hfirst := leading_of_le hshort m
  rcases Nat.lt_or_eq_of_le hlog with hlt | heq
  · have hupper : m * 2 ^ (52 - Nat.log2 m) < 2 ^ (52 + 1) * 2 ^ (Nat.log2 m - 52) :=
      two_pow_split _ 1 ▸ Nat.mul_lt_mul_of_pos_right Nat.lt_log2_self (Nat.two_pow_pos _)
    rw [Nat.sub_eq_zero_of_le hshort, Nat.pow_zero, Nat.mul_one, ← hfirst] at hupper
    have hlower := hiddenBit_le_leading (Nat.log2_self_le hn0)
    rw [hiddenBit] at *
    omega
  · rw [hfirst, heq, leading_of_le (heq ▸ hshort)]
    exact Nat.add_lt_add_left (Nat.mul_lt_mul_of_pos_right h (Nat.two_pow_pos _)) _

/-- **Integers of 64 bits** are in the order of the doubles nearest to them. -/
theorem key_ofInt_mono {m n : Int} (h : m ≤ n) (hm : m.natAbs < 2 ^ 64) (hn : n.natAbs < 2 ^ 64) :
    (ofInt m).key ≤ (ofInt n).key := by
  rw [key_ofInt hm, key_ofInt hn]
  by_cases hpos : 0 ≤ m
  · have := place_mono (show m.natAbs ≤ n.natAbs by omega)
    rw [if_neg (by omega), if_neg (by omega)]
    omega
  · rw [if_pos (by omega)]
    split
    · have := place_mono (show n.natAbs ≤ m.natAbs by omega)
      omega
    · omega

/-- **Up to `2 ^ 53`** two integers with the same nearest double are the same. -/
theorem eq_of_key_ofInt {m n : Int} (hm : m.natAbs ≤ 2 ^ 53) (hn : n.natAbs ≤ 2 ^ 53)
    (h : (ofInt m).key = (ofInt n).key) : m = n := by
  rw [key_ofInt (by omega), key_ofInt (by omega)] at h
  have hzero {k : Int} (hk : k ≠ 0) (hle : k.natAbs ≤ 2 ^ 53) : 0 < place k.natAbs :=
    Nat.lt_of_le_of_lt (Nat.zero_le _) (place_lt_place (show 0 < k.natAbs by omega) hle)
  have habs : place m.natAbs = place n.natAbs → m.natAbs = n.natAbs := fun heq => by
    rcases Nat.lt_trichotomy m.natAbs n.natAbs with hlt | heq' | hlt
    · exact absurd heq (Nat.ne_of_lt (place_lt_place hlt hn))
    · exact heq'
    · exact absurd heq.symm (Nat.ne_of_lt (place_lt_place hlt hm))
  by_cases hm0 : m < 0 <;> by_cases hn0 : n < 0 <;> simp only [hm0, hn0, if_true, if_false] at h
  · have := habs (by omega)
    omega
  · have := hzero (by omega : m ≠ 0) hm
    omega
  · have := hzero (by omega : n ≠ 0) hn
    omega
  · have := habs (by omega)
    omega

end Double
end ObjectEngine
