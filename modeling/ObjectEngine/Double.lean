/-!
# Binary floating-point numbers

A `Double` is an IEEE-754 binary64 number given by its bits, so that numbers are compared,
stored and printed bit for bit, while the comparisons of the standard (`same`, `compare?`)
are ordinary functions on the bits: away from NaN they compare the sign-and-magnitude key
`Double.key`.

`ofRatio` rounds a fraction of natural numbers to the nearest double, a half going to the
even neighbour. Integers and decimal texts are read through it.
-/

namespace ObjectEngine

/-- An IEEE-754 binary64 number. -/
structure Double where
  /-- Sign, exponent and fraction, from the most significant bit. -/
  bits : UInt64
  deriving DecidableEq, Inhabited

namespace Double

/-- The weight of the lowest bit of the exponent, and of the significand's bit that is not
written. -/
def hiddenBit : Nat := 0x10000000000000

/-- The weight of the sign bit. -/
def signBit : Nat := 0x8000000000000000

/-- The biased exponent field. -/
def exponent (x : Double) : Nat := x.bits.toNat / hiddenBit % 2048

/-- The fraction field. -/
def fraction (x : Double) : Nat := x.bits.toNat % hiddenBit

/-- Whether the sign bit is set. -/
def negative (x : Double) : Bool := signBit ≤ x.bits.toNat

/-- The bits below the sign. -/
def magnitude (x : Double) : Nat := x.bits.toNat % signBit

/-- Neither infinite nor NaN. -/
def isFinite (x : Double) : Bool := x.exponent < 2047

/-- Not a number. -/
def isNaN (x : Double) : Bool := x.exponent = 2047 && x.fraction ≠ 0

/-- The number line as integers: away from NaN, numbers compare as their keys do, and both
zeros have the key `0`. -/
def key (x : Double) : Int := if x.negative then -(x.magnitude : Int) else x.magnitude

/-- Numeric equality: the zeros are equal and NaN equals nothing. -/
def same (x y : Double) : Bool := !x.isNaN && !y.isNaN && x.key = y.key

/-- Numeric order, undefined on NaN. -/
def compare? (x y : Double) : Option Ordering :=
  if x.isNaN || y.isNaN then none else some (compare x.key y.key)

/-- Numeric `<`, false on NaN. -/
def lt (x y : Double) : Bool := x.compare? y == some .lt

/-- Numeric `≤`, false on NaN. -/
def le (x y : Double) : Bool := (x.compare? y).any (· != .gt)

/-- The machine number with these bits. -/
def toFloat (x : Double) : Float := Float.ofBits x.bits

/-- The bits of a machine number. -/
def ofFloat (f : Float) : Double := ⟨f.toBits⟩

/-- The rounded sum. -/
def add (x y : Double) : Double := ofFloat (x.toFloat + y.toFloat)

/-- Positive or negative zero. -/
def zero (negative : Bool) : Double := ⟨if negative then 0x8000000000000000 else 0⟩

/-- Positive or negative infinity. -/
def infinity (negative : Bool) : Double :=
  ⟨if negative then 0xFFF0000000000000 else 0x7FF0000000000000⟩

/-- The quiet NaN. -/
def nan : Double := ⟨0x7FF8000000000000⟩

/-- The quotient rounded to the nearest integer, a half going to the even one. -/
def roundHalfEven (num den : Nat) : Nat :=
  let q := num / den
  let r := num % den
  if 2 * r < den then q
  else if 2 * r > den then q + 1
  else if q % 2 = 0 then q else q + 1

/-- The exponent of the highest power of two not above `num / den`. -/
def floorLog2 (num den : Nat) : Int :=
  let guess : Int := (Nat.log2 num : Int) - (Nat.log2 den : Int)
  let fits := if guess < 0 then den ≤ num <<< guess.natAbs else den <<< guess.natAbs ≤ num
  if fits then guess else guess - 1

/-- The double nearest to `num / den` (with a sign), a half going to the even neighbour;
beyond the largest double it is infinite. -/
def ofRatio (negative : Bool) (num den : Nat) : Double :=
  if num = 0 then zero negative else
  let q : Int := max (floorLog2 num den - 52) (-1074)
  let m := if q < 0 then roundHalfEven (num <<< q.natAbs) den
    else roundHalfEven num (den <<< q.natAbs)
  let magnitude := if m < hiddenBit then m else (q + 1075).toNat * hiddenBit + (m - hiddenBit)
  if magnitude ≥ 0x7FF0000000000000 then infinity negative
  else ⟨UInt64.ofNat (if negative then signBit + magnitude else magnitude)⟩

/-- The double nearest to an integer. -/
def ofInt (n : Int) : Double := ofRatio (n < 0) n.natAbs 1

/-- A power of ten. -/
def tenTo (n : Nat) : Nat := Nat.pow 10 n

/-- The double nearest to `digits · 10 ^ exponent`, where `digits` has `length` digits.
Exponents far outside the range of doubles are answered without the power. -/
def ofDecimal (negative : Bool) (digits length : Nat) (exponent : Int) : Double :=
  if digits = 0 then zero negative
  else if exponent + length > 400 then infinity negative
  else if exponent + length < -400 then zero negative
  else if exponent < 0 then ofRatio negative digits (tenTo exponent.natAbs)
  else ofRatio negative (digits * tenTo exponent.natAbs) 1

/-- The significand `m` and exponent `q` of a finite number, whose magnitude is `m · 2 ^ q`. -/
def significand (x : Double) : Nat × Int :=
  if x.exponent = 0 then (x.fraction, -1074)
  else (x.fraction + hiddenBit, (x.exponent : Int) - 1075)

end Double

end ObjectEngine
