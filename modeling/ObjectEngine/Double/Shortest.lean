import ObjectEngine.Double

/-!
# The fewest digits that read back

`Double.shortest` finds the decimal with the fewest digits that rounds to a given number,
and of those the nearest. The reals that round to a number form an interval around it (its
ends included when the significand is even); the search tries, for one digit, two digits
and so on, the two neighbours of the number on that decimal grid.

Two spellings are built from the digits: `Double.plain`, which never uses an exponent and
drops a zero fraction, and `Double.scientific`, which keeps a fraction and writes an
exponent from 10^16 on and below 10^-5.
-/

namespace ObjectEngine

namespace Double

/-- The largest `e` with `10 ^ e ≤ num / den`, searched downwards from `start`. -/
def floorLog10 (num den : Nat) : Nat → Int → Int
  | 0, e => e
  | fuel + 1, e =>
    let fits := if e < 0 then den ≤ num * tenTo e.natAbs else den * tenTo e.natAbs ≤ num
    if fits then e else floorLog10 num den fuel (e - 1)

/-- The shortest decimal `(digits, exponent)` of a finite nonzero magnitude. -/
def shortest (x : Double) : Nat × Int :=
  let (m, q) := x.significand
  -- all quantities below are counted in quarters of the unit `2 ^ q`
  let unit : Nat × Nat := if q < 2 then (1, 1 <<< (2 - q).toNat) else (1 <<< (q - 2).toNat, 1)
  let mid := 4 * m * unit.1
  let low := (4 * m - (if m = hiddenBit && q > -1074 then 1 else 2)) * unit.1
  let high := (4 * m + 2) * unit.1
  let den := unit.2
  let closed := m % 2 = 0
  -- whether `c · 10 ^ e` rounds to the number
  let hits (c : Nat) (e : Int) : Bool :=
    let left := if e < 0 then c * den else c * tenTo e.natAbs * den
    let scale := if e < 0 then tenTo e.natAbs else 1
    if closed then low * scale ≤ left && left ≤ high * scale
    else low * scale < left && left < high * scale
  let distance (c : Nat) (e : Int) : Nat :=
    let left : Int := if e < 0 then c * den else c * tenTo e.natAbs * den
    let scale : Nat := if e < 0 then tenTo e.natAbs else 1
    (left - (mid * scale : Nat)).natAbs
  let top := floorLog10 mid den 700 ((floorLog2 mid den) * 30103 / 100000 + 1)
  let rec search : Nat → Int → Nat × Int
    | 0, e => (0, e)
    | fuel + 1, e =>
      let below := if e < 0 then mid * tenTo e.natAbs / den else mid / (den * tenTo e.natAbs)
      let above := below + 1
      match hits below e, hits above e with
      | true, true =>
        let db := distance below e
        let da := distance above e
        if db < da || (db = da && below % 2 = 0) then (below, e) else (above, e)
      | true, false => (below, e)
      | false, true => (above, e)
      | false, false => search fuel (e - 1)
  search 20 top

/-- Drops the zeros at the end of a digit sequence. -/
def dropZeros : Nat → Nat → Int → Nat × Int
  | 0, d, e => (d, e)
  | fuel + 1, d, e => if d % 10 = 0 && d ≠ 0 then dropZeros fuel (d / 10) (e + 1) else (d, e)

/-- The digits of a finite nonzero magnitude, without zeros at the end, and the position of
the decimal point relative to the first digit. -/
def digits (x : Double) : List Char × Int :=
  let (d, e) := x.shortest
  let (d, e) := dropZeros 20 d e
  let cs := Nat.toDigits 10 d
  (cs, e + cs.length)

/-- Positional digits without an exponent; a whole number has no fraction. -/
def plain (x : Double) : String :=
  if x.isNaN then "NaN" else
  let sign := if x.negative then "-" else ""
  if !x.isFinite then sign ++ "inf"
  else if x.magnitude = 0 then sign ++ "0"
  else
    let (cs, point) := x.digits
    let n := cs.length
    sign ++ String.ofList (
      if point ≤ 0 then '0' :: '.' :: (List.replicate (-point).toNat '0' ++ cs)
      else if n ≤ point.toNat then cs ++ List.replicate (point.toNat - n) '0'
      else cs.take point.toNat ++ '.' :: cs.drop point.toNat)

/-- Digits with a fraction, and with an exponent from 10^16 on and below 10^-5; of a finite
number. -/
def scientific (x : Double) : String :=
  let sign := if x.negative then "-" else ""
  if x.magnitude = 0 then sign ++ "0.0"
  else
    let (cs, point) := x.digits
    let n := cs.length
    sign ++ String.ofList (
      if n ≤ point.toNat && point ≤ 16 then
        cs ++ List.replicate (point.toNat - n) '0' ++ ['.', '0']
      else if 0 < point && point ≤ 16 then cs.take point.toNat ++ '.' :: cs.drop point.toNat
      else if -5 < point && point ≤ 0 then
        '0' :: '.' :: (List.replicate (-point).toNat '0' ++ cs)
      else
        let tail := 'e' :: (toString (point - 1)).toList
        match cs with
        | [] => tail
        | [d] => d :: tail
        | d :: ds => d :: '.' :: (ds ++ tail))

end Double

end ObjectEngine
