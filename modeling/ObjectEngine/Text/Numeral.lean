import ObjectEngine.Double
import ObjectEngine.Text.Split
import ObjectEngine.Words

/-!
# Reading numerals

Readers of whole texts: natural numbers and 64-bit integers with an optional sign, and
decimal floating-point numerals with an optional fraction and exponent, or one of the words
`inf`, `infinity` and `nan` in any case.
-/

namespace ObjectEngine

namespace Text

/-- The number that decimal digits write, read onto `acc`. -/
def natOfDigits (acc : Nat) (cs : List Char) : Nat :=
  cs.foldl (fun n c => n * 10 + (c.toNat - 48)) acc

/-- A nonempty digit sequence. -/
def digits? (cs : List Char) : Option Nat :=
  if !cs.isEmpty && cs.all Char.isDigit then some (natOfDigits 0 cs) else none

/-- A natural number, with an optional plus sign. -/
def nat? : List Char → Option Nat
  | '+' :: rest => digits? rest
  | cs => digits? cs

/-- A natural number below `bound`, with an optional plus sign. -/
def natBelow? (bound : Nat) (cs : List Char) : Option Nat := (nat? cs).filter (· < bound)

/-- A natural number of 64 bits. -/
def word64? (cs : List Char) : Option Nat := natBelow? UInt64.size cs

/-- A signed integer of 64 bits. -/
def int64? : List Char → Option Int64
  | '-' :: rest => (digits? rest).bind fun n => Words.int64? (-(n : Int))
  | cs => (nat? cs).bind fun n => Words.int64? n

/-- The sign of a numeral and what follows it. -/
def sign : List Char → Bool × List Char
  | '-' :: rest => (true, rest)
  | '+' :: rest => (false, rest)
  | cs => (false, cs)

/-- The double nearest to a numeral of whole digits, fraction digits and exponent. -/
def doubleOfParts (negative : Bool) (whole fraction : List Char) (exponent : Int) : Double :=
  let digits := (whole ++ fraction).dropWhile (· = '0')
  Double.ofDecimal negative (natOfDigits 0 digits) digits.length (exponent - fraction.length)

/-- An exponent: a sign and digits. -/
def exponent? (cs : List Char) : Option Int :=
  let (negative, digits) := sign cs
  (digits? digits).map fun n => if negative then -(n : Int) else n

/-- A floating-point numeral. -/
def double? (cs : List Char) : Option Double :=
  let (negative, body) := sign cs
  let word := String.ofList (body.map Char.toLower)
  if word = "inf" || word = "infinity" then some (Double.infinity negative)
  else if word = "nan" then some Double.nan
  else
    let whole := body.takeWhile Char.isDigit
    let rest := body.dropWhile Char.isDigit
    let (fraction, rest) := match rest with
      | '.' :: tail => (tail.takeWhile Char.isDigit, tail.dropWhile Char.isDigit)
      | _ => ([], rest)
    if whole.isEmpty && fraction.isEmpty then none
    else match rest with
      | [] => some (doubleOfParts negative whole fraction 0)
      | e :: tail =>
        if e = 'e' || e = 'E' then
          (exponent? tail).map (doubleOfParts negative whole fraction)
        else none

end Text

end ObjectEngine
