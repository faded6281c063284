/-!
# Texts of bytes

In hexadecimal (`Hex`), bytes are pairs of digits. Writing uses lower case; reading takes either
case.

In base 64 (`Base64`), the alphabet is the standard one with padding. Reading is strict: the
length is a multiple of four, padding stands where it must, and the bits that padding leaves over
are zero, so that every byte sequence has exactly one text.
-/

namespace ObjectEngine

namespace Hex

/-- The digit of a number below 16, in lower case. -/
def digit (n : Nat) : Char :=
  if n < 10 then Char.ofNat (48 + n) else Char.ofNat (87 + n)

/-- The value of a digit. -/
def value? (c : Char) : Option Nat :=
  if '0' ≤ c ∧ c ≤ '9' then some (c.toNat - 48)
  else if 'a' ≤ c ∧ c ≤ 'f' then some (c.toNat - 87)
  else if 'A' ≤ c ∧ c ≤ 'F' then some (c.toNat - 55)
  else none

/-- The two digits of a byte. -/
def byte (b : UInt8) : List Char := [digit (b.toNat / 16), digit (b.toNat % 16)]

/-- The text of a byte sequence. -/
def encode (bytes : List UInt8) : String := String.ofList (bytes.flatMap byte)

/-- The bytes of a text, two digits to each. -/
def decodeChars : List Char → Option (List UInt8)
  | [] => some []
  | a :: b :: rest => do
    let n := (← value? a) * 16 + (← value? b)
    some (UInt8.ofNat n :: (← decodeChars rest))
  | _ => none

/-- The bytes of a text, two digits to each. -/
def decode? (text : String) : Option (List UInt8) := decodeChars text.toList

/-- The text of a 64-bit word: sixteen digits. -/
def encodeWord (n : UInt64) : String :=
  String.ofList ((List.range 16).map fun i => digit (n.toNat >>> (4 * (15 - i)) % 16))

/-- The 64-bit word of a text of at most sixteen digits, at least one. -/
def decodeWord? (text : String) : Option UInt64 := do
  let cs := text.toList
  guard (!cs.isEmpty && cs.length ≤ 16)
  let n ← cs.foldlM (fun n c => (value? c).map (n * 16 + ·)) 0
  some (UInt64.ofNat n)

end Hex

namespace Base64

/-- The character of a six-bit group. -/
def digit (n : Nat) : Char :=
  if n < 26 then Char.ofNat (65 + n)
  else if n < 52 then Char.ofNat (97 + (n - 26))
  else if n < 62 then Char.ofNat (48 + (n - 52))
  else if n = 62 then '+' else '/'

/-- The six-bit group of a character. -/
def value? (c : Char) : Option Nat :=
  if 'A' ≤ c ∧ c ≤ 'Z' then some (c.toNat - 65)
  else if 'a' ≤ c ∧ c ≤ 'z' then some (c.toNat - 97 + 26)
  else if '0' ≤ c ∧ c ≤ '9' then some (c.toNat - 48 + 52)
  else if c = '+' then some 62
  else if c = '/' then some 63
  else none

/-- The text of a byte sequence, three bytes to four characters. -/
def encodeChars : List UInt8 → List Char
  | [] => []
  | [a] =>
    let n := a.toNat * 16
    [digit (n / 64), digit (n % 64), '=', '=']
  | [a, b] =>
    let n := (a.toNat * 256 + b.toNat) * 4
    [digit (n / 4096), digit (n / 64 % 64), digit (n % 64), '=']
  | a :: b :: c :: rest =>
    let n := (a.toNat * 256 + b.toNat) * 256 + c.toNat
    digit (n / 262144) :: digit (n / 4096 % 64) :: digit (n / 64 % 64) :: digit (n % 64) ::
      encodeChars rest

/-- The bytes of a text, or nothing if it is not the text of any. -/
def decodeChars : List Char → Option (List UInt8)
  | [] => some []
  | [a, b, '=', '='] => do
    let n := (← value? a) * 64 + (← value? b)
    if n % 16 = 0 then some [UInt8.ofNat (n / 16)] else none
  | [a, b, c, '='] => do
    let n := ((← value? a) * 64 + (← value? b)) * 64 + (← value? c)
    if n % 4 = 0 then some [UInt8.ofNat (n / 1024), UInt8.ofNat (n / 4)] else none
  | a :: b :: c :: d :: rest => do
    let n := (((← value? a) * 64 + (← value? b)) * 64 + (← value? c)) * 64 + (← value? d)
    let bytes ← decodeChars rest
    some (UInt8.ofNat (n / 65536) :: UInt8.ofNat (n / 256) :: UInt8.ofNat n :: bytes)
  | _ => none

/-- The text of a byte sequence. -/
def encode (bytes : List UInt8) : String := String.ofList (encodeChars bytes)

/-- The bytes of a text, or nothing if it is not the text of any. -/
def decode? (text : String) : Option (List UInt8) := decodeChars text.toList

/-- Whether a text is the text of a byte sequence. -/
def isValid (text : String) : Bool := (decode? text).isSome

end Base64

end ObjectEngine
