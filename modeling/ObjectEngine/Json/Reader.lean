import ObjectEngine.Json
import ObjectEngine.Text.Numeral

/-!
# Reading JSON texts

`Json.read?` reads a whole text. An integer token that fits 64 bits, signed or not, is an
integer; every other number, also the token `-0`, is the nearest double, and one beyond the range of
doubles is refused. Of two members of one key the later wins (`Json.readAsWritten?` keeps
both). Values nest at most 127 deep.
-/

namespace ObjectEngine

namespace Json

/-- The blanks between tokens. -/
def isSpace (c : Char) : Bool := c = ' ' || c = '\n' || c = '\r' || c = '\t'

/-- The text without the blanks at its start. -/
def skip (cs : List Char) : List Char := cs.dropWhile isSpace

/-- Four hexadecimal digits. -/
def hex4? : List Char → Option (Nat × List Char)
  | a :: b :: c :: d :: rest => do
    let n := ((← Hex.value? a) * 16 + (← Hex.value? b)) * 256
    some (n + (← Hex.value? c) * 16 + (← Hex.value? d), rest)
  | _ => none

/-- The character after a backslash and `u`; two surrogates make one character and a lone
one makes none. -/
def unicodeEscape? (cs : List Char) : Option (Char × List Char) := do
  let (n, rest) ← hex4? cs
  if 0xDC00 ≤ n && n ≤ 0xDFFF then none
  else if 0xD800 ≤ n && n ≤ 0xDBFF then
    match rest with
    | '\\' :: 'u' :: tail =>
      let (m, rest) ← hex4? tail
      if 0xDC00 ≤ m && m ≤ 0xDFFF then
        some (Char.ofNat (0x10000 + (n - 0xD800) * 0x400 + (m - 0xDC00)), rest)
      else none
    | _ => none
  else some (Char.ofNat n, rest)

/-- The characters of a quoted text up to its closing quote, pushed onto `acc`. -/
def readString : Nat → List Char → List Char → Option (String × List Char)
  | 0, _, _ => none
  | _ + 1, _, [] => none
  | fuel + 1, acc, c :: rest =>
    if c = '"' then some (String.ofList acc.reverse, rest)
    else if c = '\\' then
      match rest with
      | '"' :: r => readString fuel ('"' :: acc) r
      | '\\' :: r => readString fuel ('\\' :: acc) r
      | '/' :: r => readString fuel ('/' :: acc) r
      | 'b' :: r => readString fuel (Char.ofNat 8 :: acc) r
      | 'f' :: r => readString fuel (Char.ofNat 12 :: acc) r
      | 'n' :: r => readString fuel ('\n' :: acc) r
      | 'r' :: r => readString fuel ('\r' :: acc) r
      | 't' :: r => readString fuel ('\t' :: acc) r
      | 'u' :: r => do
        let (ch, r) ← unicodeEscape? r
        readString fuel (ch :: acc) r
      | _ => none
    else if c.toNat < 32 then none
    else readString fuel (c :: acc) rest

/-- A number token. -/
def readNumber (cs : List Char) : Option (Json × List Char) :=
  let (negative, body) := match cs with
    | '-' :: rest => (true, rest)
    | _ => (false, cs)
  let whole := body.takeWhile Char.isDigit
  let rest := body.dropWhile Char.isDigit
  if whole.isEmpty || (whole.length > 1 && whole.head? = some '0') then none
  else
    let point := rest.head? = some '.'
    let fraction := if point then rest.tail.takeWhile Char.isDigit else []
    let rest := if point then rest.tail.dropWhile Char.isDigit else rest
    if point && fraction.isEmpty then none
    else
      let power := rest.head? = some 'e' || rest.head? = some 'E'
      let (down, digits) := if power then Text.sign rest.tail else (false, [])
      let exponent := digits.takeWhile Char.isDigit
      let rest := if power then digits.dropWhile Char.isDigit else rest
      if power && exponent.isEmpty then none
      else
        let n : Int := Text.natOfDigits 0 whole
        let n := if negative then -n else n
        let fits := Int64.minValue.toInt ≤ n && n < UInt64.size
        if !point && !power && !(negative && n = 0) && fits then
          some (.int n, rest)
        else
          let e : Int := Text.natOfDigits 0 exponent
          let x := Text.doubleOfParts negative whole fraction (if down then -e else e)
          some (.float x, rest)

mutual

/-- A value at the start of a text, nested at most `depth` deep. -/
def readValue : Nat → Nat → List Char → Option (Json × List Char)
  | 0, _, _ => none
  | fuel + 1, depth, cs =>
    match skip cs with
    | 'n' :: 'u' :: 'l' :: 'l' :: rest => some (.null, rest)
    | 't' :: 'r' :: 'u' :: 'e' :: rest => some (.bool true, rest)
    | 'f' :: 'a' :: 'l' :: 's' :: 'e' :: rest => some (.bool false, rest)
    | '"' :: rest => (readString fuel [] rest).map fun (s, r) => (.str s, r)
    | '[' :: rest =>
      match depth with
      | 0 => none
      | depth + 1 =>
        match skip rest with
        | ']' :: rest => some (.arr [], rest)
        | rest => (readItems fuel depth rest).map fun (items, r) => (.arr items, r)
    | '\x7b' :: rest =>
      match depth with
      | 0 => none
      | depth + 1 =>
        match skip rest with
        | '\x7d' :: rest => some (.obj [], rest)
        | rest => (readMembers fuel depth rest).map fun (ms, r) => (.obj ms, r)
    | cs => readNumber cs

/-- The items of an array and its closing bracket. -/
def readItems : Nat → Nat → List Char → Option (List Json × List Char)
  | 0, _, _ => none
  | fuel + 1, depth, cs => do
    let (item, rest) ← readValue fuel depth cs
    match skip rest with
    | ',' :: rest =>
      let (items, rest) ← readItems fuel depth rest
      some (item :: items, rest)
    | ']' :: rest => some ([item], rest)
    | _ => none

/-- The members of an object and its closing brace. -/
def readMembers : Nat → Nat → List Char → Option (List (String × Json) × List Char)
  | 0, _, _ => none
  | fuel + 1, depth, cs =>
    match skip cs with
    | '"' :: rest => do
      let (key, rest) ← readString fuel [] rest
      match skip rest with
      | ':' :: rest =>
        let (value, rest) ← readValue fuel depth rest
        match skip rest with
        | ',' :: rest =>
          let (members, rest) ← readMembers fuel depth rest
          some ((key, value) :: members, rest)
        | '\x7d' :: rest => some ([(key, value)], rest)
        | _ => none
      | _ => none
    | _ => none

end

/-- The value a whole text writes, the members of its objects as they stand there, also
those of equal keys; a number beyond the range of doubles is infinite. -/
def readAsWritten? (text : String) : Option Json :=
  let cs := text.toList
  match readValue (2 * cs.length + 2) 127 cs with
  | some (value, rest) => if (skip rest).isEmpty then some value else none
  | none => none

mutual

/-- The value with every object in key order, unless a number in it is infinite. -/
def settle? : Json → Option Json
  | .float x => if x.isFinite then some (.float x) else none
  | .arr items => (settleItems? items).map .arr
  | .obj members => (settleMembers? members).map object
  | j => some j

/-- The items of an array, each settled. -/
def settleItems? : List Json → Option (List Json)
  | [] => some []
  | j :: rest => do some ((← settle? j) :: (← settleItems? rest))

/-- The members of an object, each settled. -/
def settleMembers? : List (String × Json) → Option (List (String × Json))
  | [] => some []
  | (k, j) :: rest => do some ((k, ← settle? j) :: (← settleMembers? rest))

end

/-- The value a whole text writes. -/
def read? (text : String) : Option Json := readAsWritten? text >>= settle?

end Json

end ObjectEngine
