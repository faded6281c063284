import ObjectEngine.Text.Numeral
import ObjectEngine.Time.Instant

/-!
# Timestamps as texts

`Instant.iso` writes an instant with milliseconds and `Z`; a year outside 0 to 9999 has a
sign and at least four digits. `Instant.parse?` reads a timestamp of RFC 3339: a date, one of
`T`, `t` and a blank, a time that may have a fraction of any length, and `Z`, `z` or an
offset of less than a day. A sixtieth second is a leap second.
-/

namespace ObjectEngine

namespace Instant

/-- A number with zeros in front, at least `width` digits wide. -/
def padded (width n : Nat) : List Char :=
  let digits := Nat.toDigits 10 n
  List.replicate (width - digits.length) '0' ++ digits

/-- A year: four digits from 0 to 9999, otherwise with a sign. -/
def yearText (year : Int) : List Char :=
  if 0 ≤ year ∧ year ≤ 9999 then padded 4 year.toNat
  else (if year < 0 then '-' else '+') :: padded 4 year.natAbs

/-- The timestamp with milliseconds and `Z`. -/
def iso (t : Instant) : String :=
  let day := t.seconds.fdiv 86400
  let second := (t.seconds - day * 86400).toNat
  let (year, month, date) := civil day
  let leap := 1000000000 ≤ t.nanos
  let sec := second % 60 + (if leap then 1 else 0)
  let nanos := if leap then t.nanos - 1000000000 else t.nanos
  String.ofList (yearText year ++ '-' :: padded 2 month ++ '-' :: padded 2 date ++
    'T' :: padded 2 (second / 3600) ++ ':' :: padded 2 (second / 60 % 60) ++
    ':' :: padded 2 sec ++ '.' :: padded 3 (nanos / 1000000) ++ ['Z'])

/-- Exactly `width` digits. -/
def digits? (width : Nat) (cs : List Char) : Option (Nat × List Char) :=
  let head := cs.take width
  if head.length = width && head.all Char.isDigit then
    some (Text.natOfDigits 0 head, cs.drop width)
  else none

/-- One given character. -/
def char? (c : Char) : List Char → Option (List Char)
  | [] => none
  | d :: rest => if c = d then some rest else none

/-- A fraction of a second in nanoseconds, if there is one; digits past the ninth are
dropped. -/
def fraction? (cs : List Char) : Option (Nat × List Char) :=
  match cs with
  | '.' :: rest =>
    let digits := rest.takeWhile Char.isDigit
    if digits.isEmpty then none
    else
      let kept := digits.take 9 ++ List.replicate (9 - digits.length) '0'
      some (Text.natOfDigits 0 kept, rest.dropWhile Char.isDigit)
  | _ => some (0, cs)

/-- The offset from universal time in seconds. -/
def offset? (cs : List Char) : Option (Int × List Char) :=
  match cs with
  | [] => none
  | c :: rest =>
    if c = 'Z' || c = 'z' then some (0, rest)
    else if c = '+' || c = '-' || c = '\u2212' then do
      let (hours, rest) ← digits? 2 rest
      let rest ← char? ':' rest
      let (minutes, rest) ← digits? 2 rest
      if hours < 24 && minutes < 60 then
        let n : Int := hours * 3600 + minutes * 60
        some (if c = '+' then n else -n, rest)
      else none
    else none

/-- The instant a timestamp names. -/
def parse? (text : String) : Option Instant := do
  let (year, cs) ← digits? 4 text.toList
  let cs ← char? '-' cs
  let (month, cs) ← digits? 2 cs
  let cs ← char? '-' cs
  let (day, cs) ← digits? 2 cs
  let cs ← match cs with
    | c :: rest => if c = 'T' || c = 't' || c = ' ' then some rest else none
    | [] => none
  let (hour, cs) ← digits? 2 cs
  let cs ← char? ':' cs
  let (minute, cs) ← digits? 2 cs
  let cs ← char? ':' cs
  let (second, cs) ← digits? 2 cs
  let (nanos, cs) ← fraction? cs
  let (offset, cs) ← offset? cs
  if !cs.isEmpty || month < 1 || 12 < month || day < 1 || daysInMonth year month < day ||
      23 < hour || 59 < minute || 60 < second then none
  else
    let leap := second = 60
    let clock : Int := hour * 3600 + minute * 60 + (if leap then 59 else second)
    some {
      seconds := daysOfCivil year month day * 86400 + clock - offset
      nanos := if leap then nanos + 1000000000 else nanos }

end Instant

end ObjectEngine
