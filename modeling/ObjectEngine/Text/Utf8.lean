/-!
# Bytes of ranges of characters

UTF-8 writes a character as up to four bytes, each but the first with six bits of its code
point. The characters of a range are written by few sequences of ranges of bytes
(`Utf8.sequences`): what is written takes one byte of each range of one of the sequences. For
one character these are its bytes (`sequences_self`).
-/

namespace ObjectEngine

namespace Text

namespace Utf8

/-- One range of bytes after another. -/
abbrev Sequence := List (Nat × Nat)

/-- How the characters of an interval are written: the bytes after the first, and what is added
to the first digit of a code point in base 64 to make the first byte. -/
structure Length where
  first : Nat
  last : Nat
  more : Nat
  lead : Nat
  deriving Inhabited

/-- The intervals in order. The surrogates are in none. -/
def lengths : List Length := [
  ⟨0, 0x7F, 0, 0⟩,
  ⟨0x80, 0x7FF, 1, 0xC0⟩,
  ⟨0x800, 0xD7FF, 2, 0xE0⟩,
  ⟨0xE000, 0xFFFF, 2, 0xE0⟩,
  ⟨0x10000, 0x10FFFF, 3, 0xF0⟩]

/-- The digits in base 64 of the numbers from `first` to `last`, one digit and `more` after it, by
ranges for each digit. -/
def digits : Nat → Nat → Nat → List Sequence
  | 0, first, last => [[(first, last)]]
  | more + 1, first, last =>
    let unit := 1 <<< (6 * (more + 1))
    let low := first / unit
    let high := last / unit
    if low = high then
      (digits more (first % unit) (last % unit)).map ((low, low) :: ·)
    else
      let fromStart := first % unit = 0
      let toEnd := last % unit = unit - 1
      let start := if fromStart then []
        else (digits more (first % unit) (unit - 1)).map ((low, low) :: ·)
      let finish := if toEnd then []
        else (digits more 0 (last % unit)).map ((high, high) :: ·)
      let next := if fromStart then low else low + 1
      let stop := if toEnd then high + 1 else high
      let whole := if next < stop
        then [(next, stop - 1) :: List.replicate (more + 1) (0, 63)] else []
      start ++ whole ++ finish

/-- The bytes that digits are written as. -/
def mark (lead : Nat) : Sequence → Sequence
  | [] => []
  | (first, last) :: rest =>
    (first + lead, last + lead) :: rest.map fun r => (r.1 + 0x80, r.2 + 0x80)

/-- The bytes of the characters of a range. -/
def sequences (r : Nat × Nat) : List Sequence :=
  lengths.flatMap fun n =>
    let first := max r.1 n.first
    let last := min r.2 n.last
    if first ≤ last then (digits n.more first last).map (mark n.lead) else []

/-- **One character is written by its bytes.** -/
theorem sequences_self (c : Char) :
    sequences (c.toNat, c.toNat) =
      [(String.utf8EncodeChar c).map fun b => (b.toNat, b.toNat)] := by
  have valid : c.toNat < 0xD800 ∨ 0xDFFF < c.toNat ∧ c.toNat < 0x110000 := c.valid
  rw [String.utf8EncodeChar, show c.val.toNat = c.toNat from rfl]
  generalize c.toNat = n at valid
  have inside (m : Length) : max n m.first ≤ min n m.last ↔ m.first ≤ n ∧ n ≤ m.last := by omega
  simp only [sequences, lengths, List.flatMap_cons, List.flatMap_nil, inside]
  by_cases h1 : n ≤ 0x7F
  · simp [h1, show ¬0x80 ≤ n by omega, show ¬0x800 ≤ n by omega, show ¬0xE000 ≤ n by omega,
      show ¬0x10000 ≤ n by omega, digits, mark]
    omega
  by_cases h2 : n ≤ 0x7FF
  · simp [h1, h2, show 0x80 ≤ n by omega, show ¬0x800 ≤ n by omega, show ¬0xE000 ≤ n by omega,
      show ¬0x10000 ≤ n by omega, digits, mark]
    omega
  by_cases h3 : n ≤ 0xD7FF
  · simp [h1, h2, h3, show 0x800 ≤ n by omega, show ¬0xE000 ≤ n by omega,
      show ¬0x10000 ≤ n by omega, show n ≤ 0xFFFF by omega, digits, mark]
    omega
  by_cases h4 : n ≤ 0xFFFF
  · simp [h1, h2, h3, h4, show 0xE000 ≤ n by omega, show ¬0x10000 ≤ n by omega, digits, mark]
    omega
  · simp [h1, h2, h3, h4, show 0x10000 ≤ n by omega, show n ≤ 0x10FFFF by omega, digits, mark]
    omega

/-- The bytes of all characters beyond ASCII. -/
example : sequences (0x80, 0x10FFFF) = [
    [(0xC2, 0xDF), (0x80, 0xBF)],
    [(0xE0, 0xE0), (0xA0, 0xBF), (0x80, 0xBF)],
    [(0xE1, 0xEC), (0x80, 0xBF), (0x80, 0xBF)],
    [(0xED, 0xED), (0x80, 0x9F), (0x80, 0xBF)],
    [(0xEE, 0xEF), (0x80, 0xBF), (0x80, 0xBF)],
    [(0xF0, 0xF0), (0x90, 0xBF), (0x80, 0xBF), (0x80, 0xBF)],
    [(0xF1, 0xF3), (0x80, 0xBF), (0x80, 0xBF), (0x80, 0xBF)],
    [(0xF4, 0xF4), (0x80, 0x8F), (0x80, 0xBF), (0x80, 0xBF)]] := by
  decide

end Utf8

end Text

end ObjectEngine
