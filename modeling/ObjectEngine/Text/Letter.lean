import ObjectEngine.Text.Property.Derived

/-!
# Letters of the newest edition

The tables of properties are those of edition 16 of the Unicode standard, which patterns
follow. The case of texts and the names of groups follow edition 17: here are the characters
that it adds to a property, and the classes of characters that come of it.
-/

namespace ObjectEngine

namespace Text

/-! ### What the edition adds -/

/-- The letters that the edition adds. -/
def newAlphabeticRanges : Ranges := Ranges.ofTable [
  2191, 0, 973, 0, 128, 0, 39666, 1, 3, 0, 2, 0, 29, 0, 24911, 25, 1388, 2, 51, 1, 3173, 7, 585, 43,
  20677, 24, 3, 24, 287, 4, 6146, 7, 1290, 21, 98, 114, 22734, 30, 2, 21, 9, 1, 53307, 5, 5987, 11,
  21763, 4297]

/-- The numbers that the edition adds. -/
def newNumberRanges : Ranges := Ranges.ofTable [73184, 9, 21003, 2]

/-- The letters with case that the edition adds. -/
def newCasedRanges : Ranges := Ranges.ofTable [42958, 1, 3, 0, 2, 0, 29, 0, 50863, 24, 3, 24]

/-- The marks and modifiers that the edition adds. -/
def newCaseIgnorableRanges : Ranges := Ranges.ofTable [
  6863, 14, 3, 11, 36102, 0, 26324, 0, 53, 1, 3173, 0, 2, 2, 2, 0, 627, 0, 21017, 1, 30448, 0, 3, 0,
  8, 1, 6, 0, 10, 0]

/-! ### Classes -/

/-- Whether a character is a letter or stands for one. -/
def isAlphabetic (c : Char) : Bool :=
  alphabeticRanges.contains c.toNat || newAlphabeticRanges.contains c.toNat

/-- Whether a character is a number. -/
def isNumeric (c : Char) : Bool :=
  numberRanges.contains c.toNat || newNumberRanges.contains c.toNat

/-- Whether a character has case. The letter for the voiced pharyngeal sound had it until
another became the lower case of the capital. -/
def isCased (c : Char) : Bool :=
  (casedRanges.contains c.toNat && c != '\u0295') || newCasedRanges.contains c.toNat

/-- Whether case passes over a character. -/
def isCaseIgnorable (c : Char) : Bool :=
  caseIgnorableRanges.contains c.toNat || newCaseIgnorableRanges.contains c.toNat

end Text

end ObjectEngine
