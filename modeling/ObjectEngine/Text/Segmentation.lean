import ObjectEngine.Text.Property.Derived
import ObjectEngine.Text.Script

/-!
# Boundaries in texts

How a character behaves at the boundaries of what a reader takes for one character
(`graphemeBreaks`), of words (`wordBreaks`) and of sentences (`sentenceBreaks`), by the
properties Grapheme_Cluster_Break, Word_Break and Sentence_Break of the Unicode standard.
Characters without a part in any rule have no value here.
-/

namespace ObjectEngine

namespace Text

/-! ### Characters -/

/-- The marks that extend the character before them. -/
def clusterExtendRanges : Ranges := Ranges.join [graphemeExtendRanges, emojiModifierRanges]

/-- The letters that belong to the character after them. -/
def leadingLetterRanges : Ranges := Ranges.ofTable [
  3406, 0, 66676, 1, 526, 0, 1390, 0, 2, 0, 249, 0, 74, 5, 701, 0, 444, 0]

/-- The characters that belong to the one after them. -/
def clusterPrependRanges : Ranges :=
  Ranges.join [prependedConcatenationMarkRanges, leadingLetterRanges]

/-- The vowel signs that stand by themselves. -/
def freeVowelSignRanges : Ranges := Ranges.ofTable [
  4139, 1, 12, 0, 42, 2, 3, 6, 22, 0, 4, 5, 3, 0, 11, 2, 2501, 0, 2, 1, 36887, 0, 2, 0, 27811, 1]

/-- The marks with a place of their own that belong to the character before them. -/
def clusterSpacingRanges : Ranges :=
  Ranges.without (Ranges.join [spacingMarkRanges, [(0xE33, 0xE33), (0xEB3, 0xEB3)]])
    (Ranges.join [clusterExtendRanges, freeVowelSignRanges])

/-- The controls, next to which there is always a boundary. -/
def clusterControlRanges : Ranges :=
  Ranges.without
    (Ranges.join [lineSeparatorRanges, paragraphSeparatorRanges, controlRanges, formatRanges,
      Ranges.without defaultIgnorableCodePointRanges (Ranges.gaps 0 unassignedRanges)])
    (Ranges.join [[(10, 10), (13, 13), (0x200D, 0x200D)], clusterExtendRanges,
      clusterPrependRanges])

/-- The Hangul syllables without a final consonant: one in every 28. -/
def openSyllableRanges : Ranges :=
  (List.range 399).map fun k => (0xAC00 + 28 * k, 0xAC00 + 28 * k)

/-- The Hangul syllables with a final consonant. -/
def closedSyllableRanges : Ranges :=
  (List.range 399).map fun k => (0xAC01 + 28 * k, 0xAC1B + 28 * k)

/-- The values of Grapheme_Cluster_Break by their names. -/
def graphemeBreaks : List NamedRanges := [
  ⟨["cr"], [(13, 13)]⟩,
  ⟨["lf"], [(10, 10)]⟩,
  ⟨["control", "cn"], clusterControlRanges⟩,
  ⟨["extend", "ex"], clusterExtendRanges⟩,
  ⟨["zwj"], [(0x200D, 0x200D)]⟩,
  ⟨["regionalindicator", "ri"], regionalIndicatorRanges⟩,
  ⟨["prepend", "pp"], clusterPrependRanges⟩,
  ⟨["spacingmark", "sm"], clusterSpacingRanges⟩,
  ⟨["l"], [(0x1100, 0x115F), (0xA960, 0xA97C)]⟩,
  ⟨["v"], [(0x1160, 0x11A7), (0xD7B0, 0xD7C6), (0x16D63, 0x16D63), (0x16D67, 0x16D6A)]⟩,
  ⟨["t"], [(0x11A8, 0x11FF), (0xD7CB, 0xD7FB)]⟩,
  ⟨["lv"], openSyllableRanges⟩,
  ⟨["lvt"], closedSyllableRanges⟩]

/-! ### Words -/

/-- The marks that belong to the word before them. -/
def wordExtendRanges : Ranges := Ranges.join [clusterExtendRanges, spacingMarkRanges]

/-- The format characters that a word passes over. -/
def wordFormatRanges : Ranges :=
  Ranges.without formatRanges
    (Ranges.join [[(0x200B, 0x200D)], prependedConcatenationMarkRanges, wordExtendRanges])

/-- Characters in numbers that are no decimal digits. -/
def numberMarkRanges : Ranges := Ranges.ofTable [
  1536, 5, 102, 0, 114, 0, 435, 1, 81, 0, 4344, 0, 63203, 0, 16, 0]

/-- The characters of numbers. -/
def wordNumericRanges : Ranges := Ranges.join [decimalNumberRanges, numberMarkRanges]

/-- Marks that go with Katakana letters. -/
def katakanaMarkRanges : Ranges := Ranges.ofTable [12337, 4, 102, 1, 4, 0, 92, 0, 52852, 0]

/-- The characters of Katakana words. -/
def wordKatakanaRanges : Ranges := Ranges.join [katakanaRanges, katakanaMarkRanges]

/-- The Hebrew letters. -/
def hebrewLetterRanges : Ranges :=
  Ranges.without hebrewRanges (Ranges.gaps 0 otherLetterRanges)

/-- Letters of scripts that write words without blanks between them. -/
def unspacedLetterRanges : Ranges := Ranges.ofTable [
  3585, 47, 2, 1, 13, 6, 59, 1, 2, 0, 2, 4, 2, 23, 2, 0, 2, 9, 2, 1, 10, 0, 3, 4, 2, 0, 22, 3, 289,
  42, 21, 0, 17, 5, 5, 3, 4, 0, 4, 1, 8, 2, 5, 12, 13, 0, 1778, 51, 36, 0, 5, 0, 372, 29, 3, 4, 12,
  43, 5, 25, 87, 52, 83, 0, 36665, 4, 2, 9, 11, 4, 98, 22, 4, 0, 4, 49, 2, 0, 4, 1, 3, 4, 3, 0, 2,
  0, 25, 2, 27683, 26, 38, 6]

/-- Characters that are no letters and stand in words as letters do. -/
def letterLikeRanges : Ranges := Ranges.ofTable [
  706, 3, 13, 5, 7, 1, 6, 6, 2, 0, 2, 16, 603, 2, 2, 0, 44, 0, 105, 0, 284, 0, 40953, 14, 10, 1,
  104, 1, 977, 0]

/-- The letters of words. -/
def wordLetterRanges : Ranges :=
  Ranges.join [letterLikeRanges,
    Ranges.without alphabeticRanges
      (Ranges.join [ideographicRanges, wordKatakanaRanges, hiraganaRanges, wordExtendRanges,
        hebrewLetterRanges, unspacedLetterRanges])]

/-- The blanks that stay together. -/
def wordBlankRanges : Ranges :=
  Ranges.without spaceSeparatorRanges [(0xA0, 0xA0), (0x2007, 0x2007), (0x202F, 0x202F)]

/-- The values of Word_Break by their names. -/
def wordBreaks : List NamedRanges := [
  ⟨["cr"], [(13, 13)]⟩,
  ⟨["lf"], [(10, 10)]⟩,
  ⟨["newline", "nl"], [(0xB, 0xC), (0x85, 0x85), (0x2028, 0x2029)]⟩,
  ⟨["extend"], wordExtendRanges⟩,
  ⟨["zwj"], [(0x200D, 0x200D)]⟩,
  ⟨["format", "fo"], wordFormatRanges⟩,
  ⟨["aletter", "le"], wordLetterRanges⟩,
  ⟨["hebrewletter", "hl"], hebrewLetterRanges⟩,
  ⟨["katakana", "ka"], wordKatakanaRanges⟩,
  ⟨["numeric", "nu"], wordNumericRanges⟩,
  ⟨["extendnumlet", "ex"], Ranges.join [connectorPunctuationRanges, [(0x202F, 0x202F)]]⟩,
  ⟨["midletter", "ml"], midLetterRanges⟩,
  ⟨["midnum", "mn"], Ranges.ofTable [
    44, 0, 15, 0, 835, 0, 523, 0, 131, 1, 95, 0, 396, 0, 6220, 0, 56844, 0, 4, 0, 184, 0, 15, 0]⟩,
  ⟨["midnumlet", "mb"], midNumLetRanges⟩,
  ⟨["singlequote", "sq"], [(0x27, 0x27)]⟩,
  ⟨["doublequote", "dq"], [(0x22, 0x22)]⟩,
  ⟨["regionalindicator", "ri"], regionalIndicatorRanges⟩,
  ⟨["wsegspace"], wordBlankRanges⟩]

/-! ### Sentences -/

/-- The marks that belong to the character before them. -/
def sentenceExtendRanges : Ranges :=
  Ranges.join [graphemeExtendRanges, spacingMarkRanges, [(0x200D, 0x200D)]]

/-- The characters of numbers. -/
def sentenceNumericRanges : Ranges := Ranges.join [wordNumericRanges, [(0x66C, 0x66C)]]

/-- The format characters that a sentence passes over. -/
def sentenceFormatRanges : Ranges :=
  Ranges.without formatRanges
    (Ranges.join [[(0x200C, 0x200D)], sentenceExtendRanges, sentenceNumericRanges])

/-- The lower-case letters, as far as case tells where a sentence starts. -/
def sentenceLowerRanges : Ranges :=
  Ranges.without lowercaseRanges (Ranges.join [sentenceExtendRanges, georgianRanges])

/-- The capitals, as far as case tells where a sentence starts. -/
def sentenceUpperRanges : Ranges :=
  Ranges.without (Ranges.join [uppercaseRanges, titlecaseLetterRanges])
    [(0x1C90, 0x1CBA), (0x1CBD, 0x1CBF)]

/-- The letters whose case tells nothing. -/
def sentenceLetterRanges : Ranges :=
  Ranges.without (Ranges.join [alphabeticRanges, [(0x5F3, 0x5F3)]])
    (Ranges.join [sentenceLowerRanges, sentenceUpperRanges, sentenceExtendRanges])

/-- The line and paragraph separators. -/
def sentenceSeparatorRanges : Ranges := [(0x85, 0x85), (0x2028, 0x2029)]

/-- The blanks inside a line. -/
def sentenceBlankRanges : Ranges :=
  Ranges.without blankRanges (Ranges.join [[(10, 10), (13, 13)], sentenceSeparatorRanges])

/-- The full stops, which may also abbreviate. -/
def fullStopRanges : Ranges := [(0x2E, 0x2E), (0x2024, 0x2024), (0xFE52, 0xFE52), (0xFF0E, 0xFF0E)]

/-- Quotation marks and brackets that are neither opening nor closing punctuation. -/
def bareQuoteRanges : Ranges := Ranges.ofTable [
  34, 0, 5, 0, 10036, 5, 1696, 1, 5, 2, 3, 0, 116843, 2]

/-- The quotation marks and brackets that may follow the end of a sentence. -/
def sentenceCloseRanges : Ranges :=
  Ranges.join [openPunctuationRanges, closePunctuationRanges, initialPunctuationRanges,
    finalPunctuationRanges, bareQuoteRanges]

/-- The marks after which a sentence goes on. -/
def sentenceContinueRanges : Ranges := Ranges.ofTable [
  44, 1, 13, 1, 835, 0, 479, 0, 175, 1, 491, 0, 4106, 0, 6, 0, 2059, 1, 4077, 0, 52751, 1, 2, 1, 29,
  1, 30, 1, 3, 1, 3, 0, 11, 0, 169, 1, 13, 1, 73, 0]

/-- The values of Sentence_Break by their names. -/
def sentenceBreaks : List NamedRanges := [
  ⟨["cr"], [(13, 13)]⟩,
  ⟨["lf"], [(10, 10)]⟩,
  ⟨["sep", "se"], sentenceSeparatorRanges⟩,
  ⟨["extend", "ex"], sentenceExtendRanges⟩,
  ⟨["format", "fo"], sentenceFormatRanges⟩,
  ⟨["sp"], sentenceBlankRanges⟩,
  ⟨["lower", "lo"], sentenceLowerRanges⟩,
  ⟨["upper", "up"], sentenceUpperRanges⟩,
  ⟨["oletter", "le"], sentenceLetterRanges⟩,
  ⟨["numeric", "nu"], sentenceNumericRanges⟩,
  ⟨["aterm", "at"], fullStopRanges⟩,
  ⟨["sterm", "st"], Ranges.without sentenceTerminalRanges fullStopRanges⟩,
  ⟨["scontinue", "sc"], sentenceContinueRanges⟩,
  ⟨["close", "cl"], sentenceCloseRanges⟩]

end Text

end ObjectEngine
