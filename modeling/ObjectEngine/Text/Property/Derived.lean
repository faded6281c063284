import ObjectEngine.Text.Blank
import ObjectEngine.Text.Category
import ObjectEngine.Text.Property.Listed

/-!
# Derived properties

The binary properties of characters that the Unicode standard derives from the general
category and from its lists: the letters and their case (`alphabeticRanges`, `casedRanges`),
the characters that a change of case changes, those of words and of identifiers, and those
that extend the character before them (`graphemeExtendRanges`).
-/

namespace ObjectEngine

namespace Text

/-! ### Letters and case -/

/-- The property Lowercase. -/
def lowercaseRanges : Ranges := Ranges.join [lowercaseLetterRanges, otherLowercaseRanges]

/-- The property Uppercase. -/
def uppercaseRanges : Ranges := Ranges.join [uppercaseLetterRanges, otherUppercaseRanges]

/-- The property Cased. -/
def casedRanges : Ranges := Ranges.join [lowercaseRanges, uppercaseRanges, titlecaseLetterRanges]

/-- The property Alphabetic. -/
def alphabeticRanges : Ranges :=
  Ranges.join [lowercaseRanges, uppercaseRanges, titlecaseLetterRanges, modifierLetterRanges,
    otherLetterRanges, letterNumberRanges, otherAlphabeticRanges]

/-- The property Case_Ignorable: marks, modifiers, and what may stand inside a word. -/
def caseIgnorableRanges : Ranges :=
  Ranges.join [nonspacingMarkRanges, enclosingMarkRanges, formatRanges, modifierLetterRanges,
    modifierSymbolRanges, midLetterRanges, midNumLetRanges, [(0x27, 0x27)]]

/-- The property Math. -/
def mathRanges : Ranges := Ranges.join [mathSymbolRanges, otherMathRanges]

/-- The characters of words: letters, marks, digits, connectors and joiners. -/
def wordRanges : Ranges :=
  Ranges.join [alphabeticRanges, markRanges, decimalNumberRanges, connectorPunctuationRanges,
    joinControlRanges]

/-! ### Changes of case -/

/-- Capitals without a lower-case form. -/
def loneCapitalRanges : Ranges := Ranges.ofTable [
  978, 2, 7470, 0, 5, 0, 4, 2, 3, 2, 3, 0, 4, 4, 7, 0, 4, 0, 4, 1, 3, 1, 2, 0, 11, 1, 6, 0, 111291,
  25, 27, 25, 27, 25, 27, 0, 2, 1, 3, 0, 3, 1, 3, 3, 2, 7, 27, 25, 27, 1, 2, 3, 3, 7, 2, 6, 28, 1,
  2, 3, 2, 4, 2, 0, 4, 6, 28, 25, 27, 25, 27, 25, 27, 25, 27, 25, 27, 25, 31, 24, 34, 24, 34, 24,
  34, 24, 34, 24, 34, 0, 6502, 25, 7, 25, 7, 25]

/-- Lower-case characters without a capital. -/
def loneLowercaseRanges : Ranges := Ranges.ofTable [
  170, 0, 16, 0, 126, 0, 85, 0, 29, 1, 15, 0, 4, 0, 99, 0, 19, 5, 28, 0, 3, 0, 2, 0, 3, 2, 3, 0, 5,
  0, 6, 1, 2, 0, 3, 1, 2, 6, 2, 1, 2, 0, 3, 2, 7, 4, 2, 0, 2, 7, 3, 25, 8, 1, 31, 4, 150, 0, 130, 0,
  356, 0, 40, 0, 2932, 0, 3076, 120, 2, 2, 2, 15, 2, 48, 221, 1, 2, 0, 466, 0, 14, 0, 17, 12, 110,
  0, 4, 1, 4, 0, 28, 0, 5, 0, 5, 0, 3, 1, 9, 3, 2856, 0, 3, 0, 3, 6, 103, 0, 31160, 1, 147, 1, 63,
  8, 22, 0, 7, 0, 26, 0, 36, 0, 2, 0, 29, 2, 4, 2, 822, 34, 2, 6, 2, 13, 23575, 0, 3, 2, 2, 41, 2,
  8, 52320, 25, 27, 6, 2, 17, 27, 25, 27, 3, 2, 0, 2, 6, 2, 10, 27, 25, 27, 25, 27, 25, 27, 25, 27,
  25, 27, 25, 27, 25, 27, 25, 27, 27, 29, 24, 2, 5, 27, 24, 2, 5, 27, 24, 2, 5, 27, 24, 2, 5, 27,
  24, 2, 5, 2, 0, 1845, 9, 2, 19, 7, 5, 262, 61]

/-- Characters that only folding changes. -/
def foldedOnlyRanges : Ranges := Ranges.ofTable [
  181, 0, 42, 0, 106, 0, 54, 0, 454, 0, 125, 0, 14, 1, 4, 1, 26, 1, 4, 0, 402, 0, 3697, 5, 2179, 8,
  530, 1, 229, 7, 9, 7, 9, 7, 11, 2, 3, 0, 11, 2, 3, 0, 43, 2, 3, 0, 35705, 79, 20289, 6, 13, 4]

/-- The Cherokee capitals, which fold to themselves. -/
def cherokeeCapitalRanges : Ranges := [(0x13A0, 0x13F5)]

/-- The Georgian letters, whose title case is their lower case. -/
def georgianRanges : Ranges := [(0x10D0, 0x10FA), (0x10FD, 0x10FF)]

/-- The capitals that are two letters, of which title case keeps one. -/
def doubleCapitalRanges : Ranges :=
  [(0x1C4, 0x1C4), (0x1C7, 0x1C7), (0x1CA, 0x1CA), (0x1F1, 0x1F1)]

/-- The property Changes_When_Lowercased. -/
def changesWhenLowercasedRanges : Ranges :=
  Ranges.without (Ranges.join [uppercaseRanges, titlecaseLetterRanges]) loneCapitalRanges

/-- The property Changes_When_Uppercased. -/
def changesWhenUppercasedRanges : Ranges :=
  Ranges.join [Ranges.without lowercaseRanges loneLowercaseRanges, titlecaseLetterRanges]

/-- The property Changes_When_Titlecased. -/
def changesWhenTitlecasedRanges : Ranges :=
  Ranges.join [doubleCapitalRanges,
    Ranges.without changesWhenUppercasedRanges
      (Ranges.join [titlecaseLetterRanges, georgianRanges])]

/-- The property Changes_When_Casefolded. -/
def changesWhenCasefoldedRanges : Ranges :=
  Ranges.join [foldedOnlyRanges,
    Ranges.without changesWhenLowercasedRanges cherokeeCapitalRanges]

/-- The property Changes_When_Casemapped. -/
def changesWhenCasemappedRanges : Ranges :=
  Ranges.join [changesWhenLowercasedRanges, changesWhenTitlecasedRanges,
    changesWhenUppercasedRanges]

/-! ### Identifiers -/

/-- The characters of pattern languages, which no identifier holds. -/
def patternRanges : Ranges := Ranges.join [patternSyntaxRanges, patternWhiteSpaceRanges]

/-- The property ID_Start. -/
def idStartRanges : Ranges :=
  Ranges.without (Ranges.join [letterRanges, letterNumberRanges, otherIdStartRanges])
    patternRanges

/-- The property ID_Continue. -/
def idContinueRanges : Ranges :=
  Ranges.without
    (Ranges.join [idStartRanges, nonspacingMarkRanges, spacingMarkRanges, decimalNumberRanges,
      connectorPunctuationRanges, otherIdContinueRanges])
    patternRanges

/-- Characters whose compatibility form is no part of an identifier. -/
def incompatibleRanges : Ranges := Ranges.ofTable [
  890, 0, 11553, 1, 52162, 5, 407, 1, 117, 0, 2, 0, 2, 0, 2, 0, 2, 0, 2, 0, 2, 0, 2, 0]

/-- Characters whose compatibility form may continue an identifier and not start one. -/
def incompatibleStartRanges : Ranges := Ranges.ofTable [3635, 0, 128, 0, 61675, 1]

/-- The property XID_Start. -/
def xidStartRanges : Ranges :=
  Ranges.without idStartRanges (Ranges.join [incompatibleRanges, incompatibleStartRanges])

/-- The property XID_Continue. -/
def xidContinueRanges : Ranges := Ranges.without idContinueRanges incompatibleRanges

/-! ### Characters that show or extend -/

/-- The property Grapheme_Extend. -/
def graphemeExtendRanges : Ranges :=
  Ranges.join [nonspacingMarkRanges, enclosingMarkRanges, otherGraphemeExtendRanges]

/-- The property Grapheme_Base. -/
def graphemeBaseRanges : Ranges :=
  Ranges.gaps 0 <| Ranges.join [otherRanges, surrogateRanges, lineSeparatorRanges,
    paragraphSeparatorRanges, graphemeExtendRanges]

/-- The format characters that are seen: annotation marks and hieroglyph joiners. -/
def visibleFormatRanges : Ranges := [(0xFFF9, 0xFFFB), (0x13430, 0x13440)]

/-- The property Default_Ignorable_Code_Point. -/
def defaultIgnorableCodePointRanges : Ranges :=
  Ranges.without
    (Ranges.join [otherDefaultIgnorableCodePointRanges, formatRanges, variationSelectorRanges])
    (Ranges.join [blankRanges, visibleFormatRanges, prependedConcatenationMarkRanges])

end Text

end ObjectEngine
