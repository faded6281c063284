import ObjectEngine.Text.Age
import ObjectEngine.Text.Segmentation

/-!
# Properties of characters by name

What the Unicode standard calls its properties and their values. A name stands alone for a
binary property, a category or a script (`Text.property?`); with a value it stands for the
characters whose property has the value (`Text.propertyValue?`). Names count in the loose form
of `Text.looseName`: without case, blanks, hyphens and underscores.
-/

namespace ObjectEngine

namespace Text

/-- What is left of a name of the standard once case, blanks, hyphens, underscores and a
leading `is` are taken off. The name `isc` keeps its start, since `c` is another name. -/
def looseName (name : String) : String :=
  let lower := name.toList.map Char.toLower
  let letters (cs : List Char) : List Char :=
    cs.filter fun c => c.toNat < 128 && c != ' ' && c != '_' && c != '-'
  match lower with
  | 'i' :: 's' :: rest =>
    if letters rest = ['c'] then "isc" else String.ofList (letters rest)
  | _ => String.ofList (letters lower)

/-- The binary properties by their names. -/
def properties : List NamedRanges := [
  ⟨["asciihexdigit", "ahex"], asciiHexDigitRanges⟩,
  ⟨["alphabetic", "alpha"], alphabeticRanges⟩,
  ⟨["bidicontrol", "bidic"], bidiControlRanges⟩,
  ⟨["bidimirrored", "bidim"], bidiMirroredRanges⟩,
  ⟨["caseignorable", "ci"], caseIgnorableRanges⟩,
  ⟨["cased"], casedRanges⟩,
  ⟨["changeswhencasefolded", "cwcf"], changesWhenCasefoldedRanges⟩,
  ⟨["changeswhencasemapped", "cwcm"], changesWhenCasemappedRanges⟩,
  ⟨["changeswhenlowercased", "cwl"], changesWhenLowercasedRanges⟩,
  ⟨["changeswhentitlecased", "cwt"], changesWhenTitlecasedRanges⟩,
  ⟨["changeswhenuppercased", "cwu"], changesWhenUppercasedRanges⟩,
  ⟨["dash"], dashRanges⟩,
  ⟨["defaultignorablecodepoint", "di"], defaultIgnorableCodePointRanges⟩,
  ⟨["deprecated", "dep"], deprecatedRanges⟩,
  ⟨["diacritic", "dia"], diacriticRanges⟩,
  ⟨["emoji"], emojiRanges⟩,
  ⟨["emojicomponent", "ecomp"], emojiComponentRanges⟩,
  ⟨["emojimodifier", "emod"], emojiModifierRanges⟩,
  ⟨["emojimodifierbase", "ebase"], emojiModifierBaseRanges⟩,
  ⟨["emojipresentation", "epres"], emojiPresentationRanges⟩,
  ⟨["extendedpictographic", "extpict"], extendedPictographicRanges⟩,
  ⟨["extender", "ext"], extenderRanges⟩,
  ⟨["graphemebase", "grbase"], graphemeBaseRanges⟩,
  ⟨["graphemeextend", "grext"], graphemeExtendRanges⟩,
  ⟨["graphemelink", "grlink"], graphemeLinkRanges⟩,
  ⟨["hexdigit", "hex"], hexDigitRanges⟩,
  ⟨["hyphen"], hyphenRanges⟩,
  ⟨["idsbinaryoperator", "idsb"], idsBinaryOperatorRanges⟩,
  ⟨["idstrinaryoperator", "idst"], idsTrinaryOperatorRanges⟩,
  ⟨["idsunaryoperator", "idsu"], idsUnaryOperatorRanges⟩,
  ⟨["idcompatmathcontinue"], idCompatMathContinueRanges⟩,
  ⟨["idcompatmathstart"], idCompatMathStartRanges⟩,
  ⟨["idcontinue", "idc"], idContinueRanges⟩,
  ⟨["idstart", "ids"], idStartRanges⟩,
  ⟨["ideographic", "ideo"], ideographicRanges⟩,
  ⟨["joincontrol", "joinc"], joinControlRanges⟩,
  ⟨["logicalorderexception", "loe"], logicalOrderExceptionRanges⟩,
  ⟨["lowercase", "lower"], lowercaseRanges⟩,
  ⟨["math"], mathRanges⟩,
  ⟨["modifiercombiningmark", "mcm"], modifierCombiningMarkRanges⟩,
  ⟨["noncharactercodepoint", "nchar"], noncharacterCodePointRanges⟩,
  ⟨["otheralphabetic", "oalpha"], otherAlphabeticRanges⟩,
  ⟨["otherdefaultignorablecodepoint", "odi"], otherDefaultIgnorableCodePointRanges⟩,
  ⟨["othergraphemeextend", "ogrext"], otherGraphemeExtendRanges⟩,
  ⟨["otheridcontinue", "oidc"], otherIdContinueRanges⟩,
  ⟨["otheridstart", "oids"], otherIdStartRanges⟩,
  ⟨["otherlowercase", "olower"], otherLowercaseRanges⟩,
  ⟨["othermath", "omath"], otherMathRanges⟩,
  ⟨["otheruppercase", "oupper"], otherUppercaseRanges⟩,
  ⟨["patternsyntax", "patsyn"], patternSyntaxRanges⟩,
  ⟨["patternwhitespace", "patws"], patternWhiteSpaceRanges⟩,
  ⟨["prependedconcatenationmark", "pcm"], prependedConcatenationMarkRanges⟩,
  ⟨["quotationmark", "qmark"], quotationMarkRanges⟩,
  ⟨["radical"], radicalRanges⟩,
  ⟨["regionalindicator", "ri"], regionalIndicatorRanges⟩,
  ⟨["sentenceterminal", "sterm"], sentenceTerminalRanges⟩,
  ⟨["softdotted", "sd"], softDottedRanges⟩,
  ⟨["terminalpunctuation", "term"], terminalPunctuationRanges⟩,
  ⟨["unifiedideograph", "uideo"], unifiedIdeographRanges⟩,
  ⟨["uppercase", "upper"], uppercaseRanges⟩,
  ⟨["variationselector", "vs"], variationSelectorRanges⟩,
  ⟨["whitespace", "space", "wspace"], blankRanges⟩,
  ⟨["xidcontinue", "xidc"], xidContinueRanges⟩,
  ⟨["xidstart", "xids"], xidStartRanges⟩]

/-- The characters that a name alone stands for: a binary property, a category or a script. -/
def property? (name : String) : Option Ranges :=
  let name := looseName name
  ((NamedRanges.find? properties name).or (category? name)).or (script? name)

/-- A property with several values: its names, and the characters with the value of a name. -/
structure ValuedProperty where
  names : List String
  value? : String → Option Ranges

/-- The properties with several values. -/
def valuedProperties : List ValuedProperty := [
  ⟨["age"], age?⟩,
  ⟨["generalcategory", "gc"], category?⟩,
  ⟨["graphemeclusterbreak", "gcb"], NamedRanges.find? graphemeBreaks⟩,
  ⟨["script", "sc"], script?⟩,
  ⟨["scriptextensions", "scx"], scriptExtension?⟩,
  ⟨["sentencebreak", "sb"], NamedRanges.find? sentenceBreaks⟩,
  ⟨["wordbreak", "wb"], NamedRanges.find? wordBreaks⟩]

/-- The characters whose property of a name has the value of a name. -/
def propertyValue? (property value : String) : Option Ranges := do
  let property ← valuedProperties.find? (·.names.contains (looseName property))
  property.value? (looseName value)

end Text

end ObjectEngine
