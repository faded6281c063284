import ObjectEngine.Text.Ranges

/-!
# Scripts

The scripts of the Unicode standard. A character has one script or, being used with many, is
common or inherited; the property Script_Extensions counts to each script also the characters
that it shares with others, and leaves to the common and the inherited only what no script
claims. Characters of unassigned code points are in none.
-/

namespace ObjectEngine

namespace Text

/-- A script: its names, its own characters, and characters it shares. -/
structure Script where
  names : List String
  ranges : Ranges
  shared : Ranges
  deriving Inhabited

/-- The script Hebrew. -/
def hebrewRanges : Ranges := Ranges.ofTable [
  1425, 54, 9, 26, 5, 5, 62761, 25, 2, 4, 2, 0, 2, 1, 2, 1, 2, 9]

/-- The script Hiragana. -/
def hiraganaRanges : Ranges := Ranges.ofTable [12353, 85, 7, 2, 98146, 286, 19, 0, 30, 2, 16558, 0]

/-- The script Katakana. -/
def katakanaRanges : Ranges := Ranges.ofTable [
  12449, 89, 3, 2, 241, 15, 209, 46, 2, 87, 52239, 9, 2, 44, 45139, 3, 2, 6, 2, 1, 2, 0, 288, 2, 51,
  0, 15, 3]

/-- The scripts. -/
def scripts : List Script := [
  ⟨["adlam", "adlm"], Ranges.ofTable [125184, 75, 5, 9, 5, 1],
    Ranges.ofTable [1567, 0, 33, 0, 6671, 0, 3570, 0]⟩,
  ⟨["ahom"], Ranges.ofTable [71424, 26, 3, 14, 5, 22], []⟩,
  ⟨["anatolianhieroglyphs", "hluw"], Ranges.ofTable [82944, 582], []⟩,
  ⟨["arabic", "arab"], Ranges.ofTable [
    1536, 4, 2, 5, 2, 13, 2, 2, 2, 31, 2, 9, 12, 25, 2, 107, 2, 33, 81, 47, 241, 30, 2, 1, 6, 74,
    2, 28, 62033, 114, 17, 362, 3, 79, 3, 53, 8, 0, 33, 15, 113, 4, 2, 134, 3940, 30, 68, 2, 56, 3,
    57089, 3, 2, 26, 2, 1, 2, 0, 3, 0, 2, 9, 2, 3, 2, 0, 2, 0, 7, 0, 5, 0, 2, 0, 2, 0, 2, 2, 2, 1,
    2, 0, 3, 0, 2, 0, 2, 0, 2, 0, 2, 0, 2, 1, 2, 0, 3, 3, 2, 6, 2, 3, 2, 3, 2, 0, 2, 9, 2, 16, 6,
    2, 2, 4, 2, 16, 53, 1],
    Ranges.ofTable [
      1548, 0, 15, 0, 4, 0, 33, 0, 11, 10, 27, 0, 6623, 0, 3570, 0, 52989, 1, 1441, 27]⟩,
  ⟨["armenian", "armn"], Ranges.ofTable [1329, 37, 3, 49, 3, 2, 62852, 4], Ranges.ofTable [776, 0]⟩,
  ⟨["avestan", "avst"], Ranges.ofTable [68352, 53, 4, 6], Ranges.ofTable [183, 0, 11641, 1]⟩,
  ⟨["balinese", "bali"], Ranges.ofTable [6912, 76, 2, 49], []⟩,
  ⟨["bamum", "bamu"], Ranges.ofTable [42656, 87, 49417, 568], []⟩,
  ⟨["bassavah", "bass"], Ranges.ofTable [92880, 29, 3, 5], []⟩,
  ⟨["batak", "batk"], Ranges.ofTable [7104, 51, 9, 3], []⟩,
  ⟨["bengali", "beng"], Ranges.ofTable [
    2432, 3, 2, 7, 3, 1, 3, 21, 2, 6, 2, 0, 4, 3, 3, 8, 3, 1, 3, 3, 9, 0, 5, 1, 2, 4, 3, 24],
    Ranges.ofTable [
      700, 0, 1685, 1, 18, 1, 4971, 0, 2, 0, 3, 1, 2, 0, 9, 0, 9, 0, 3, 0, 5, 0, 3, 2, 35834, 0]⟩,
  ⟨["bhaiksuki", "bhks"], Ranges.ofTable [72704, 8, 2, 44, 2, 13, 11, 28], []⟩,
  ⟨["bopomofo", "bopo"], Ranges.ofTable [746, 1, 11802, 42, 113, 31],
    Ranges.ofTable [
      711, 0, 2, 2, 14, 0, 11560, 2, 5, 9, 2, 12, 11, 3, 3, 0, 7, 0, 196, 0, 52554, 1, 283, 4]⟩,
  ⟨["brahmi", "brah"], Ranges.ofTable [69632, 77, 5, 35, 10, 0], []⟩,
  ⟨["braille", "brai"], Ranges.ofTable [10240, 255], []⟩,
  ⟨["buginese", "bugi"], Ranges.ofTable [6656, 27, 3, 1], Ranges.ofTable [43471, 0]⟩,
  ⟨["buhid", "buhd"], Ranges.ofTable [5952, 19], Ranges.ofTable [5941, 1]⟩,
  ⟨["canadianaboriginal", "cans"], Ranges.ofTable [5120, 639, 561, 69, 65979, 15], []⟩,
  ⟨["carian", "cari"], Ranges.ofTable [66208, 48], Ranges.ofTable [183, 0, 8099, 0, 3, 0, 3540, 0]⟩,
  ⟨["caucasianalbanian", "aghb"], Ranges.ofTable [66864, 51, 12, 0],
    Ranges.ofTable [772, 0, 45, 0, 45, 0]⟩,
  ⟨["chakma", "cakm"], Ranges.ofTable [69888, 52, 2, 17], Ranges.ofTable [2534, 9, 1617, 9]⟩,
  ⟨["cham"], Ranges.ofTable [43520, 54, 10, 13, 3, 9, 3, 3], []⟩,
  ⟨["cherokee", "cher"], Ranges.ofTable [5024, 85, 3, 5, 38771, 79],
    Ranges.ofTable [768, 2, 2, 0, 7, 1, 23, 1, 12, 1]⟩,
  ⟨["chorasmian", "chrs"], Ranges.ofTable [69552, 27], []⟩,
  ⟨["coptic", "copt", "qaac"], Ranges.ofTable [994, 13, 10385, 115, 6, 6],
    Ranges.ofTable [183, 0, 585, 0, 4, 1, 2, 0, 109, 1, 10914, 0, 54473, 27]⟩,
  ⟨["cuneiform", "xsux"], Ranges.ofTable [73728, 921, 103, 110, 2, 4, 12, 195], []⟩,
  ⟨["cypriot", "cprt"], Ranges.ofTable [67584, 5, 3, 0, 2, 43, 2, 1, 4, 0, 3, 0],
    Ranges.ofTable [65792, 2, 5, 44, 4, 8]⟩,
  ⟨["cyprominoan", "cpmn"], Ranges.ofTable [77712, 98], Ranges.ofTable [65792, 1]⟩,
  ⟨["cyrillic", "cyrl"], Ranges.ofTable [
    1024, 132, 3, 168, 5969, 10, 161, 0, 77, 0, 4200, 31, 30785, 95, 22415, 1, 57857, 61, 34, 0],
    Ranges.ofTable [700, 0, 68, 2, 2, 0, 2, 0, 2, 0, 3, 0, 6, 0, 372, 1, 6514, 0, 4171, 0]⟩,
  ⟨["deseret", "dsrt"], Ranges.ofTable [66560, 79], []⟩,
  ⟨["devanagari", "deva"], Ranges.ofTable [2304, 80, 5, 14, 3, 25, 40801, 31, 29185, 9],
    Ranges.ofTable [700, 0, 1685, 1, 18, 1, 4971, 38, 2, 1, 1015, 0, 34624, 9]⟩,
  ⟨["divesakuru", "diak"], Ranges.ofTable [71936, 6, 3, 0, 3, 7, 2, 1, 2, 29, 2, 1, 3, 11, 10, 9],
    []⟩,
  ⟨["dogra", "dogr"], Ranges.ofTable [71680, 59], Ranges.ofTable [2404, 11, 40641, 9]⟩,
  ⟨["duployan", "dupl"], Ranges.ofTable [113664, 106, 6, 12, 4, 8, 8, 9, 3, 3],
    Ranges.ofTable [183, 0, 592, 1, 2, 0, 25, 1, 11032, 0, 101988, 3]⟩,
  ⟨["egyptianhieroglyphs", "egyp"], Ranges.ofTable [77824, 1109, 11, 3994], []⟩,
  ⟨["elbasan", "elba"], Ranges.ofTable [66816, 39], Ranges.ofTable [183, 0, 590, 0]⟩,
  ⟨["elymaic", "elym"], Ranges.ofTable [69600, 22], []⟩,
  ⟨["ethiopic", "ethi"], Ranges.ofTable [
    4608, 72, 2, 3, 3, 6, 2, 0, 2, 3, 3, 40, 2, 3, 3, 32, 2, 3, 3, 6, 2, 0, 2, 3, 3, 14, 2, 56, 2,
    3, 3, 66, 3, 31, 4, 25, 6631, 22, 10, 6, 2, 6, 2, 6, 2, 6, 2, 6, 2, 6, 2, 6, 2, 6, 32035, 5, 3,
    5, 3, 5, 10, 6, 2, 6, 81074, 6, 2, 3, 2, 1, 2, 14], Ranges.ofTable [782, 0]⟩,
  ⟨["garay", "gara"], Ranges.ofTable [68928, 37, 4, 28, 9, 1],
    Ranges.ofTable [1548, 0, 15, 0, 4, 0]⟩,
  ⟨["georgian", "geor"], Ranges.ofTable [
    4256, 37, 2, 0, 6, 0, 3, 42, 2, 3, 2961, 42, 3, 2, 4161, 37, 2, 0, 6, 0],
    Ranges.ofTable [183, 0, 1234, 0, 2930, 0, 3935, 0, 3543, 0]⟩,
  ⟨["glagolitic", "glag"], Ranges.ofTable [11264, 95, 111521, 6, 2, 16, 3, 6, 2, 1, 2, 4],
    Ranges.ofTable [
      183, 0, 588, 0, 2, 0, 383, 0, 3, 0, 258, 0, 2930, 0, 3935, 0, 3561, 0, 30764, 0]⟩,
  ⟨["gothic", "goth"], Ranges.ofTable [66352, 26], Ranges.ofTable [183, 0, 589, 1, 3, 0, 41, 0]⟩,
  ⟨["grantha", "gran"], Ranges.ofTable [
    70400, 3, 2, 7, 3, 1, 3, 21, 2, 6, 2, 1, 2, 4, 3, 8, 3, 1, 3, 2, 3, 0, 7, 0, 6, 6, 3, 6, 4, 4],
    Ranges.ofTable [
      2385, 1, 18, 1, 641, 13, 4317, 0, 2, 1, 31, 2, 4, 1, 1015, 0, 62027, 0, 3221, 1, 2, 0]⟩,
  ⟨["greek", "grek"], Ranges.ofTable [
    880, 3, 2, 2, 3, 3, 2, 0, 5, 0, 2, 0, 2, 2, 2, 0, 2, 19, 2, 62, 15, 15, 6439, 4, 51, 4, 5, 4,
    85, 0, 321, 21, 3, 5, 3, 37, 3, 5, 3, 7, 2, 0, 2, 0, 2, 0, 2, 30, 3, 52, 2, 14, 2, 13, 3, 5, 2,
    18, 3, 2, 2, 8, 296, 0, 35391, 0, 21979, 78, 18, 0, 53344, 69],
    Ranges.ofTable [183, 0, 585, 1, 3, 0, 2, 0, 2, 0, 11, 0, 47, 0, 3, 0, 47, 0, 6732, 1, 668, 0]⟩,
  ⟨["gujarati", "gujr"], Ranges.ofTable [
    2689, 2, 2, 8, 2, 2, 2, 21, 2, 6, 2, 1, 2, 4, 3, 9, 2, 2, 2, 2, 3, 0, 16, 3, 3, 11, 8, 6],
    Ranges.ofTable [2385, 1, 18, 1, 40651, 9]⟩,
  ⟨["gunjalagondi", "gong"], Ranges.ofTable [73056, 5, 2, 1, 2, 36, 2, 1, 2, 5, 8, 9],
    Ranges.ofTable [183, 0, 2221, 1]⟩,
  ⟨["gurmukhi", "guru"], Ranges.ofTable [
    2561, 2, 2, 5, 5, 1, 3, 21, 2, 6, 2, 1, 2, 1, 2, 1, 3, 0, 2, 4, 5, 1, 3, 2, 4, 0, 8, 3, 2, 0,
    8, 16], Ranges.ofTable [2385, 1, 18, 1, 40651, 9]⟩,
  ⟨["gurungkhema", "gukh"], Ranges.ofTable [90368, 57], Ranges.ofTable [2405, 0]⟩,
  ⟨["han", "hani"], Ranges.ofTable [
    11904, 25, 2, 88, 13, 213, 48, 0, 2, 0, 26, 8, 15, 3, 965, 6591, 65, 20991, 22785, 365, 3, 105,
    29961, 1, 13, 1, 36879, 42719, 33, 4153, 7, 221, 3, 5761, 15, 7472, 16, 621, 2467, 541, 1507,
    4938, 6, 4191],
    Ranges.ofTable [
      183, 0, 12089, 15, 2, 2, 3, 0, 2, 9, 2, 12, 11, 3, 3, 0, 7, 0, 5, 3, 188, 0, 149, 15, 33, 37,
      10, 0, 49, 39, 57, 48, 16, 11, 52, 0, 89, 24, 11, 4, 97, 30, 29442, 7, 22334, 1, 283, 4,
      54267, 17, 7903, 1]⟩,
  ⟨["hangul", "hang"], Ranges.ofTable [
    4352, 255, 7727, 1, 258, 93, 114, 30, 66, 30, 30434, 28, 644, 11171, 13, 22, 5, 48, 10149, 30,
    4, 5, 3, 5, 3, 5, 3, 2],
    Ranges.ofTable [12289, 2, 5, 9, 2, 12, 17, 0, 7, 0, 196, 0, 52554, 1, 283, 4]⟩,
  ⟨["hanifirohingya", "rohg"], Ranges.ofTable [68864, 39, 9, 9],
    Ranges.ofTable [1548, 0, 15, 0, 4, 0, 33, 0, 148, 0]⟩,
  ⟨["hanunoo", "hano"], Ranges.ofTable [5920, 20], Ranges.ofTable [5941, 1]⟩,
  ⟨["hatran", "hatr"], Ranges.ofTable [67808, 18, 2, 1, 6, 4], []⟩,
  ⟨["hebrew", "hebr"], hebrewRanges, Ranges.ofTable [775, 1]⟩,
  ⟨["hiragana", "hira"], hiraganaRanges,
    Ranges.ofTable [
      12289, 2, 5, 9, 2, 12, 17, 5, 2, 0, 5, 1, 92, 3, 4, 0, 91, 1, 52553, 1, 283, 4, 11, 0, 46,
      1]⟩,
  ⟨["imperialaramaic", "armi"], Ranges.ofTable [67648, 21, 2, 8], []⟩,
  ⟨["inscriptionalpahlavi", "phli"], Ranges.ofTable [68448, 18, 6, 7], []⟩,
  ⟨["inscriptionalparthian", "prti"], Ranges.ofTable [68416, 21, 3, 7], []⟩,
  ⟨["javanese", "java"], Ranges.ofTable [43392, 77, 3, 9, 5, 1], Ranges.ofTable [43471, 0]⟩,
  ⟨["kaithi", "kthi"], Ranges.ofTable [69760, 66, 11, 0],
    Ranges.ofTable [2406, 9, 9410, 0, 31231, 9]⟩,
  ⟨["kannada", "knda"], Ranges.ofTable [
    3200, 12, 2, 2, 2, 22, 2, 9, 2, 4, 3, 8, 2, 2, 2, 3, 8, 1, 7, 1, 2, 3, 3, 9, 2, 2],
    Ranges.ofTable [2385, 1, 18, 1, 4971, 0, 2, 1, 7, 0, 24, 0, 2, 0, 35644, 5]⟩,
  ⟨["katakana", "kana"], katakanaRanges,
    Ranges.ofTable [
      773, 0, 30, 0, 11486, 2, 5, 9, 2, 12, 17, 5, 2, 0, 5, 1, 92, 3, 4, 0, 91, 1, 52553, 1, 283,
      4, 11, 0, 46, 1]⟩,
  ⟨["kawi"], Ranges.ofTable [73472, 16, 2, 40, 4, 28], []⟩,
  ⟨["kayahli", "kali"], Ranges.ofTable [43264, 45, 2, 0], Ranges.ofTable [43310, 0]⟩,
  ⟨["kharoshthi", "khar"], Ranges.ofTable [68096, 3, 2, 1, 6, 7, 2, 2, 2, 28, 3, 2, 5, 9, 8, 8],
    []⟩,
  ⟨["khitansmallscript", "kits"], Ranges.ofTable [94180, 0, 6940, 469, 42, 0], []⟩,
  ⟨["khmer", "khmr"], Ranges.ofTable [6016, 93, 3, 9, 7, 9, 487, 31], []⟩,
  ⟨["khojki", "khoj"], Ranges.ofTable [70144, 17, 2, 46], Ranges.ofTable [2790, 9, 40257, 9]⟩,
  ⟨["khudawadi", "sind"], Ranges.ofTable [70320, 58, 6, 9], Ranges.ofTable [2404, 1, 40651, 9]⟩,
  ⟨["kiratrai", "krai"], Ranges.ofTable [93504, 57], []⟩,
  ⟨["lao", "laoo"], Ranges.ofTable [
    3713, 1, 2, 0, 2, 4, 2, 23, 2, 0, 2, 22, 3, 4, 2, 0, 2, 6, 2, 9, 3, 3], []⟩,
  ⟨["latin", "latn"], Ranges.ofTable [
    65, 25, 7, 25, 48, 0, 16, 0, 6, 22, 2, 30, 2, 448, 40, 4, 6684, 37, 7, 48, 6, 3, 6, 12, 2, 69,
    66, 255, 370, 0, 14, 0, 17, 12, 142, 1, 7, 0, 28, 0, 18, 40, 2776, 31, 31395, 101, 4, 66, 3, 1,
    2, 0, 2, 7, 22, 13, 817, 42, 2, 8, 2, 3, 20375, 6, 1051, 25, 7, 25, 2086, 5, 2, 41, 2, 8,
    55110, 30, 7, 5],
    Ranges.ofTable [
      183, 0, 517, 0, 11, 0, 2, 2, 2, 0, 10, 0, 2, 0, 39, 14, 2, 1, 2, 0, 13, 0, 3, 2, 8, 1, 2, 1,
      39, 0, 6, 0, 5, 12, 278, 1, 1227, 1, 1961, 0, 3325, 0, 567, 0, 193, 0, 3367, 0, 30953, 7,
      551, 0]⟩,
  ⟨["lepcha", "lepc"], Ranges.ofTable [7168, 55, 4, 14, 4, 2], []⟩,
  ⟨["limbu", "limb"], Ranges.ofTable [6400, 30, 2, 11, 5, 11, 5, 0, 4, 11],
    Ranges.ofTable [2405, 0]⟩,
  ⟨["lineara", "lina"], Ranges.ofTable [67072, 310, 10, 21, 11, 7], Ranges.ofTable [65799, 44]⟩,
  ⟨["linearb", "linb"], Ranges.ofTable [65536, 11, 2, 25, 2, 18, 2, 1, 2, 14, 3, 13, 35, 122],
    Ranges.ofTable [65792, 2, 5, 44, 4, 8]⟩,
  ⟨["lisu"], Ranges.ofTable [42192, 47, 31409, 0], Ranges.ofTable [700, 0, 17, 0, 11581, 1]⟩,
  ⟨["lycian", "lyci"], Ranges.ofTable [66176, 28], Ranges.ofTable [8282, 0]⟩,
  ⟨["lydian", "lydi"], Ranges.ofTable [67872, 25, 6, 0], Ranges.ofTable [183, 0, 11642, 0]⟩,
  ⟨["mahajani", "mahj"], Ranges.ofTable [69968, 38], Ranges.ofTable [183, 0, 2221, 11, 40641, 9]⟩,
  ⟨["makasar", "maka"], Ranges.ofTable [73440, 24], []⟩,
  ⟨["malayalam", "mlym"], Ranges.ofTable [3328, 12, 2, 2, 2, 50, 2, 2, 2, 5, 5, 15, 3, 25],
    Ranges.ofTable [2385, 1, 18, 1, 4981, 0, 24, 0, 35646, 2]⟩,
  ⟨["mandaic", "mand"], Ranges.ofTable [2112, 27, 3, 0], Ranges.ofTable [1600, 0]⟩,
  ⟨["manichaean", "mani"], Ranges.ofTable [68288, 38, 5, 11], Ranges.ofTable [1600, 0]⟩,
  ⟨["marchen", "marc"], Ranges.ofTable [72816, 31, 3, 21, 2, 13], []⟩,
  ⟨["masaramgondi", "gonm"], Ranges.ofTable [72960, 6, 2, 1, 2, 43, 4, 0, 2, 1, 2, 8, 9, 9],
    Ranges.ofTable [2404, 1]⟩,
  ⟨["medefaidrin", "medf"], Ranges.ofTable [93760, 90], []⟩,
  ⟨["meeteimayek", "mtei"], Ranges.ofTable [43744, 22, 202, 45, 3, 9], []⟩,
  ⟨["mendekikakui", "mend"], Ranges.ofTable [124928, 196, 3, 15], []⟩,
  ⟨["meroiticcursive", "merc"], Ranges.ofTable [68000, 23, 5, 19, 3, 45], []⟩,
  ⟨["meroitichieroglyphs", "mero"], Ranges.ofTable [67968, 31], Ranges.ofTable [8285, 0]⟩,
  ⟨["miao", "plrd"], Ranges.ofTable [93952, 74, 5, 56, 8, 16], []⟩,
  ⟨["modi"], Ranges.ofTable [71168, 68, 12, 9], Ranges.ofTable [43056, 9]⟩,
  ⟨["mongolian", "mong"], Ranges.ofTable [6144, 1, 3, 0, 2, 19, 7, 88, 8, 42, 64950, 12],
    Ranges.ofTable [6146, 1, 2, 0, 2090, 0, 4050, 1, 6, 3]⟩,
  ⟨["mro", "mroo"], Ranges.ofTable [92736, 30, 2, 9, 5, 1], []⟩,
  ⟨["multani", "mult"], Ranges.ofTable [70272, 6, 2, 0, 2, 3, 2, 14, 2, 10],
    Ranges.ofTable [2662, 9]⟩,
  ⟨["myanmar", "mymr"], Ranges.ofTable [4096, 159, 39233, 30, 98, 31, 27729, 19],
    Ranges.ofTable [43310, 0]⟩,
  ⟨["nabataean", "nbat"], Ranges.ofTable [67712, 30, 9, 8], []⟩,
  ⟨["nagmundari", "nagm"], Ranges.ofTable [124112, 41], []⟩,
  ⟨["nandinagari", "nand"], Ranges.ofTable [72096, 7, 3, 45, 3, 10],
    Ranges.ofTable [2404, 1, 897, 9, 4090, 0, 9, 0, 8, 0, 35638, 5]⟩,
  ⟨["newtailue", "talu"], Ranges.ofTable [6528, 43, 5, 25, 7, 10, 4, 1], []⟩,
  ⟨["newa"], Ranges.ofTable [70656, 91, 2, 4], []⟩,
  ⟨["nko", "nkoo"], Ranges.ofTable [1984, 58, 3, 2],
    Ranges.ofTable [1548, 0, 15, 0, 4, 0, 63263, 1]⟩,
  ⟨["nushu", "nshu"], Ranges.ofTable [94177, 0, 16783, 395], []⟩,
  ⟨["nyiakengpuachuehmong", "hmnp"], Ranges.ofTable [123136, 44, 4, 13, 3, 9, 5, 1], []⟩,
  ⟨["ogham", "ogam"], Ranges.ofTable [5760, 28], []⟩,
  ⟨["olchiki", "olck"], Ranges.ofTable [7248, 47], []⟩,
  ⟨["olonal", "onao"], Ranges.ofTable [124368, 42, 5, 0], Ranges.ofTable [2404, 1]⟩,
  ⟨["oldhungarian", "hung"], Ranges.ofTable [68736, 50, 14, 50, 8, 5],
    Ranges.ofTable [8282, 0, 3, 0, 3540, 0, 16, 0]⟩,
  ⟨["olditalic", "ital"], Ranges.ofTable [66304, 35, 10, 2], []⟩,
  ⟨["oldnortharabian", "narb"], Ranges.ofTable [68224, 31], []⟩,
  ⟨["oldpermic", "perm"], Ranges.ofTable [66384, 42],
    Ranges.ofTable [183, 0, 585, 0, 6, 2, 11, 0, 368, 0]⟩,
  ⟨["oldpersian", "xpeo"], Ranges.ofTable [66464, 35, 5, 13], []⟩,
  ⟨["oldsogdian", "sogo"], Ranges.ofTable [69376, 39], []⟩,
  ⟨["oldsoutharabian", "sarb"], Ranges.ofTable [68192, 31], []⟩,
  ⟨["oldturkic", "orkh"], Ranges.ofTable [68608, 72], Ranges.ofTable [8282, 0, 3542, 0]⟩,
  ⟨["olduyghur", "ougr"], Ranges.ofTable [69488, 25], Ranges.ofTable [1600, 0, 66738, 0]⟩,
  ⟨["oriya", "orya"], Ranges.ofTable [
    2817, 2, 2, 7, 3, 1, 3, 21, 2, 6, 2, 1, 2, 4, 3, 8, 3, 1, 3, 2, 8, 2, 5, 1, 2, 4, 3, 17],
    Ranges.ofTable [2385, 1, 18, 1, 4981, 0, 24, 0]⟩,
  ⟨["osage", "osge"], Ranges.ofTable [66736, 35, 5, 35],
    Ranges.ofTable [769, 0, 3, 0, 7, 0, 77, 0]⟩,
  ⟨["osmanya", "osma"], Ranges.ofTable [66688, 29, 3, 9], []⟩,
  ⟨["pahawhhmong", "hmng"], Ranges.ofTable [92928, 69, 11, 9, 2, 6, 2, 20, 6, 18], []⟩,
  ⟨["palmyrene", "palm"], Ranges.ofTable [67680, 31], []⟩,
  ⟨["paucinhau", "pauc"], Ranges.ofTable [72384, 56], []⟩,
  ⟨["phagspa", "phag"], Ranges.ofTable [43072, 55],
    Ranges.ofTable [6146, 1, 2, 0, 2090, 0, 4051, 0]⟩,
  ⟨["phoenician", "phnx"], Ranges.ofTable [67840, 27, 4, 0], []⟩,
  ⟨["psalterpahlavi", "phlp"], Ranges.ofTable [68480, 17, 8, 3, 13, 6], Ranges.ofTable [1600, 0]⟩,
  ⟨["rejang", "rjng"], Ranges.ofTable [43312, 35, 12, 0], []⟩,
  ⟨["runic", "runr"], Ranges.ofTable [5792, 74, 4, 10], Ranges.ofTable [5867, 2]⟩,
  ⟨["samaritan", "samr"], Ranges.ofTable [2048, 45, 3, 14], Ranges.ofTable [11825, 0]⟩,
  ⟨["saurashtra", "saur"], Ranges.ofTable [43136, 69, 9, 11], []⟩,
  ⟨["sharada", "shrd"], Ranges.ofTable [70016, 95],
    Ranges.ofTable [2385, 0, 4998, 0, 2, 0, 3, 1, 3, 0, 35664, 5, 3, 0]⟩,
  ⟨["shavian", "shaw"], Ranges.ofTable [66640, 47], Ranges.ofTable [183, 0]⟩,
  ⟨["siddham", "sidd"], Ranges.ofTable [71040, 53, 3, 37], []⟩,
  ⟨["signwriting", "sgnw"], Ranges.ofTable [120832, 651, 16, 4, 2, 14], []⟩,
  ⟨["sinhala", "sinh"], Ranges.ofTable [
    3457, 2, 2, 17, 4, 23, 2, 8, 2, 0, 3, 6, 4, 0, 5, 5, 2, 0, 2, 7, 7, 9, 3, 2, 66541, 19],
    Ranges.ofTable [2404, 1, 5005, 0]⟩,
  ⟨["sogdian", "sogd"], Ranges.ofTable [69424, 41], Ranges.ofTable [1600, 0]⟩,
  ⟨["sorasompeng", "sora"], Ranges.ofTable [69840, 24, 8, 9], []⟩,
  ⟨["soyombo", "soyo"], Ranges.ofTable [72272, 82], []⟩,
  ⟨["sundanese", "sund"], Ranges.ofTable [7040, 63, 257, 7], []⟩,
  ⟨["sunuwar", "sunu"], Ranges.ofTable [72640, 33, 15, 9],
    Ranges.ofTable [768, 1, 2, 0, 10, 0, 3, 0, 29, 0, 4, 0]⟩,
  ⟨["sylotinagri", "sylo"], Ranges.ofTable [43008, 44], Ranges.ofTable [2404, 1, 129, 9]⟩,
  ⟨["syriac", "syrc"], Ranges.ofTable [1792, 13, 2, 59, 3, 2, 273, 10],
    Ranges.ofTable [
      771, 1, 3, 1, 2, 0, 22, 0, 3, 2, 8, 1, 2, 0, 732, 0, 15, 1, 3, 0, 33, 0, 11, 10, 27, 0, 6024,
      0, 2, 0]⟩,
  ⟨["tagalog", "tglg"], Ranges.ofTable [5888, 21, 10, 0], Ranges.ofTable [5941, 1]⟩,
  ⟨["tagbanwa", "tagb"], Ranges.ofTable [5984, 12, 2, 2, 2, 1], Ranges.ofTable [5941, 1]⟩,
  ⟨["taile", "tale"], Ranges.ofTable [6480, 29, 3, 4],
    Ranges.ofTable [768, 1, 6, 1, 4, 0, 3380, 9]⟩,
  ⟨["taitham", "lana"], Ranges.ofTable [6688, 62, 2, 28, 3, 10, 7, 9, 7, 13], []⟩,
  ⟨["taiviet", "tavt"], Ranges.ofTable [43648, 66, 25, 4], []⟩,
  ⟨["takri", "takr"], Ranges.ofTable [71296, 57, 7, 9], Ranges.ofTable [2404, 1, 40651, 9]⟩,
  ⟨["tamil", "taml"], Ranges.ofTable [
    2946, 1, 2, 5, 4, 2, 2, 3, 4, 1, 2, 0, 2, 1, 4, 1, 4, 2, 4, 11, 5, 4, 4, 2, 2, 3, 3, 0, 7, 0,
    15, 20, 70598, 49, 14, 0],
    Ranges.ofTable [2385, 1, 18, 1, 4981, 0, 35865, 0, 27150, 0, 2, 0, 56, 1]⟩,
  ⟨["tangsa", "tnsa"], Ranges.ofTable [92784, 78, 2, 9], []⟩,
  ⟨["tangut", "tang"], Ranges.ofTable [94176, 0, 32, 6135, 9, 767, 513, 8],
    Ranges.ofTable [12272, 15, 496, 0]⟩,
  ⟨["telugu", "telu"], Ranges.ofTable [
    3072, 12, 2, 2, 2, 22, 2, 15, 3, 8, 2, 2, 2, 3, 8, 1, 2, 2, 3, 0, 3, 3, 3, 9, 8, 8],
    Ranges.ofTable [2385, 1, 18, 1, 4981, 0, 24, 0]⟩,
  ⟨["thaana", "thaa"], Ranges.ofTable [1920, 49],
    Ranges.ofTable [1548, 0, 15, 1, 3, 0, 65, 9, 63369, 0, 11, 0]⟩,
  ⟨["thai"], Ranges.ofTable [3585, 57, 6, 27], Ranges.ofTable [700, 0, 27, 0, 44, 0, 46, 0]⟩,
  ⟨["tibetan", "tibt"], Ranges.ofTable [3840, 71, 2, 35, 5, 38, 2, 35, 2, 14, 2, 6, 5, 1],
    Ranges.ofTable [12296, 3]⟩,
  ⟨["tifinagh", "tfng"], Ranges.ofTable [11568, 55, 8, 1, 15, 0],
    Ranges.ofTable [770, 0, 2, 0, 3, 0, 2, 0]⟩,
  ⟨["tirhuta", "tirh"], Ranges.ofTable [70784, 71, 9, 9],
    Ranges.ofTable [2385, 1, 18, 1, 5005, 0, 35646, 9]⟩,
  ⟨["todhri", "todr"], Ranges.ofTable [67008, 51],
    Ranges.ofTable [769, 0, 3, 0, 3, 0, 10, 0, 2, 0, 75, 0]⟩,
  ⟨["toto"], Ranges.ofTable [123536, 30], Ranges.ofTable [700, 0]⟩,
  ⟨["tulutigalari", "tutg"], Ranges.ofTable [
    70528, 9, 2, 0, 3, 0, 2, 37, 2, 9, 2, 0, 3, 0, 2, 3, 2, 9, 2, 1, 9, 1],
    Ranges.ofTable [3302, 9, 4099, 0, 2, 0, 35644, 5, 188, 0]⟩,
  ⟨["ugaritic", "ugar"], Ranges.ofTable [66432, 29, 2, 0], []⟩,
  ⟨["vai", "vaii"], Ranges.ofTable [42240, 299], []⟩,
  ⟨["vithkuqi", "vith"], Ranges.ofTable [66928, 10, 2, 14, 2, 6, 2, 1, 2, 10, 2, 14, 2, 6, 2, 1],
    []⟩,
  ⟨["wancho", "wcho"], Ranges.ofTable [123584, 57, 6, 0], []⟩,
  ⟨["warangciti", "wara"], Ranges.ofTable [71840, 82, 13, 0], []⟩,
  ⟨["yezidi", "yezi"], Ranges.ofTable [69248, 41, 2, 2, 3, 1],
    Ranges.ofTable [1548, 0, 15, 0, 4, 0, 65, 9]⟩,
  ⟨["yi", "yiii"], Ranges.ofTable [40960, 1164, 4, 54],
    Ranges.ofTable [12289, 1, 6, 9, 3, 7, 224, 0, 52838, 4]⟩,
  ⟨["zanabazarsquare", "zanb"], Ranges.ofTable [72192, 71], []⟩]

/-- What stands for a script where a character is used with many. -/
def generalScripts : List NamedRanges := [
  ⟨["common", "zyyy"], Ranges.ofTable [
    0, 64, 27, 5, 27, 46, 2, 14, 2, 4, 24, 0, 32, 0, 450, 38, 6, 4, 3, 19, 117, 0, 10, 0, 7, 0, 2,
    0, 638, 0, 7, 0, 15, 0, 4, 0, 33, 0, 157, 0, 517, 0, 130, 1, 1242, 0, 406, 3, 291, 0, 1520, 2,
    72, 1, 204, 1, 2, 0, 1230, 0, 14, 0, 8, 3, 2, 5, 2, 2, 3, 0, 774, 11, 3, 86, 2, 10, 4, 10, 2,
    14, 18, 32, 64, 37, 2, 2, 3, 5, 2, 26, 2, 16, 42, 2, 5, 665, 23, 10, 22, 927, 257, 627, 3, 31,
    2, 104, 513, 93, 403, 20, 2, 0, 2, 24, 16, 7, 5, 3, 92, 1, 4, 0, 91, 1, 148, 15, 33, 37, 10, 0,
    49, 63, 32, 80, 48, 0, 89, 167, 6593, 63, 22785, 33, 103, 2, 166, 9, 245, 0, 161, 0, 396, 0, 15,
    1, 20947, 1, 209, 9, 23, 34, 2, 18, 2, 3, 148, 0, 2, 31, 27, 5, 27, 10, 11, 0, 46, 1, 65, 6, 2,
    6, 11, 4, 259, 2, 5, 44, 4, 8, 81, 12, 52, 44, 229, 26, 47525, 3, 3933, 249, 7, 435, 157, 115,
    61, 245, 11, 38, 3, 61, 4, 16, 9, 1, 8, 29, 5, 60, 214, 19, 13, 19, 13, 86, 10, 24, 136, 84, 2,
    70, 2, 1, 3, 0, 3, 1, 3, 3, 2, 11, 2, 0, 2, 6, 2, 64, 2, 3, 3, 7, 2, 6, 2, 27, 2, 3, 2, 4, 2, 0,
    4, 6, 2, 339, 3, 291, 3, 49, 5234, 67, 77, 60, 707, 43, 5, 99, 13, 14, 3, 14, 2, 14, 2, 36, 11,
    173, 57, 25, 2, 1, 14, 43, 5, 8, 8, 1, 15, 5, 155, 983, 5, 16, 4, 12, 4, 118, 5, 94, 7, 11, 5,
    0, 16, 11, 5, 55, 9, 9, 7, 39, 9, 29, 3, 11, 5, 1, 63, 339, 13, 13, 3, 12, 4, 9, 6, 55, 8, 14,
    3, 10, 7, 8, 8, 146, 2, 101, 787464, 0, 31, 95]⟩,
  ⟨["inherited", "qaai", "zinh"], Ranges.ofTable [
    768, 111, 278, 1, 453, 10, 27, 0, 737, 3, 4444, 30, 514, 2, 2, 12, 2, 6, 5, 0, 7, 0, 4, 1, 199,
    63, 525, 1, 195, 32, 3898, 3, 108, 1, 52582, 15, 17, 13, 976, 0, 227, 0, 4187, 0, 48069, 45, 3,
    22, 545, 2, 18, 7, 3, 6, 31, 3, 798547, 239]⟩]

/-- The characters that scripts share. -/
def sharedRanges : Ranges := Ranges.join (scripts.map (·.shared))

/-- The script of a name. -/
def Script.find? (name : String) : Option Script :=
  scripts.find? fun s => s.names.contains name

/-- The characters of the script of a name. -/
def script? (name : String) : Option Ranges :=
  ((Script.find? name).map (·.ranges)).or (NamedRanges.find? generalScripts name)

/-- The characters used with the script of a name. -/
def scriptExtension? (name : String) : Option Ranges :=
  ((Script.find? name).map fun s => Ranges.join [s.ranges, s.shared]).or <|
    (NamedRanges.find? generalScripts name).map (Ranges.without · sharedRanges)

end Text

end ObjectEngine
