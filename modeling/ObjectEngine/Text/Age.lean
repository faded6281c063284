import ObjectEngine.Text.Ranges

/-!
# Ages

The edition of the Unicode standard that assigned a code point. A pattern that asks for an age
means all that was assigned by then, so `Text.age?` joins an edition with those before it.
-/

namespace ObjectEngine

namespace Text

/-- The editions in order, each with the code points that it assigned. -/
def editions : List NamedRanges := [
  ⟨["1.1", "v11"], Ranges.ofTable [
    0, 501, 5, 29, 57, 88, 8, 46, 2, 9, 23, 69, 27, 1, 19, 1, 5, 0, 4, 0, 6, 6, 2, 0, 2, 19, 2, 43,
    2, 6, 4, 0, 2, 0, 2, 0, 2, 0, 2, 17, 14, 11, 2, 65, 2, 11, 2, 40, 10, 52, 3, 1, 3, 1, 4, 27, 3,
    7, 3, 1, 56, 37, 3, 6, 2, 38, 2, 0, 39, 9, 2, 8, 13, 26, 6, 4, 24, 0, 15, 0, 4, 0, 2, 25, 6, 18,
    14, 13, 3, 71, 3, 4, 2, 14, 2, 29, 3, 9, 520, 2, 2, 52, 3, 17, 3, 4, 4, 24, 17, 2, 2, 7, 3, 1,
    3, 21, 2, 6, 2, 0, 4, 3, 3, 0, 2, 6, 3, 1, 3, 2, 10, 0, 5, 1, 2, 4, 3, 20, 8, 0, 3, 5, 5, 1, 3,
    21, 2, 6, 2, 1, 2, 1, 2, 1, 3, 0, 2, 4, 5, 1, 3, 2, 12, 3, 2, 0, 8, 14, 13, 2, 2, 6, 2, 0, 2, 2,
    2, 21, 2, 6, 2, 1, 2, 4, 3, 9, 2, 2, 2, 2, 3, 0, 16, 0, 6, 9, 18, 2, 2, 7, 3, 1, 3, 21, 2, 6, 2,
    1, 3, 3, 3, 7, 4, 1, 3, 2, 9, 1, 5, 1, 2, 2, 5, 10, 18, 1, 2, 5, 4, 2, 2, 3, 4, 1, 2, 0, 2, 1,
    4, 1, 4, 2, 4, 7, 2, 2, 5, 4, 4, 2, 2, 3, 10, 0, 16, 11, 15, 2, 2, 7, 2, 2, 2, 22, 2, 9, 2, 4,
    5, 6, 2, 2, 2, 3, 8, 1, 10, 1, 5, 9, 19, 1, 2, 7, 2, 2, 2, 22, 2, 9, 2, 4, 5, 6, 2, 2, 2, 3, 8,
    1, 8, 0, 2, 1, 5, 9, 19, 1, 2, 7, 2, 2, 2, 22, 2, 15, 5, 5, 3, 2, 2, 3, 10, 0, 9, 1, 5, 9, 146,
    57, 5, 28, 38, 1, 2, 0, 3, 1, 2, 0, 3, 0, 7, 3, 2, 6, 2, 2, 2, 0, 2, 0, 3, 1, 2, 12, 2, 2, 3, 4,
    2, 0, 2, 5, 3, 9, 3, 1, 451, 37, 11, 38, 5, 0, 5, 89, 6, 67, 6, 81, 3079, 154, 6, 89, 7, 21, 3,
    5, 3, 37, 3, 5, 3, 7, 2, 0, 2, 0, 2, 0, 2, 30, 3, 52, 2, 14, 2, 13, 3, 5, 2, 18, 3, 2, 2, 8, 2,
    46, 2, 22, 36, 6, 4, 26, 18, 10, 38, 17, 31, 56, 27, 47, 14, 90, 22, 241, 15, 0, 2, 120, 134,
    36, 28, 10, 22, 138, 22, 149, 11, 79, 17, 19, 7, 85, 146, 3, 2, 3, 3, 27, 2, 34, 2, 0, 2, 3, 4,
    0, 2, 6, 3, 6, 15, 30, 4, 23, 2, 13, 2114, 55, 8, 0, 2, 83, 5, 5, 3, 93, 7, 39, 5, 93, 2, 15,
    97, 28, 4, 35, 29, 27, 4, 49, 16, 11, 5, 46, 2, 118, 5, 98, 3, 30, 6658, 20901, 16475, 6701,
    211, 6, 13, 4, 7, 24, 2, 4, 2, 0, 2, 1, 2, 1, 2, 107, 34, 364, 17, 63, 3, 53, 41, 11, 37, 3, 13,
    20, 5, 9, 2, 18, 2, 3, 5, 2, 2, 0, 2, 134, 3, 0, 2, 93, 3, 93, 4, 5, 3, 5, 3, 5, 3, 2, 4, 6, 2,
    6, 15, 2]⟩,
  ⟨["2.0", "v20"], Ranges.ofTable [
    1425, 16, 2, 12, 21, 0, 2364, 71, 2, 32, 8, 26, 5, 5, 2, 0, 2, 20, 4, 6, 2, 0, 3810, 0, 528, 0,
    35669, 11171, 75867, 1, 65535, 1, 65535, 1, 65535, 1, 65535, 1, 65535, 1, 65535, 1, 65535, 1,
    65535, 1, 65535, 1, 65535, 1, 65535, 1, 65535, 1, 65535, 131073]⟩,
  ⟨["2.1", "v21"], Ranges.ofTable [8364, 0, 57168, 0]⟩,
  ⟨["3.0", "v30"], Ranges.ofTable [
    502, 3, 31, 7, 3, 17, 118, 4, 50, 0, 11, 4, 88, 8, 20, 0, 117, 0, 4, 0, 2, 0, 2, 0, 2, 0, 31, 0,
    13, 0, 67, 0, 13, 0, 43, 1, 3, 3, 93, 1, 157, 0, 201, 2, 99, 1, 6, 0, 16, 0, 43, 4, 2, 13, 2,
    29, 4, 26, 54, 48, 1490, 1, 2, 17, 4, 23, 2, 8, 2, 0, 3, 6, 4, 0, 5, 5, 2, 0, 2, 7, 19, 2, 374,
    0, 44, 0, 24, 2, 8, 0, 2, 2, 2, 14, 3, 0, 49, 33, 2, 4, 2, 1, 2, 6, 4, 3, 7, 25, 423, 6, 2, 62,
    2, 0, 2, 3, 3, 6, 2, 0, 2, 3, 3, 38, 2, 0, 2, 3, 3, 30, 2, 0, 2, 3, 3, 6, 2, 0, 2, 3, 3, 6, 2,
    6, 2, 22, 2, 30, 2, 0, 2, 3, 3, 6, 2, 38, 2, 18, 7, 27, 36, 84, 13, 629, 10, 28, 4, 80, 144, 92,
    4, 9, 23, 14, 2, 9, 7, 87, 9, 41, 1926, 0, 25, 5, 96, 2, 51, 1, 86, 1, 73, 0, 104, 8, 270, 0,
    122, 0, 2, 29, 139, 1, 458, 7, 34, 0, 87, 1, 399, 255, 1409, 25, 2, 88, 13, 213, 27, 11, 61, 2,
    4, 0, 354, 23, 585, 6581, 21067, 1164, 4, 17, 3, 15, 2, 11, 2, 2, 2, 0, 22103, 0, 1244, 2]⟩,
  ⟨["3.1", "v31"], Ranges.ofTable [
    1012, 1, 63963, 31, 1297, 30, 2, 3, 13, 26, 182, 37, 3, 37, 52147, 245, 11, 38, 4, 179, 547, 84,
    2, 70, 2, 1, 3, 0, 3, 1, 3, 3, 2, 11, 2, 0, 2, 3, 2, 1, 2, 64, 2, 3, 3, 7, 2, 6, 2, 27, 2, 3, 2,
    4, 2, 0, 4, 6, 2, 337, 5, 289, 5, 49, 10241, 42710, 20778, 541, 722404, 0, 31, 95]⟩,
  ⟨["3.2", "v32"], Ranges.ofTable [
    544, 0, 303, 0, 20, 12, 105, 1, 29, 0, 148, 1, 58, 1, 3, 1, 3, 1, 50, 15, 351, 1, 322, 0, 2374,
    1, 1544, 12, 2, 6, 12, 22, 10, 19, 13, 12, 2, 2, 2, 1, 2260, 0, 7, 4, 5, 0, 8, 4, 14, 0, 63, 1,
    51, 6, 83, 14, 169, 11, 243, 13, 125, 0, 31, 51, 285, 19, 152, 9, 89, 7, 23, 1, 91, 11, 3, 9,
    223, 13, 91, 27, 5, 15, 257, 511, 1340, 2, 88, 1, 9, 1, 95, 0, 241, 15, 82, 14, 82, 14, 29155,
    1, 17, 0, 13, 0, 4, 0, 21867, 58, 914, 0, 4, 15, 54, 1, 45, 0, 236, 1]⟩,
  ⟨["4.0", "v40"], Ranges.ofTable [
    545, 0, 19, 2, 120, 1, 64, 16, 81, 7, 6, 2, 152, 4, 517, 3, 10, 8, 65, 2, 150, 1, 16, 0, 46, 2,
    30, 2, 437, 0, 185, 0, 68, 0, 2, 0, 137, 0, 85, 2, 14, 0, 68, 0, 60, 0, 130, 7, 194, 1, 2848, 0,
    19, 9, 263, 28, 4, 11, 5, 11, 5, 0, 4, 41, 3, 4, 108, 31, 769, 107, 744, 1, 231, 0, 660, 1, 303,
    0, 277, 1, 117, 7, 15, 1, 1119, 13, 1808, 1, 50, 0, 44, 1, 79, 3, 168, 3, 100, 1, 32, 0, 6593,
    63, 45054, 0, 74, 1, 440, 11, 2, 25, 2, 18, 2, 1, 2, 14, 3, 13, 35, 122, 6, 2, 5, 44, 4, 8, 577,
    29, 2, 0, 135, 1, 39, 79, 3, 9, 855, 5, 3, 0, 2, 43, 2, 1, 4, 0, 3, 0, 51905, 86, 363, 0,
    797759, 239]⟩,
  ⟨["4.1", "v41"], Ranges.ofTable [
    567, 10, 279, 4, 160, 3, 247, 1, 171, 0, 35, 2, 68, 0, 19, 0, 59, 5, 242, 29, 528, 0, 81, 0,
    488, 0, 48, 0, 1002, 1, 296, 1, 2, 0, 267, 0, 64, 0, 64, 0, 40, 0, 32, 0, 32, 0, 32, 0, 16, 0,
    40, 0, 24, 1, 32, 25, 1511, 41, 7, 25, 7, 9, 5, 1, 33, 27, 3, 1, 845, 87, 658, 1, 2, 6, 50, 4,
    30, 3, 54, 0, 81, 0, 16, 0, 645, 10, 573, 0, 102, 1, 19, 10, 6, 15, 271, 6, 840, 5, 237, 46, 2,
    46, 34, 106, 15, 44, 11, 53, 10, 0, 17, 22, 10, 6, 2, 6, 2, 6, 2, 6, 2, 6, 2, 6, 2, 6, 2, 6, 34,
    23, 5, 1, 931, 15, 175, 0, 27944, 21, 1861, 22, 234, 43, 21061, 105, 823, 9, 807, 74, 534, 35,
    5, 13, 1579, 3, 2, 1, 6, 7, 2, 2, 2, 26, 5, 2, 5, 8, 9, 8, 51112, 69, 1119, 1]⟩,
  ⟨["5.0", "v50"], Ranges.ofTable [
    578, 13, 300, 2, 338, 0, 43, 5, 17, 3, 167, 0, 518, 58, 385, 1, 2, 1, 867, 1, 14, 1, 3598, 75,
    5, 44, 584, 6, 52, 1, 749, 3, 94, 1, 54, 0, 600, 11, 715, 0, 277, 3, 842, 6, 6, 3, 317, 12, 8,
    3, 31392, 3, 6, 1, 287, 55, 24713, 25, 6, 0, 5857, 878, 146, 98, 14, 3, 44781, 17, 1113, 1]⟩,
  ⟨["5.1", "v51"], Ranges.ofTable [
    880, 3, 3, 1, 88, 0, 184, 0, 141, 15, 227, 4, 12, 4, 33, 4, 303, 17, 498, 1, 223, 0, 36, 0, 207,
    0, 30, 1, 109, 0, 109, 0, 27, 1, 9, 1, 21, 7, 190, 0, 7, 0, 30, 1, 13, 5, 4, 6, 492, 1, 98, 0,
    4, 2, 78, 0, 6, 0, 3, 0, 8, 2, 5, 5, 27, 63, 5, 1, 2059, 0, 726, 42, 4, 11, 71, 55, 4, 14, 4,
    50, 332, 27, 182, 3, 91, 5, 357, 0, 140, 0, 95, 0, 54, 3, 1301, 0, 22, 9, 4, 3, 265, 0, 32, 3,
    812, 4, 5, 40, 4, 4, 281, 2, 2, 2, 5, 5, 355, 31, 25, 3, 3, 18, 765, 0, 163, 19, 28121, 7, 1341,
    299, 21, 31, 3, 17, 9, 27, 132, 4, 3, 106, 111, 4, 129, 68, 10, 11, 39, 83, 12, 0, 161, 54, 10,
    13, 3, 9, 3, 3, 21445, 2, 874, 11, 53, 45, 131, 28, 4, 48, 1616, 25, 6, 0, 51178, 0, 7895, 43,
    5, 99]⟩,
  ⟨["5.2", "v52"], Ranges.ofTable [
    1316, 1, 731, 45, 3, 14, 194, 0, 78, 0, 7, 0, 36, 1, 129, 0, 1498, 3, 194, 3, 189, 4, 69, 4, 83,
    5, 513, 0, 631, 8, 561, 69, 181, 1, 47, 0, 70, 62, 2, 28, 3, 10, 7, 9, 7, 13, 547, 34, 267, 0,
    697, 2, 152, 2, 55, 0, 607, 0, 694, 1, 30, 2, 5, 9, 2, 18, 2, 0, 5, 23, 88, 0, 1022, 4, 279, 0,
    14, 1, 108, 6, 320, 0, 1043, 11, 28021, 7, 1285, 47, 417, 87, 313, 9, 167, 27, 101, 28, 4, 77,
    2, 10, 5, 1, 129, 27, 5, 66, 25, 4, 225, 45, 3, 9, 11191, 22, 5, 48, 8816, 2, 3539, 21, 2, 8,
    187, 1, 325, 31, 129, 53, 4, 28, 3, 26, 6, 7, 129, 72, 536, 30, 514, 65, 7999, 1070, 48338, 10,
    6, 30, 3, 0, 12, 0, 2, 0, 3, 0, 4, 0, 4, 4, 9, 0, 8, 0, 26, 0, 2, 1, 3, 0, 11, 3, 3, 0, 112, 0,
    16, 33, 15, 8, 46264, 4148]⟩,
  ⟨["6.0", "v60"], Ranges.ofTable [
    1318, 1, 249, 0, 63, 0, 481, 27, 3, 0, 220, 1, 20, 0, 7, 1, 28, 4, 507, 5, 434, 0, 17, 0, 20, 0,
    574, 3, 74, 1, 899, 1, 2146, 51, 9, 3, 509, 0, 665, 7, 29, 0, 816, 10, 731, 0, 20, 0, 2, 3, 30,
    0, 5, 1, 29, 0, 36, 0, 2, 0, 5, 2, 10, 1, 53, 2, 25, 0, 15, 0, 15, 1, 1441, 0, 15, 0, 1081, 2,
    29862, 1, 300, 1, 2, 1, 15, 9, 81, 0, 775, 5, 3, 5, 3, 5, 10, 6, 2, 6, 20612, 15, 5183, 77, 5,
    29, 22417, 568, 17864, 1, 16543, 14, 3, 13, 3, 14, 2, 14, 81, 0, 2, 10, 2, 0, 2, 1, 2, 2, 2, 2,
    6, 7, 2, 6, 2, 9, 7, 8, 2, 0, 3, 1, 2, 9, 5, 1, 2, 9, 76, 25, 2, 1, 48, 8, 22, 1, 175, 32, 16,
    5, 2, 69, 4, 19, 13, 36, 2, 4, 22, 16, 16, 62, 2, 0, 2, 181, 2, 3, 4, 61, 19, 23, 148, 4, 2, 15,
    2, 2, 2, 0, 2, 0, 2, 0, 2, 2, 2, 5, 3, 3, 2, 0, 3, 3, 2, 11, 5, 10, 49, 69, 59, 115, 49101,
    221]⟩,
  ⟨["6.1", "v61"], Ranges.ofTable [
    1423, 0, 117, 0, 668, 0, 2, 10, 56, 26, 498, 0, 1006, 1, 488, 0, 6, 0, 48, 2, 2732, 2, 13, 5,
    257, 7, 44, 3, 2773, 0, 2, 0, 1317, 1, 52, 0, 6, 0, 57, 1, 203, 9, 29073, 0, 1704, 7, 36, 0,
    243, 1, 23, 0, 78, 1, 743, 22, 20280, 1, 3921, 55, 7, 1, 1809, 24, 8, 9, 7, 52, 2, 13, 61, 72,
    8, 9, 1191, 55, 9, 9, 22583, 68, 12, 46, 17, 16, 32353, 3, 2, 26, 2, 1, 2, 0, 3, 0, 2, 9, 2, 3,
    2, 0, 2, 0, 7, 0, 5, 0, 2, 0, 2, 0, 2, 2, 2, 1, 2, 0, 3, 0, 2, 0, 2, 0, 2, 0, 2, 0, 2, 1, 2, 0,
    3, 3, 2, 6, 2, 3, 2, 3, 2, 0, 2, 9, 2, 16, 6, 2, 2, 4, 2, 16, 53, 1, 633, 1, 981, 3, 189, 0, 17,
    0, 4, 0, 2, 0, 2, 0, 2, 0, 4, 0, 7, 1, 5, 0, 2, 1, 5, 0]⟩,
  ⟨["6.2", "v62"], Ranges.ofTable [8378, 0]⟩,
  ⟨["6.3", "v63"], Ranges.ofTable [1564, 0, 6730, 3]⟩,
  ⟨["7.0", "v70"], Ranges.ofTable [
    895, 0, 425, 7, 94, 1, 119, 0, 668, 0, 12, 5, 77, 0, 121, 0, 8, 0, 640, 0, 52, 0, 77, 0, 128, 0,
    229, 9, 2306, 7, 549, 1, 402, 14, 570, 1, 238, 14, 710, 2, 823, 6, 774, 0, 1101, 2, 11, 25, 3,
    31, 3, 33, 4, 11, 2, 7, 619, 6, 30806, 5, 247, 11, 12, 2, 3, 1, 70, 0, 489, 30, 126, 3, 177, 47,
    5, 1, 21186, 6, 862, 1, 20, 0, 320, 27, 36, 0, 49, 42, 390, 39, 9, 51, 12, 0, 145, 310, 10, 21,
    11, 7, 249, 62, 9, 8, 465, 31, 33, 38, 5, 11, 138, 17, 8, 3, 13, 6, 1232, 0, 209, 38, 87, 0, 13,
    0, 7, 19, 12, 17, 2, 42, 115, 58, 6, 9, 8, 2, 2, 7, 3, 1, 3, 21, 2, 6, 2, 1, 2, 4, 3, 8, 3, 1,
    3, 2, 10, 0, 6, 6, 3, 6, 4, 4, 268, 71, 9, 9, 167, 53, 3, 17, 55, 68, 12, 9, 583, 82, 13, 0,
    449, 56, 2167, 41, 203, 11, 6, 0, 17868, 30, 2, 9, 5, 1, 97, 29, 3, 5, 11, 69, 11, 9, 2, 6, 2,
    20, 6, 18, 20593, 106, 6, 12, 4, 8, 8, 9, 3, 7, 11101, 196, 3, 15, 2025, 0, 33, 21, 22, 1, 533,
    11, 10, 0, 71, 0, 23, 11, 38, 0, 6, 3, 6, 11, 18, 6, 72, 0, 2, 0, 183, 0, 5, 1, 64, 1, 5, 6, 30,
    17, 2, 40, 2, 85, 71, 1, 14, 47, 71, 9, 17, 12, 4, 3, 141, 84, 44, 11, 5, 55, 9, 9, 7, 39, 9,
    29]⟩,
  ⟨["8.0", "v80"], Ranges.ofTable [
    2227, 1, 47, 0, 534, 0, 353, 0, 261, 0, 1686, 0, 3, 5, 3265, 0, 204, 1, 2657, 3, 29662, 8, 1737,
    0, 241, 0, 35, 5, 325, 1, 611, 3, 13, 79, 21103, 1, 2737, 18, 2, 1, 6, 4, 189, 1, 3, 15, 3, 45,
    641, 50, 14, 50, 8, 5, 1226, 3, 15, 4, 161, 6, 2, 0, 2, 3, 2, 14, 2, 10, 87, 0, 80, 0, 634, 19,
    291, 25, 4, 14, 5, 15, 3162, 0, 231, 195, 7869, 582, 35736, 10, 1560, 651, 16, 4, 2, 14, 6270,
    2, 79, 1, 80, 4, 37, 7, 256, 0, 76, 4, 244, 1, 140, 0, 576, 8, 104, 4, 60, 0, 48736, 5761]⟩,
  ⟨["9.0", "v90"], Ranges.ofTable [
    2230, 7, 23, 14, 926, 0, 207, 0, 5, 2, 2, 6, 24, 2, 3848, 8, 371, 0, 1536, 3, 2629, 1, 31082, 0,
    279, 0, 22728, 1, 802, 35, 5, 35, 3395, 0, 450, 89, 2, 0, 2, 0, 515, 12, 1428, 8, 2, 44, 2, 13,
    11, 28, 4, 31, 3, 21, 2, 13, 21290, 0, 32, 6124, 20, 754, 21774, 6, 2, 16, 3, 6, 2, 1, 2, 4,
    2262, 74, 6, 9, 5, 1, 2108, 17, 143, 0, 831, 0, 42, 0, 301, 1, 34, 2, 547, 5, 2, 7, 9, 0, 3, 11,
    2, 11, 5, 14, 39, 12]⟩,
  ⟨["10.0", "v100"], Ranges.ofTable [
    2144, 10, 402, 1, 253, 5, 513, 0, 59, 1, 4027, 0, 255, 3, 710, 0, 832, 0, 2003, 0, 627, 4, 741,
    0, 28328, 20, 25411, 2, 5841, 71, 9, 51, 3, 22, 2, 4, 606, 6, 2, 1, 2, 43, 4, 0, 2, 1, 2, 8, 9,
    9, 21128, 0, 16417, 284, 82, 395, 16229, 5, 1134, 1, 35, 1, 520, 11, 20, 0, 9, 7, 2, 1, 26, 0,
    19, 12, 39, 5, 57, 22, 54474, 7472]⟩,
  ⟨["11.0", "v110"], Ranges.ofTable [
    1376, 0, 40, 0, 103, 0, 526, 2, 212, 0, 299, 0, 120, 0, 398, 0, 128, 0, 3060, 0, 1048, 42, 3, 2,
    3835, 2, 23, 24, 5, 14, 588, 4, 737, 0, 28348, 4, 1984, 0, 9, 1, 325, 1, 24885, 1, 19, 0, 696,
    39, 9, 9, 455, 39, 9, 41, 372, 0, 119, 2, 501, 0, 291, 0, 700, 0, 230, 59, 610, 0, 707, 5, 2, 1,
    2, 36, 2, 1, 2, 5, 8, 9, 311, 24, 20296, 90, 6483, 4, 19183, 19, 127, 6, 6393, 67, 1147, 0,
    1482, 0, 220, 3, 373, 2, 29, 4, 3, 3, 4, 0, 2, 3, 25, 10, 14, 9, 8, 1, 37, 24, 97, 13]⟩,
  ⟨["12.0", "v120"], Ranges.ofTable [
    3191, 0, 527, 0, 3, 0, 3, 0, 2, 5, 5, 0, 8, 0, 8, 1, 3, 0, 14, 0, 3648, 0, 3791, 0, 54, 0, 592,
    0, 31083, 5, 3, 4, 928, 1, 25721, 22, 1129, 0, 601, 0, 744, 7, 3, 45, 3, 10, 160, 1, 1339, 49,
    14, 0, 5169, 8, 15117, 5, 5, 0, 48, 8, 91, 1, 6159, 5, 10585, 2, 18, 3, 12185, 44, 4, 13, 3, 9,
    5, 1, 369, 57, 6, 0, 1612, 0, 950, 60, 1071, 0, 1385, 0, 37, 0, 230, 11, 290, 2, 48, 0, 50, 0,
    10, 0, 42, 5, 4, 1, 11, 5, 4, 7, 3, 2, 49, 83, 29, 3, 5, 2, 6, 2, 14, 5]⟩,
  ⟨["12.1", "v121"], Ranges.ofTable [13055, 0]⟩,
  ⟨["13.0", "v130"], Ranges.ofTable [
    2238, 9, 654, 0, 431, 0, 125, 0, 3390, 1, 4311, 0, 697, 2, 873, 4, 7159, 9, 21041, 12, 1995, 3,
    43, 1, 54, 0, 828, 3, 22065, 0, 3300, 41, 2, 2, 3, 1, 255, 27, 380, 0, 135, 1, 651, 0, 6, 1,
    1183, 6, 3, 0, 3, 7, 2, 1, 2, 29, 2, 1, 3, 11, 10, 9, 1623, 0, 20532, 0, 12, 1, 6914, 482, 43,
    8, 25605, 2, 94, 2, 62, 0, 1321, 1, 36, 1, 436, 1, 91, 0, 102, 0, 5, 1, 43, 1, 7, 2, 30, 0, 169,
    0, 15, 3, 16, 18, 8, 6, 10, 2, 14, 6, 42, 146, 2, 54, 38, 9, 43742, 6, 22819, 4938]⟩,
  ⟨["14.0", "v140"], Ranges.ofTable [
    1565, 0, 595, 30, 2, 1, 7, 7, 22, 0, 19, 10, 874, 0, 33, 0, 128, 0, 2608, 0, 8, 0, 10, 0, 240,
    0, 690, 13, 126, 0, 49, 1, 636, 0, 710, 0, 2927, 0, 48, 0, 500, 10, 29088, 2, 1985, 1, 15, 1, 2,
    0, 2, 4, 25, 2, 21454, 0, 382, 15, 128, 0, 47, 1, 1905, 10, 2, 14, 2, 6, 2, 1, 2, 10, 2, 14, 2,
    6, 2, 1, 452, 5, 2, 41, 2, 8, 1974, 25, 231, 5, 77, 0, 1527, 0, 135, 6, 874, 15, 5329, 98,
    14974, 78, 2, 9, 17703, 3, 2, 6, 2, 1, 289, 3, 7646, 45, 3, 22, 10, 115, 550, 1, 3350, 30, 882,
    30, 1330, 6, 2, 3, 2, 1, 2, 14, 3807, 2, 273, 0, 393, 0, 83, 0, 175, 1, 45, 3, 11, 3, 9, 2, 18,
    2, 7, 7, 9, 6, 44008, 1, 4182, 3]⟩,
  ⟨["15.0", "v150"], Ranges.ofTable [
    3315, 0, 475, 0, 65583, 2, 832, 2, 2239, 9, 1015, 16, 2, 40, 4, 27, 5334, 0, 10, 28, 31965, 0,
    35, 0, 8555, 19, 3154, 5, 262, 61, 34, 0, 1089, 41, 4579, 0, 152, 2, 5, 4, 90, 0, 668, 2, 16, 1,
    37, 2, 12, 2, 2, 0, 15, 1, 11, 1, 13, 0, 15, 1, 48193, 0, 23575, 4191]⟩,
  ⟨["15.1", "v151"], Ranges.ofTable [12284, 3, 496, 0, 178689, 621]⟩,
  ⟨["16.0", "v160"], Ranges.ofTable [
    2199, 0, 4791, 1, 48, 0, 266, 1, 1949, 2, 3515, 1, 30182, 2, 13, 2, 24036, 51, 1869, 37, 4, 28,
    9, 1, 307, 2, 56, 0, 1156, 9, 2, 0, 3, 0, 2, 37, 2, 9, 2, 0, 3, 0, 2, 3, 2, 9, 2, 1, 9, 1, 750,
    19, 1245, 33, 15, 9, 865, 0, 5382, 3994, 7430, 57, 3079, 57, 8070, 0, 16129, 249, 7, 435, 5917,
    42, 5, 0, 4787, 9, 5, 1, 456, 0, 6, 0, 47, 0, 8, 0, 22, 0, 3, 0, 10, 0, 226, 36]⟩]

/-- The code points of `before` and of the editions up to the one of a name. -/
def assignedBy? (name : String) (before : Ranges) : List NamedRanges → Option Ranges
  | [] => none
  | edition :: later =>
    let assigned := Ranges.join [before, edition.ranges]
    if edition.names.contains name then some assigned else assignedBy? name assigned later

/-- The code points assigned by the edition of a name or before. -/
def age? (name : String) : Option Ranges := assignedBy? name [] editions

end Text

end ObjectEngine
