import ObjectEngine.Text.CaseFolding
import ObjectEngine.Text.Property

/-!
# Sets of characters

What one step of a regular expression may read. A set is built from ranges by union,
intersection and complement, and by closing it under case: the closure of a set holds a
character as soon as the set holds one that folds alike. `CharSet.mem` says which characters a
set holds.
-/

namespace ObjectEngine

namespace Regex

/-- A set of characters, as ranges in order that do not touch. -/
structure CharSet where
  ranges : Text.Ranges
  deriving DecidableEq, Inhabited

namespace CharSet

/-- Whether a set holds a character. -/
def mem (set : CharSet) (c : Char) : Bool := Text.Ranges.contains set.ranges c.toNat

/-! ### Making sets -/

/-- The characters from one code point to another, if there are any. A range neither starts nor
ends at a surrogate. -/
def between? (r : Nat × Nat) : Option (Nat × Nat) :=
  let first := if 0xD800 ≤ r.1 && r.1 ≤ 0xDFFF then 0xE000 else r.1
  let last := if 0xD800 ≤ r.2 && r.2 ≤ 0xDFFF then 0xD7FF else r.2
  if first ≤ last then some (first, last) else none

/-- The characters of ranges of code points. -/
def ofRanges (ranges : Text.Ranges) : CharSet := ⟨ranges.filterMap between?⟩

/-- No character. -/
def nothing : CharSet := ⟨[]⟩

/-- The characters from one to another. -/
def range (first last : Char) : CharSet := ⟨[(first.toNat, last.toNat)]⟩

/-- One character. -/
def single (c : Char) : CharSet := range c c

/-- The character of a set that holds no other. -/
def alone? (set : CharSet) : Option Char :=
  match set.ranges with
  | [(first, last)] => if first = last then some (Char.ofNat first) else none
  | _ => none

/-- The characters that one of several sets holds. -/
def union (sets : List CharSet) : CharSet := ⟨Text.Ranges.join (sets.map (·.ranges))⟩

/-- The characters that two sets share. -/
def inter (a b : CharSet) : CharSet := ofRanges (Text.Ranges.inter a.ranges b.ranges)

/-- The characters of one set that another does not hold. -/
def diff (a b : CharSet) : CharSet := ofRanges (Text.Ranges.without a.ranges b.ranges)

/-- The characters that one of two sets holds and not the other. -/
def symmDiff (a b : CharSet) : CharSet := union [diff a b, diff b a]

/-- What a set leaves out. Where two of its ranges leave out nothing but the surrogates, the
characters on both sides count as left out as well. -/
def complement (a : CharSet) : CharSet :=
  ⟨Text.Ranges.coalesce ((Text.Ranges.gaps 0 a.ranges).map fun r =>
    (between? r).getD (0xD7FF, 0xE000))⟩

/-- A set with every character that folds as one of its characters does. -/
def caseClosure (a : CharSet) : CharSet := ⟨Text.foldingAlike a.ranges⟩

/-- The folding of the ASCII letters. -/
def asciiFolding : Text.Runs := [⟨65, 90, 1, 32⟩]

/-- A set with the other cases of its ASCII letters. -/
def asciiCaseClosure (a : CharSet) : CharSet :=
  ⟨Text.Ranges.join [a.ranges, asciiFolding.imageOf a.ranges, asciiFolding.sourcesOf a.ranges]⟩

/-! ### Sets with names -/

/-- The characters of words. -/
def word : CharSet := ofRanges Text.wordRanges

/-- The characters of words in ASCII. -/
def asciiWord : CharSet := ⟨[(48, 57), (65, 90), (95, 95), (97, 122)]⟩

/-- The named classes of ASCII characters. -/
def asciiClasses : List (String × Text.Ranges) := [
  ("alnum", [(48, 57), (65, 90), (97, 122)]),
  ("alpha", [(65, 90), (97, 122)]),
  ("ascii", [(0, 127)]),
  ("blank", [(9, 9), (32, 32)]),
  ("cntrl", [(0, 31), (127, 127)]),
  ("digit", [(48, 57)]),
  ("graph", [(33, 126)]),
  ("lower", [(97, 122)]),
  ("print", [(32, 126)]),
  ("punct", [(33, 47), (58, 64), (91, 96), (123, 126)]),
  ("space", [(9, 13), (32, 32)]),
  ("upper", [(65, 90)]),
  ("word", [(48, 57), (65, 90), (95, 95), (97, 122)]),
  ("xdigit", [(48, 57), (65, 70), (97, 102)])]

/-- The class of ASCII characters of a name. -/
def asciiClass? (name : String) : Option CharSet :=
  (asciiClasses.lookup name).map ofRanges

/-- The characters of a property of a name. -/
def property? (name : String) : Option CharSet :=
  (Text.property? name).map ofRanges

/-- The characters whose property of a name has the value of a name. -/
def propertyValue? (property value : String) : Option CharSet :=
  (Text.propertyValue? property value).map ofRanges

end CharSet

end Regex

end ObjectEngine
