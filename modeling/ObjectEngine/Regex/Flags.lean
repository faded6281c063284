import ObjectEngine.Regex.Node

/-!
# Flags

What the flags of an expression change: whether case counts, where lines begin and end, what
a point reads, whether blanks stand for themselves, and whether the named sets go beyond
ASCII. Within a pattern flags are switched on and off by letters (`Flags.set?`); around a
pattern only the first four have letters (`Flags.ofLetters`).
-/

namespace ObjectEngine

namespace Regex

/-- The flags in force at a point of a pattern. -/
structure Flags where
  ignoreCase : Bool := false
  /-- Whether `^` and `$` mean lines instead of the text. -/
  multiLine : Bool := false
  dotMatchesNewline : Bool := false
  /-- Whether blanks and comments of a pattern are passed over. -/
  ignoreBlanks : Bool := false
  /-- Whether sets hold ASCII characters only. -/
  asciiOnly : Bool := false
  /-- Whether a carriage return ends a line as well. -/
  returnEndsLine : Bool := false
  /-- Whether repetitions are lazy unless a question mark follows. -/
  lazyFirst : Bool := false
  deriving DecidableEq, Inhabited

namespace Flags

/-- The letters of the flags that are given around a pattern. -/
def letters : List Char := ['i', 'm', 's', 'x']

/-- The flags that the letters of a text set; other letters set none. -/
def ofLetters (text : String) : Flags :=
  let has (c : Char) : Bool := text.toList.contains c
  { ignoreCase := has 'i', multiLine := has 'm', dotMatchesNewline := has 's',
    ignoreBlanks := has 'x' }

/-- The flags once the flag of a letter is switched. -/
def set? (flags : Flags) (letter : Char) (on : Bool) : Option Flags :=
  match letter with
  | 'i' => some { flags with ignoreCase := on }
  | 'm' => some { flags with multiLine := on }
  | 's' => some { flags with dotMatchesNewline := on }
  | 'x' => some { flags with ignoreBlanks := on }
  | 'u' => some { flags with asciiOnly := !on }
  | 'R' => some { flags with returnEndsLine := on }
  | 'U' => some { flags with lazyFirst := on }
  | _ => none

/-! ### What the parts of a pattern mean under flags -/

/-- A set with the other cases of its characters, where case does not count. -/
def caseless (flags : Flags) (set : CharSet) : CharSet :=
  if flags.ignoreCase then
    if flags.asciiOnly then set.asciiCaseClosure else set.caseClosure
  else set

/-- A set or what it leaves out. Nothing is left out where sets hold ASCII characters only,
since the rest would go beyond. -/
def negatedIf (flags : Flags) (negated : Bool) (set : CharSet) : Option CharSet :=
  if !negated then some set
  else if flags.asciiOnly then none
  else some set.complement

/-- What a point reads; none where sets hold ASCII characters only. -/
def dot? (flags : Flags) : Option CharSet :=
  if flags.asciiOnly then none
  else if flags.dotMatchesNewline then some CharSet.nothing.complement
  else if flags.returnEndsLine then
    some (CharSet.union [.single '\n', .single '\r']).complement
  else some (CharSet.single '\n').complement

/-- The condition `^`. -/
def start (flags : Flags) : Look :=
  if flags.multiLine then
    if flags.returnEndsLine then .returnLineStart else .lineStart
  else .textStart

/-- The condition `$`. -/
def finish (flags : Flags) : Look :=
  if flags.multiLine then
    if flags.returnEndsLine then .returnLineEnd else .lineEnd
  else .textEnd

/-- A condition on the edge of a word. -/
def wordEdge (flags : Flags) (edge : WordEdge) : Look :=
  .word edge (if flags.asciiOnly then .asciiWord else .word)

/-- The set of the letter of a class: digits, blanks or characters of words, and with a capital
letter all others. -/
def class? (flags : Flags) (letter : Char) : Option CharSet := do
  let set ← match letter.toLower with
    | 'd' => some (.ofRanges (if flags.asciiOnly then [(48, 57)] else Text.decimalNumberRanges))
    | 's' => some (.ofRanges (if flags.asciiOnly then [(9, 13), (32, 32)] else Text.blankRanges))
    | 'w' => some (if flags.asciiOnly then CharSet.asciiWord else CharSet.word)
    | _ => none
  flags.negatedIf letter.isUpper set

end Flags

end Regex

end ObjectEngine
