import ObjectEngine.Regex.Piece
import ObjectEngine.Text.Bytes
import ObjectEngine.Text.Letter
import ObjectEngine.Text.Numeral

/-!
# Reading patterns

The grammar of patterns. A pattern is a choice of sequences (`Pattern.branches`,
`Pattern.sequence`) of groups, sets in brackets, escapes, points, anchors and characters that
stand for themselves, each followed by any number of repetitions. Under the flag
`ignoreBlanks` blanks and comments may stand between the parts, also inside escapes, counts
and brackets. Look-around and back-references are refused.
-/

namespace ObjectEngine

namespace Regex

namespace Pattern

/-! ### The rest of a pattern -/

/-- What is left of a pattern, the flags in force and the names of the groups so far. -/
structure Cursor where
  rest : List Char
  flags : Flags
  names : List (List Char) := []
  deriving Inhabited

/-- A reader of a part of a pattern, which may refuse it. -/
abbrev Reading := StateT Cursor Option

/-- The characters at the start that satisfy `wanted`, and what follows them. If `skips`,
blanks and comments are passed over; `comment` tells whether the start is in a comment. -/
def takeSkipping (skips : Bool) (wanted : Char → Bool) (comment : Bool) :
    List Char → List Char × List Char
  | [] => ([], [])
  | c :: rest =>
    if comment then takeSkipping skips wanted (c != '\n') rest
    else if skips && Text.isBlank c then takeSkipping skips wanted false rest
    else if skips && c = '#' then takeSkipping skips wanted true rest
    else if wanted c then
      let (taken, left) := takeSkipping skips wanted false rest
      (c :: taken, left)
    else ([], c :: rest)

/-- The next character, which stays. -/
def peek : Reading (Option Char) := return (← get).rest.head?

/-- The next character. -/
def next : Reading Char := do
  match (← get).rest with
  | c :: rest =>
    modify ({ · with rest := rest })
    return c
  | [] => failure

/-- The characters at the start that satisfy `wanted`. -/
def takeWhile (wanted : Char → Bool) : Reading (List Char) := do
  let cursor ← get
  let (taken, left) := takeSkipping cursor.flags.ignoreBlanks wanted false cursor.rest
  set { cursor with rest := left }
  return taken

/-- Passes over blanks and comments, where they do not count. -/
def skipBlanks : Reading Unit := discard (takeWhile fun _ => false)

/-- Passes over a character if it is next. -/
def accept (c : Char) : Reading Bool := do
  match (← get).rest with
  | d :: rest =>
    if d = c then
      modify ({ · with rest := rest })
      return true
    else return false
  | [] => return false

/-- Passes over a character, which must be next. -/
def expect (c : Char) : Reading Unit := do
  let found : Bool ← accept c
  if found then return else failure

/-- The value of an option, which must have one. -/
def required {α : Type} : Option α → Reading α
  | some a => return a
  | none => failure

/-! ### Escapes -/

/-- What an escape or a character that is no operator means. -/
inductive Token
  | literal (c : Char)
  | set (set : CharSet)
  | look (look : Look)
  deriving Inhabited

/-- The character of a code point. -/
def char? (n : Nat) : Option Char := if n.isValidChar then some (Char.ofNat n) else none

/-- The number that hexadecimal digits write. -/
def hexValue? (digits : List Char) : Option Nat :=
  digits.foldlM (fun n c => (Hex.value? c).map (n * 16 + ·)) 0

/-- A number of `count` hexadecimal digits, read onto `n`. -/
def hexDigits : Nat → Nat → Reading Nat
  | 0, n => return n
  | count + 1, n => do
    skipBlanks
    let digit ← required (Hex.value? (← next))
    hexDigits count (n * 16 + digit)

/-- A character by its number: in braces, or in as many digits as the letter wants. Where sets
hold ASCII characters only, two digits name a byte, which must be one of them. -/
def codePoint (letter : Char) : Reading Token := do
  skipBlanks
  let braced : Bool ← accept '\x7b'
  if braced then
    let digits ← takeWhile (· != '\x7d')
    expect '\x7d'
    if digits.isEmpty then failure
    return .literal (← required ((hexValue? digits).bind char?))
  else
    let count := match letter with
      | 'x' => 2
      | 'u' => 4
      | _ => 8
    let n ← hexDigits count 0
    if letter = 'x' && (← get).flags.asciiOnly && n > 127 then failure
    return .literal (← required (char? n))

/-- The set of a name in braces: a property alone, or a property and its value after `!=`, `:`
or `=`; and whether the name turns it around. -/
def namedSet? (name : List Char) : Option (CharSet × Bool) :=
  let name := String.ofList name
  match name.splitOn "!=" with
  | property :: value :: more =>
    (CharSet.propertyValue? property ("!=".intercalate (value :: more))).map (·, true)
  | _ =>
    match (Text.splitFirst ':' name).or (Text.splitFirst '=' name) with
    | some (property, value) => (CharSet.propertyValue? property value).map (·, false)
    | none => (CharSet.property? name).map (·, false)

/-- The characters of a property. -/
def propertySet (negated : Bool) : Reading Token := do
  skipBlanks
  let braced : Bool ← accept '\x7b'
  let (set, turned) ←
    if braced then do
      let name ← takeWhile (· != '\x7d')
      expect '\x7d'
      required (namedSet? name)
    else do
      let c ← next
      if c = '\\' then failure
      required ((CharSet.property? c.toString).map (·, false))
  let flags := (← get).flags
  if flags.asciiOnly then failure
  return .set (← required (flags.negatedIf (negated != turned) (flags.caseless set)))

/-- Whether a character may stand in the name of an edge of a word. -/
def isEdgeChar (c : Char) : Bool := c.isAlpha || c = '-'

/-- The edge of a word that a name in braces means. -/
def namedEdge? (name : List Char) : Option WordEdge :=
  match String.ofList name with
  | "start" => some .start
  | "end" => some .finish
  | "start-half" => some .startHalf
  | "end-half" => some .finishHalf
  | _ => none

/-- An edge of a word: the one named in braces, or either. Braces that do not begin with a name
are a count, and stay. -/
def wordEdge : Reading Token := do
  let before ← get
  let braced : Bool ← accept '\x7b'
  if braced then
    skipBlanks
    let c ← required (← peek)
    if isEdgeChar c then
      let name ← takeWhile isEdgeChar
      expect '\x7d'
      return .look (before.flags.wordEdge (← required (namedEdge? name)))
    else
      set before
      return .look (before.flags.wordEdge .boundary)
  else return .look (before.flags.wordEdge .boundary)

/-- An escape, after its backslash. -/
def escape : Reading Token := do
  let c ← next
  let flags := (← get).flags
  if c = 'x' || c = 'u' || c = 'U' then codePoint c
  else if c = 'p' || c = 'P' then propertySet (c = 'P')
  else if ['d', 's', 'w'].contains c.toLower then
    return .set (← required (flags.class? c))
  else match c with
    | 'a' => return .literal '\x07'
    | 'f' => return .literal '\x0c'
    | 't' => return .literal '\t'
    | 'n' => return .literal '\n'
    | 'r' => return .literal '\r'
    | 'v' => return .literal '\x0b'
    | 'A' => return .look .textStart
    | 'z' => return .look .textEnd
    | 'b' => wordEdge
    | 'B' => return .look (flags.wordEdge .noBoundary)
    | '<' => return .look (flags.wordEdge .start)
    | '>' => return .look (flags.wordEdge .finish)
    | _ => if c.toNat < 128 && !c.isAlphanum then return .literal c else failure

/-! ### Sets in brackets -/

/-- A part of a set in brackets, and how deeply it is nested. -/
structure SetPart where
  set : CharSet
  depth : Nat := 0
  deriving Inhabited

/-- An operator between sets. -/
inductive SetOperator
  | inter
  | diff
  | symmDiff
  deriving DecidableEq, Inhabited

namespace SetOperator

/-- The set that an operator makes of two. -/
def apply : SetOperator → CharSet → CharSet → CharSet
  | .inter, a, b => .inter a b
  | .diff, a, b => .diff a b
  | .symmDiff, a, b => .symmDiff a b

end SetOperator

namespace SetPart

/-- Parts side by side, the last first. -/
def unionOf : List SetPart → SetPart
  | [] => { set := .nothing }
  | [p] => p
  | last :: earlier =>
    { set := .union ((last :: earlier).map (·.set)),
      depth := (last :: earlier).foldl (fun n p => max n p.depth) 0 + 1 }

/-- Parts side by side, under the operator that waits for them. -/
def close (flags : Flags) (waiting : Option (SetOperator × SetPart)) (parts : List SetPart) :
    SetPart :=
  let right := unionOf parts
  match waiting with
  | none => right
  | some (op, left) =>
    { set := op.apply (flags.caseless left.set) (flags.caseless right.set),
      depth := max left.depth right.depth + 1 }

end SetPart

/-- A character or an escape in brackets. -/
def setToken : Reading Token := do
  let c ← next
  if c = '\\' then escape else return .literal c

/-- The character that a token in brackets stands for. -/
def setChar (token : Token) : Reading Char := do
  match token with
  | .literal c => if (← get).flags.asciiOnly && c.toNat > 127 then failure else return c
  | _ => failure

/-- The first character after blanks, where they do not count, and after the sign of a comment
if `sign` is still to come. -/
def peekPast (skips sign : Bool) : List Char → Option Char
  | [] => none
  | c :: rest =>
    if skips && Text.isBlank c then peekPast skips sign rest
    else if skips && sign && c = '#' then peekPast skips false rest
    else some c

/-- A token in brackets or a range of characters. A hyphen before the closing bracket or before
another hyphen makes no range. -/
def setRange : Reading SetPart := do
  let first ← setToken
  skipBlanks
  let cursor ← get
  let following := peekPast cursor.flags.ignoreBlanks true (cursor.rest.drop 1)
  if cursor.rest.head? = some '-' && following != some ']' && following != some '-' then
    discard next
    skipBlanks
    let second ← setToken
    let a ← setChar first
    let b ← setChar second
    if a ≤ b then return { set := .range a b } else failure
  else match first with
    | .set set => return { set := set }
    | _ => return { set := .single (← setChar first) }

/-- The name of a class of ASCII characters at the start, whether it is turned around, and what
follows. -/
def asciiClassName? : List Char → Option (List Char × Bool × List Char)
  | '[' :: ':' :: rest =>
    let (negated, rest) := match rest with
      | '^' :: more => (true, more)
      | _ => (false, rest)
    match rest.dropWhile (· != ':') with
    | ':' :: ']' :: after => some (rest.takeWhile (· != ':'), negated, after)
    | _ => none
  | _ => none

/-- A class of ASCII characters, if one is next. -/
def asciiClass : Reading (Option SetPart) := do
  let cursor ← get
  let found := (asciiClassName? cursor.rest).bind fun (name, negated, after) =>
    (CharSet.asciiClass? (String.ofList name)).map (·, negated, after)
  match found with
  | none => return none
  | some (set, negated, after) =>
    modify ({ · with rest := after })
    let set ← required (cursor.flags.negatedIf negated (cursor.flags.caseless set))
    return some { set := set }

mutual

/-- A set in brackets, up to and with the closing one. Hyphens at the start and a closing
bracket as the first character stand for themselves. -/
def bracketed : Nat → Reading SetPart
  | 0 => failure
  | fuel + 1 => do
    expect '['
    skipBlanks
    let negated : Bool ← accept '^'
    let hyphens ← takeWhile (· = '-')
    let closing : Bool ← if hyphens.isEmpty then accept ']' else pure false
    let start := if closing then [']'] else hyphens
    let part ← setParts fuel none (start.map fun c => { set := .single c })
    let flags := (← get).flags
    let set ← required (flags.negatedIf negated (flags.caseless part.set))
    return { set := set, depth := part.depth + 1 }

/-- The rest of a set in brackets, after the parts so far, the last first. -/
def setParts : Nat → Option (SetOperator × SetPart) → List SetPart → Reading SetPart
  | 0, _, _ => failure
  | fuel + 1, waiting, parts => do
    skipBlanks
    let cursor ← get
    let closed := SetPart.close cursor.flags waiting parts
    let continue? (op : SetOperator) (rest : List Char) : Reading SetPart := do
      set { cursor with rest := rest }
      setParts fuel (some (op, closed)) []
    match cursor.rest with
    | ']' :: rest =>
      set { cursor with rest := rest }
      return closed
    | '&' :: '&' :: rest => continue? .inter rest
    | '-' :: '-' :: rest => continue? .diff rest
    | '~' :: '~' :: rest => continue? .symmDiff rest
    | '[' :: _ =>
      match ← asciiClass with
      | some part => setParts fuel waiting (part :: parts)
      | none =>
        let part ← bracketed fuel
        setParts fuel waiting (part :: parts)
    | _ =>
      let part ← setRange
      setParts fuel waiting (part :: parts)

end

/-! ### Repetitions -/

/-- A count. Blanks may always stand around it. -/
def count : Reading Nat := do
  modify fun cursor => { cursor with rest := cursor.rest.dropWhile Text.isBlank }
  let digits ← takeWhile Char.isDigit
  modify fun cursor => { cursor with rest := cursor.rest.dropWhile Text.isBlank }
  skipBlanks
  required (Text.natBelow? UInt32.size digits)

/-- The bounds of a counted repetition, after its opening brace. -/
def bounds : Reading (Nat × Option Nat) := do
  skipBlanks
  let min ← count
  let ranged : Bool ← accept ','
  if ranged then
    skipBlanks
    let c ← peek
    let max ← if c = some '\x7d' then pure none else some <$> count
    expect '\x7d'
    if max.any (· < min) then failure
    return (min, max)
  else
    expect '\x7d'
    return (min, some min)

/-- A repetition of a piece. A question mark after it exchanges greedy and lazy, which match the
same texts. -/
def repetition (p : Piece) : Reading Piece := do
  if !p.repeatable then failure
  let (min, max) ← match ← next with
    | '?' => pure (0, some 1)
    | '*' => pure (0, none)
    | '+' => pure (1, none)
    | _ => do
      let b ← bounds
      skipBlanks
      pure b
  let exchanged : Bool ← accept '?'
  return p.repeated min max (exchanged != (← get).flags.lazyFirst)

/-! ### Groups and sequences -/

/-- Whether a character may stand in the name of a group, first or later. -/
def isNameChar (first : Bool) (c : Char) : Bool :=
  c = '_' || Text.isAlphabetic c ||
    (!first && (c = '.' || c = '[' || c = ']' || Text.isNumeric c))

/-- The name of a group and its closing bracket. No two groups have one name. -/
def groupName : Reading Unit := do
  let cursor ← get
  let name := cursor.rest.takeWhile (· != '>')
  match cursor.rest.dropWhile (· != '>') with
  | _ :: rest =>
    let wellFormed := match name with
      | first :: later => isNameChar true first && later.all (isNameChar false)
      | [] => false
    if wellFormed && !cursor.names.contains name then
      set { cursor with rest := rest, names := name :: cursor.names }
    else failure
  | [] => failure

/-- The flags that letters switch, up to a colon or a closing bracket, which is told, and what
follows. No letter comes twice; those after a hyphen are switched off, and there must be
some. Before a closing bracket there must be a letter. -/
def switches? (flags : Flags) (on : Bool) (seen : List Char) :
    List Char → Option (Flags × Char × List Char)
  | [] => none
  | c :: rest =>
    if c = ':' || c = ')' then
      if seen.head? = some '-' || (c = ')' && seen.isEmpty) then none
      else some (flags, c, rest)
    else if seen.contains c then none
    else if c = '-' then switches? flags false (c :: seen) rest
    else match flags.set? c on with
      | some switched => switches? switched on (c :: seen) rest
      | none => none

/-- A point, an anchor, an escape or a character that stands for itself. -/
def atom : Reading Piece := do
  let c ← next
  let flags := (← get).flags
  match c with
  | '.' => return .ofSet (← required flags.dot?) 0
  | '^' => return .ofLook flags.start
  | '$' => return .ofLook flags.finish
  | '\\' =>
    match ← escape with
    | .literal c => return .literal flags c
    | .set set => return .ofSet set 0
    | .look look => return .ofLook look
  | _ => return .literal flags c

mutual

/-- Sequences with bars between them, up to the end of the group. -/
def branches : Nat → Reading (List Piece)
  | 0 => failure
  | fuel + 1 => do
    let first ← sequence fuel []
    let more : Bool ← accept '|'
    if more then return first :: (← branches fuel) else return [first]

/-- The rest of a sequence, after the pieces so far, the last first. -/
def sequence : Nat → List Piece → Reading Piece
  | 0, _ => failure
  | fuel + 1, pieces => do
    skipBlanks
    match ← peek with
    | none => return .sequenceOf pieces
    | some ')' => return .sequenceOf pieces
    | some '|' => return .sequenceOf pieces
    | some '(' =>
      let p ← group fuel
      sequence fuel (p :: pieces)
    | some '[' =>
      let part ← bracketed fuel
      sequence fuel (.ofSet part.set part.depth :: pieces)
    | some c =>
      if c = '?' || c = '*' || c = '+' || c = '\x7b' then
        match pieces with
        | [] => failure
        | p :: earlier =>
          let q ← repetition p
          sequence fuel (q :: earlier)
      else
        let p ← atom
        sequence fuel (p :: pieces)

/-- A group, or a switch of flags that lasts to the end of the group around it. -/
def group : Nat → Reading Piece
  | 0 => failure
  | fuel + 1 => do
    expect '('
    skipBlanks
    let cursor ← get
    let inside (kept : Bool) : Reading Piece := do
      let pieces ← branches fuel
      expect ')'
      modify ({ · with flags := cursor.flags })
      return (Piece.choiceOf pieces).grouped kept
    match cursor.rest with
    | '?' :: 'P' :: '<' :: rest =>
      set { cursor with rest := rest }
      groupName
      inside true
    | '?' :: '<' :: rest =>
      set { cursor with rest := rest }
      groupName
      inside true
    | '?' :: rest =>
      let (flags, closing, rest) ← required (switches? cursor.flags true [] rest)
      set { cursor with rest := rest, flags := flags }
      if closing = ')' then return .switch else inside false
    | _ => inside true

end

/-- The piece that a whole pattern is. -/
def read? (flags : Flags) (pattern : String) : Option Piece := do
  let start : Cursor := { rest := pattern.toList, flags := flags }
  let (pieces, finish) ← (branches (3 * start.rest.length + 10)).run start
  if finish.rest.isEmpty then some (.choiceOf pieces) else none

end Pattern

end Regex

end ObjectEngine
