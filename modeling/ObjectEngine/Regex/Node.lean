import ObjectEngine.Regex.CharSet

/-!
# Expressions and where they match

The places of a text of `n` characters are numbered from 0 to `n`, and a set of places is a
number whose bits are its members. An expression takes the places where a match may begin to
the places where it may end (`Node.ends`); which of several ends a search would prefer is
left open, since only the existence of a match is asked for.
-/

namespace ObjectEngine

namespace Regex

/-! ### Conditions on a place -/

/-- What a place has to be to a word. -/
inductive WordEdge
  /-- Either a start or an end. -/
  | boundary
  /-- Neither a start nor an end. -/
  | noBoundary
  | start
  | finish
  /-- No character of a word precedes. -/
  | startHalf
  /-- No character of a word follows. -/
  | finishHalf
  deriving DecidableEq, Inhabited

/-- A condition on a place, which reads nothing. -/
inductive Look
  | textStart
  | textEnd
  | lineStart
  | lineEnd
  /-- As `lineStart`, a carriage return and line feed together ending a line as each alone. -/
  | returnLineStart
  | returnLineEnd
  | word (edge : WordEdge) (chars : CharSet)
  deriving DecidableEq, Inhabited

namespace WordEdge

/-- Whether a place is so, from whether the characters before and after it are of words. -/
def holds : WordEdge → Bool → Bool → Bool
  | .boundary, before, after => before != after
  | .noBoundary, before, after => before == after
  | .start, before, after => !before && after
  | .finish, before, after => before && !after
  | .startHalf, before, _ => !before
  | .finishHalf, _, after => !after

end WordEdge

namespace Look

/-- Whether a place is so, from the characters before and after it. -/
def holds (look : Look) (before after : Option Char) : Bool :=
  match look with
  | .textStart => before.isNone
  | .textEnd => after.isNone
  | .lineStart => before.isNone || before = some '\n'
  | .lineEnd => after.isNone || after = some '\n'
  | .returnLineStart =>
    before.isNone || before = some '\n' || (before = some '\r' && after != some '\n')
  | .returnLineEnd =>
    after.isNone || after = some '\r' || (after = some '\n' && before != some '\r')
  | .word edge chars => edge.holds (before.any chars.mem) (after.any chars.mem)

end Look

/-! ### Sets of places -/

namespace Places

/-- The places of a set at which a condition on the characters before and after holds, where
the set is numbered from the place after `before`. -/
def keep (condition : Option Char → Option Char → Bool) (before : Option Char) :
    List Char → Nat → Nat
  | [], places => if places.testBit 0 && condition before none then 1 else 0
  | c :: rest, places =>
    let later := if places / 2 = 0 then 0 else keep condition (some c) rest (places / 2)
    2 * later + if places.testBit 0 && condition before (some c) then 1 else 0

/-- The places after one character of a set. -/
def advance (text : List Char) (chars : CharSet) (places : Nat) : Nat :=
  2 * keep (fun _ after => after.any chars.mem) none text places

/-- Where exactly `n` steps lead. -/
def times (step : Nat → Nat) : Nat → Nat → Nat
  | 0, places => places
  | n + 1, places => if places = 0 then 0 else times step n (step places)

/-- Where at most `n` steps from the places `fresh` lead, together with the places `seen`, which
hold them. -/
def upTo (step : Nat → Nat) : Nat → Nat → Nat → Nat
  | 0, seen, _ => seen
  | n + 1, seen, fresh =>
    if fresh = 0 then seen
    else
      let reached := step fresh
      upTo step n (seen ||| reached) (reached ^^^ (reached &&& seen))

end Places

/-! ### Expressions -/

/-- A regular expression, read apart. -/
inductive Node
  | empty
  | chars (set : CharSet)
  | look (condition : Look)
  | seq (first second : Node)
  | alt (left right : Node)
  /-- At least `min` times, and at most `max` times if there is a bound. -/
  | repeated (body : Node) (min : Nat) (max : Option Nat)
  deriving Inhabited

namespace Node

/-- Where the matches of an expression end that begin at one of the places. -/
def ends (text : List Char) : Node → Nat → Nat
  | .empty, places => places
  | .chars set, places => Places.advance text set places
  | .look condition, places => Places.keep condition.holds none text places
  | .seq a b, places => b.ends text (a.ends text places)
  | .alt a b, places => a.ends text places ||| b.ends text places
  | .repeated body min max, places =>
    let first := Places.times (body.ends text) min places
    let more := match max with
      | some m => m - min
      | none => text.length + 1
    Places.upTo (body.ends text) more first first

/-- Whether every match is empty. -/
def widthless : Node → Bool
  | .empty => true
  | .chars _ => false
  | .look _ => true
  | .seq a b => a.widthless && b.widthless
  | .alt a b => a.widthless && b.widthless
  | .repeated body _ max => body.widthless || max = some 0

/-- Whether an expression matches somewhere in a text. -/
def occursIn (node : Node) (text : List Char) : Bool :=
  node.ends text (1 <<< (text.length + 1) - 1) != 0

end Node

end Regex

end ObjectEngine
