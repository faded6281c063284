import ObjectEngine.Regex.Node

/-!
# Forms

A pattern reduced to the form whose room is measured. The form of a sequence has no sequences
among its parts, and the characters that stand for themselves are one literal if they are
side by side (`Form.seqOf`). The form of a choice has no choices among its parts; single
characters and sets are one set, and what all parts begin with stands before the choice
(`Form.choiceOf`). A repetition of exactly one time is its body (`Form.repeatedOf`).
-/

namespace ObjectEngine

namespace Regex

/-- A reduced pattern. -/
inductive Form
  | empty
  | literal (text : List Char)
  | set (chars : CharSet)
  | look (condition : Look)
  /-- A group whose place is kept. -/
  | group (body : Form)
  | repeated (body : Form) (min : Nat) (max : Option Nat) (isLazy : Bool)
  | seq (parts : List Form)
  | choice (parts : List Form)
  deriving Inhabited

namespace Form

/-! ### What forms have in common -/

mutual

/-- Whether two forms are the same. Groups are kept apart, so no two of them are. -/
def same : Form → Form → Bool
  | .empty, .empty => true
  | .literal a, .literal b => a = b
  | .set a, .set b => a = b
  | .look a, .look b => a = b
  | .repeated a min max isLazy, .repeated b min' max' isLazy' =>
    same a b && min = min' && max = max' && isLazy = isLazy'
  | .seq a, .seq b => sameAll a b
  | .choice a, .choice b => sameAll a b
  | _, _ => false

/-- Whether forms are the same one by one. -/
def sameAll : List Form → List Form → Bool
  | [], [] => true
  | a :: as, b :: bs => same a b && sameAll as bs
  | _, _ => false

end

/-- How many forms two lists have in common at their starts. -/
def commonLength : List Form → List Form → Nat
  | a :: as, b :: bs => if same a b then commonLength as bs + 1 else 0
  | _, _ => 0

/-! ### Making forms -/

/-- One character of a set. -/
def ofSet (chars : CharSet) : Form :=
  match chars.alone? with
  | some c => .literal [c]
  | none => .set chars

/-- The parts of a form as a sequence. -/
def inSequence : Form → List Form
  | .seq parts => parts
  | .empty => []
  | f => [f]

/-- A part before others, where literals side by side are one. -/
def before : Form → List Form → List Form
  | .literal a, .literal b :: rest => .literal (a ++ b) :: rest
  | f, rest => f :: rest

/-- Forms one after the other. -/
def seqOf (forms : List Form) : Form :=
  match (forms.flatMap inSequence).foldr before [] with
  | [] => .empty
  | [f] => f
  | parts => .seq parts

/-- The parts of a form as a choice. -/
def inChoice : Form → List Form
  | .choice parts => parts
  | f => [f]

/-- The set of a single character. -/
def single? : Form → Option CharSet
  | .literal [c] => some (.single c)
  | _ => none

/-- The set of a form that is no more. -/
def set? : Form → Option CharSet
  | .set chars => some chars
  | _ => none

/-- A choice of parts, which is one set if all are characters or all are sets. -/
def choiceOfParts (parts : List Form) : Form :=
  match parts with
  | [] => .set .nothing
  | [f] => f
  | _ =>
    match (parts.mapM single?).or (parts.mapM set?) with
    | some sets => ofSet (.union sets)
    | none => .choice parts

/-- The parts of a form that is a sequence. -/
def sequence? : Form → Option (List Form)
  | .seq parts => some parts
  | _ => none

/-- What sequences begin with in common. -/
def commonStart : List (List Form) → List Form
  | [] => []
  | first :: others =>
    first.take (others.foldl (fun n other => Nat.min n (commonLength first other)) first.length)

/-- A choice of forms. What its parts have in common at their starts is read before it; what is
left of them begins with nothing in common. -/
def choiceOf (forms : List Form) : Form :=
  let parts := forms.flatMap inChoice
  let sequences := (parts.mapM sequence?).getD []
  let start := commonStart sequences
  if sequences.length < 2 || start.isEmpty then choiceOfParts parts
  else
    let rests := sequences.map fun parts => seqOf (parts.drop start.length)
    seqOf (start ++ [choiceOfParts (rests.flatMap inChoice)])

/-- A repetition of a form. -/
def repeatedOf (body : Form) (min : Nat) (max : Option Nat) (isLazy : Bool) : Form :=
  if max = some 0 then .empty
  else if min = 1 && max = some 1 then body
  else .repeated body min max isLazy

/-! ### How much a form reads -/

mutual

/-- Whether a form reads nothing. -/
def isWidthless : Form → Bool
  | .empty => true
  | .literal _ => false
  | .set _ => false
  | .look _ => true
  | .group body => isWidthless body
  | .repeated body _ _ _ => isWidthless body
  | .seq parts => areWidthless parts
  | .choice parts => areWidthless parts

/-- Whether all forms of a list read nothing. -/
def areWidthless : List Form → Bool
  | [] => true
  | f :: rest => isWidthless f && areWidthless rest

end

mutual

/-- The least number of characters that a form reads, as far as it is known: where a part reads a
set without characters, it is not. -/
def shortest? : Form → Option Nat
  | .empty => some 0
  | .literal text => some text.length
  | .set chars => if chars = .nothing then none else some 1
  | .look _ => some 0
  | .group body => shortest? body
  | .repeated body min _ _ => (shortest? body).map (min * ·)
  | .seq parts => (shortestOfEach parts).map (·.foldl (· + ·) 0)
  | .choice parts => (shortestOfEach parts).bind (·.min?)

/-- The least numbers of the forms of a list. -/
def shortestOfEach : List Form → Option (List Nat)
  | [] => some []
  | f :: rest => do
    let n ← shortest? f
    let ns ← shortestOfEach rest
    return n :: ns

end

/-! ### Where a form begins and ends -/

mutual

/-- Whether a form matches only at the start of the text. -/
def isAtStart : Form → Bool
  | .look condition => condition = .textStart
  | .group body => isAtStart body
  | .repeated body min _ _ => 0 < min && isAtStart body
  | .seq parts => beginAtStart parts
  | .choice parts => areAtStart parts
  | _ => false

/-- Whether forms one after the other match only at the start of the text. -/
def beginAtStart : List Form → Bool
  | [] => false
  | f :: rest => isAtStart f || (isWidthless f && beginAtStart rest)

/-- Whether each form of a list matches only at the start of the text. -/
def areAtStart : List Form → Bool
  | [] => true
  | f :: rest => isAtStart f && areAtStart rest

end

mutual

/-- Whether a form matches only at the end of the text. -/
def isAtEnd : Form → Bool
  | .look condition => condition = .textEnd
  | .group body => isAtEnd body
  | .repeated body min _ _ => 0 < min && isAtEnd body
  | .seq parts => finishAtEnd parts
  | .choice parts => areAtEnd parts
  | _ => false

/-- Whether forms one after the other match only at the end of the text. -/
def finishAtEnd : List Form → Bool
  | [] => false
  | f :: rest => finishAtEnd rest || (isAtEnd f && areWidthless rest)

/-- Whether each form of a list matches only at the end of the text. -/
def areAtEnd : List Form → Bool
  | [] => true
  | f :: rest => isAtEnd f && areAtEnd rest

end

end Form

end Regex

end ObjectEngine
