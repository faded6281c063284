import ObjectEngine.Regex.Flags
import ObjectEngine.Regex.Form.Room

/-!
# Pieces of a pattern

What has been read of a pattern: the expression it means, the form its room is measured by and
how deeply it is nested. The limits on the two refuse patterns that are too large
(`Piece.isSmall`).
-/

namespace ObjectEngine

namespace Regex

/-- A piece of a pattern that has been read. -/
structure Piece where
  node : Node
  form : Form
  depth : Nat := 0
  /-- Whether a repetition may follow it; a switch of flags has none. -/
  repeatable : Bool := true
  deriving Inhabited

namespace Piece

/-- What reads nothing. -/
def empty : Piece := { node := .empty, form := .empty }

/-- A condition on a place. -/
def ofLook (look : Look) : Piece := { node := .look look, form := .look look }

/-- One character of a set. -/
def ofSet (set : CharSet) (depth : Nat) : Piece :=
  { node := .chars set, form := .ofSet set, depth := depth }

/-- One character. -/
def literal (flags : Flags) (c : Char) : Piece := ofSet (flags.caseless (.single c)) 0

/-- A switch of flags. -/
def switch : Piece := { empty with repeatable := false }

/-- A group, whose place may be kept. -/
def grouped (kept : Bool) (p : Piece) : Piece :=
  { p with
    form := if kept then .group p.form else p.form
    depth := p.depth + 1
    repeatable := true }

/-- How deeply pieces side by side are nested. -/
def depthOf (pieces : List Piece) : Nat := pieces.foldl (fun n p => max n p.depth) 0 + 1

/-- Pieces one after the other, the last first. -/
def sequenceOf : List Piece → Piece
  | [] => empty
  | [p] => p
  | last :: earlier =>
    { node := earlier.foldl (fun n p => .seq p.node n) last.node
      form := .seqOf ((last :: earlier).reverse.map (·.form))
      depth := depthOf (last :: earlier) }

/-- Alternative pieces. -/
def choiceOf : List Piece → Piece
  | [] => empty
  | [p] => p
  | first :: others =>
    { node := others.foldl (fun n p => .alt n p.node) first.node
      form := .choiceOf ((first :: others).map (·.form))
      depth := depthOf (first :: others) }

/-- A repetition. What reads nothing need not be repeated more than once. -/
def repeated (p : Piece) (min : Nat) (max : Option Nat) (isLazy : Bool) : Piece :=
  let (min, max) :=
    if p.node.widthless then (Nat.min min 1, some (Nat.min (max.getD 1) 1)) else (min, max)
  { node := .repeated p.node min max
    form := .repeatedOf p.form min max isLazy
    depth := p.depth + 1 }

/-- The depth that no pattern may exceed. -/
def depthLimit : Nat := 250

/-- Whether a pattern is within the limits. -/
def isSmall (p : Piece) : Bool := p.depth ≤ depthLimit && p.form.isSmall

end Piece

end Regex

end ObjectEngine
