import ObjectEngine.Regex.Pattern

/-!
# Regular expressions

A pattern is read under flags (`Regex.compile?`), which fails if it is not understood or too
large, and then asked whether it matches somewhere in a text (`Regex.isMatch`).
-/

namespace ObjectEngine

/-- A regular expression. -/
structure Regex where
  node : Regex.Node
  deriving Inhabited

namespace Regex

/-- The regular expression of a pattern. -/
def compile? (flags : Flags) (pattern : String) : Option Regex := do
  let piece ← Pattern.read? flags pattern
  if piece.isSmall then some ⟨piece.node⟩ else none

/-- Whether the expression matches somewhere in a text. -/
def isMatch (r : Regex) (text : String) : Bool := r.node.occursIn text.toList

end Regex

end ObjectEngine
