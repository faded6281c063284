/-!
# Splitting texts

Cutting a text at a separator: at every one (`Text.split`), at the first (`Text.splitFirst`)
or at the last (`Text.splitLast`), and taking a fixed text off one end. Each comes in a form
on lists of characters, on which it recurses.
-/

namespace ObjectEngine

namespace Text

/-- The pieces of a text between the occurrences of `sep`, at least one. -/
def splitChars (sep : Char) : List Char → List (List Char)
  | [] => [[]]
  | c :: rest =>
    if c = sep then [] :: splitChars sep rest
    else match splitChars sep rest with
      | [] => [[c]]
      | piece :: pieces => (c :: piece) :: pieces

/-- The pieces of a text between the occurrences of `sep`, at least one. -/
def split (sep : Char) (s : String) : List String :=
  (splitChars sep s.toList).map String.ofList

/-- What stands before and after the first `sep`. -/
def splitFirstChars (sep : Char) : List Char → Option (List Char × List Char)
  | [] => none
  | c :: rest =>
    if c = sep then some ([], rest)
    else (splitFirstChars sep rest).map fun (a, b) => (c :: a, b)

/-- What stands before and after the first `sep`. -/
def splitFirst (sep : Char) (s : String) : Option (String × String) :=
  (splitFirstChars sep s.toList).map fun (a, b) => (String.ofList a, String.ofList b)

/-- What stands before and after the last `sep`. -/
def splitLastChars (sep : Char) : List Char → Option (List Char × List Char)
  | [] => none
  | c :: rest =>
    match splitLastChars sep rest with
    | some (a, b) => some (c :: a, b)
    | none => if c = sep then some ([], rest) else none

/-- What stands before and after the last `sep`. -/
def splitLast (sep : Char) (s : String) : Option (String × String) :=
  (splitLastChars sep s.toList).map fun (a, b) => (String.ofList a, String.ofList b)

/-- What is left of `cs` after `start`, if it begins so. -/
def dropStart? : List Char → List Char → Option (List Char)
  | [], cs => some cs
  | _ :: _, [] => none
  | a :: start, c :: cs => if a = c then dropStart? start cs else none

/-- What is left of `cs` before `ending`, if it ends so. -/
def dropEnding? (ending cs : List Char) : Option (List Char) :=
  (dropStart? ending.reverse cs.reverse).map List.reverse

/-- What is left of `s` after `start`, if it begins so. -/
def afterStart? (start s : String) : Option String :=
  (dropStart? start.toList s.toList).map String.ofList

/-- What is left of `s` before `ending`, if it ends so. -/
def beforeEnding? (ending s : String) : Option String :=
  (dropEnding? ending.toList s.toList).map String.ofList

/-- The text up to its first full stop. -/
def root (path : String) : String :=
  String.ofList (path.toList.takeWhile (· ≠ '.'))

/-- The pieces of a text between the occurrences of a nonempty separator `a :: sep`. -/
def splitAtText (a : Char) (sep : List Char) : Nat → List Char → List (List Char)
  | 0, cs => [cs]
  | _ + 1, [] => [[]]
  | fuel + 1, c :: rest =>
    match dropStart? (a :: sep) (c :: rest) with
    | some after => [] :: splitAtText a sep fuel after
    | none => match splitAtText a sep fuel rest with
      | [] => [[c]]
      | piece :: pieces => (c :: piece) :: pieces

/-- Whether `part` occurs in `cs`. -/
def containsChars (part : List Char) : List Char → Bool
  | [] => part.isEmpty
  | c :: rest => (dropStart? part (c :: rest)).isSome || containsChars part rest

end Text

end ObjectEngine
