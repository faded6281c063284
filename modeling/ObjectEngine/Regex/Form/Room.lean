import ObjectEngine.Regex.Form
import ObjectEngine.Regex.Room

/-!
# The room of forms

A form is searched for by two automata, one that reads forward (`Form.forward`) and one that
reads backward (`Form.backward`). The one that reads backward keeps no places of groups, but
shares less of the bytes of sets, so either may be the larger. A form is small if both are
within the limit (`Form.isSmall`). The copies of a repetition are not made once the limit is
exceeded, which does not change the answer (`fits_addTimes`).
-/

namespace ObjectEngine

namespace Regex

/-! ### Repetitions -/

/-- How a repetition is laid out: a number of copies of its body, each read once, and after them
copies of which each is behind a fork. -/
structure Layout where
  before : Room := {}
  copies : Nat
  between : Room := {}
  optional : Nat := 0

/-- The layout of a repetition of at least `min` and at most `max` times of a body that may be
empty or not. -/
def Layout.of (mayBeEmpty : Bool) (min : Nat) (max : Option Nat) : Layout :=
  match min, max with
  | 0, some 1 => { before := .fork 2, copies := 1, between := .ofStates 1 }
  | 0, none =>
    if mayBeEmpty then { copies := 1, between := .fork 2 + .fork 2 + .ofStates 1 }
    else { before := .fork 2, copies := 1 }
  | min, none => { copies := min, between := .fork 2 }
  | min, some max =>
    if min = max then { copies := min }
    else
      { before := if min = 0 then .ofStates 1 else {}, copies := min, between := .ofStates 1,
        optional := max - min }

namespace Form

/-- Whether the body of a repetition may be empty, as far as it is known. -/
def mayBeEmpty (body : Form) : Bool := (shortest? body).all (· = 0)

/-! ### Literals -/

/-- The texts of a choice of literals. -/
def literals? (parts : List Form) : Option (List (List Char)) :=
  parts.mapM fun
    | .literal text => some text
    | _ => none

/-- The bytes of a text. -/
def bytes (text : List Char) : Word := text.flatMap String.utf8EncodeChar

/-! ### Forward -/

mutual

/-- The room of a form in the automaton that reads forward. -/
def forward : Form → Room
  | .empty => .ofStates 1
  | .literal text => .ofStates (bytes text).length
  | .set chars => chars.forward
  | .look _ => .ofStates 1
  | .group body => forward body + .ofStates 2
  | .repeated body min max _ =>
    let layout := Layout.of (mayBeEmpty body) min max
    layout.before + (forward body).times layout.copies + layout.between +
      (Room.fork 2 + forward body).times layout.optional
  | .seq parts => .total (forwardEach parts)
  | .choice parts =>
    match literals? parts with
    | some texts => Dictionary.room (texts.map bytes)
    | none => .fork parts.length + .ofStates 1 + .total (forwardEach parts)

/-- The room of each form of a list in the automaton that reads forward. -/
def forwardEach : List Form → List Room
  | [] => []
  | f :: rest => forward f :: forwardEach rest

end

/-! ### Backward -/

/-- What `n` steps add to an automaton, up to the limit. -/
def addTimes (step : Room → Room) : Nat → Room → Room
  | 0, r => r
  | n + 1, r => if r.fits then addTimes step n (step r) else r

/-- **Steps beyond the limit change nothing.** -/
theorem fits_addTimes {step : Room → Room} (grows : ∀ r, r.size ≤ (step r).size) (n : Nat)
    (r : Room) : (addTimes step n r).fits = (Nat.repeat step n r).fits := by
  have later : ∀ n r, Nat.repeat step (n + 1) r = Nat.repeat step n (step r) := by
    intro n
    induction n with
    | zero => exact fun _ => rfl
    | succ n ih => exact fun r => congrArg step (ih r)
  have least : ∀ n r, r.size ≤ (Nat.repeat step n r).size := by
    intro n
    induction n with
    | zero => exact fun _ => Nat.le_refl _
    | succ n ih => exact fun r => Nat.le_trans (ih r) (grows _)
  induction n generalizing r with
  | zero => rfl
  | succ n ih =>
    rw [addTimes]
    split
    case isTrue => rw [ih, later]
    case isFalse exceeded =>
      have := least (n + 1) r
      simp only [Room.fits, decide_eq_true_eq] at exceeded
      rw [Room.fits, Room.fits, decide_eq_decide]
      omega

mutual

/-- The automaton that reads backward with a form after what it held before. -/
def backward : Form → Room → Room
  | .empty, r => r + .ofStates 1
  | .literal text, r => r + .ofStates (bytes text).length
  | .set chars, r => chars.backward r
  | .look _, r => r + .ofStates 1
  | .group body, r => backward body r
  | .repeated body min max _, r =>
    let layout := Layout.of (mayBeEmpty body) min max
    let copied := addTimes (backward body) layout.copies (r + layout.before) + layout.between
    addTimes (fun r => backward body (r + .fork 2)) layout.optional copied
  | .seq parts, r => backwardFromLast parts r
  | .choice parts, r =>
    match literals? parts with
    | some texts => r + Dictionary.room (texts.map fun text => (bytes text).reverse)
    | none => backwardEach parts.length 0 parts r

/-- The automaton with forms one after the other, from the last to the first. -/
def backwardFromLast : List Form → Room → Room
  | [], r => r
  | f :: rest, r => backward f (backwardFromLast rest r)

/-- The automaton with the alternatives of a choice from the one of an index on. The fork between
them comes after the first two. -/
def backwardEach (ways index : Nat) : List Form → Room → Room
  | [], r => r
  | f :: rest, r =>
    let r := backward f r
    backwardEach ways (index + 1) rest
      (if index = 1 then r + .fork ways + .ofStates 1 else r)

end

/-! ### Whole automata -/

/-- Where the search for a match begins: at the start only, or anywhere. -/
def search (anchored : Bool) : Room :=
  if anchored then .ofStates 1 else .fork 2 + .switch 1 + .ofStates 1

/-- The whole automaton that reads forward: the search, the place of the match and its end. -/
def forwardWhole (f : Form) : Room := search f.isAtStart + f.forward + .ofStates 3

/-- The whole automaton that reads backward. -/
def backwardWhole (f : Form) : Room := f.backward (search f.isAtEnd) + .ofStates 1

/-- Whether a form is a choice of so many literals that it is searched for without automata. -/
def isDictionary : Form → Bool
  | .choice parts => 3000 ≤ parts.length && (literals? parts).isSome
  | _ => false

/-- Whether the automata of a form are within the limit. -/
def isSmall (f : Form) : Bool :=
  f.isDictionary || (f.backwardWhole.fits && f.forwardWhole.fits)

end Form

end Regex

end ObjectEngine
