import ObjectEngine.Regex.CharSet
import ObjectEngine.Text.Utf8

/-!
# Room

The room of an automaton that reads bytes: 32 for each of its states, 8 for each range of bytes
that a state tells apart, and 4 for each way out of a fork. An automaton must stay within a
limit (`Room.fits`).

The automaton that reads one of several words (`Dictionary`) shares the states of what words begin
with in common, as far as the order of the words allows: where one of them ends, those after it in
the list share nothing with those before it.

A set beyond ASCII is read byte by byte. The automaton that reads forward has one state for all
places from which the bytes go on alike (`CharSet.forward`). The one that reads backward shares
the states of first bytes only, and finds them by notes in a limited number of slots, so what
it takes depends on the numbers of its states (`CharSet.backward`).
-/

namespace ObjectEngine

namespace Regex

/-- The states of an automaton, and the room beside them. -/
structure Room where
  states : Nat := 0
  beside : Nat := 0
  deriving DecidableEq, Inhabited

namespace Room

instance : Add Room := ⟨fun a b => ⟨a.states + b.states, a.beside + b.beside⟩⟩

/-- The room as a number. -/
def size (r : Room) : Nat := 32 * r.states + r.beside

/-- The size that no automaton may exceed. -/
def limit : Nat := 10485760

/-- Whether an automaton is within the limit. -/
def fits (r : Room) : Bool := r.size ≤ limit

/-- The room of all parts. -/
def total (parts : List Room) : Room := parts.foldl (· + ·) {}

/-- The room of `n` copies. -/
def times (n : Nat) (r : Room) : Room := ⟨n * r.states, n * r.beside⟩

/-- States with nothing beside them. -/
def ofStates (n : Nat) : Room := ⟨n, 0⟩

/-- A state with many ways out. -/
def fork (ways : Nat) : Room := ⟨1, 4 * ways⟩

/-- A state that tells ranges of bytes apart. -/
def switch (ranges : Nat) : Room := ⟨1, 8 * ranges⟩

end Room

/-! ### Words -/

/-- A word by its bytes. -/
abbrev Word := List UInt8

namespace Dictionary

/-- The words up to each empty one, and those after the last, behind the words `before`, the last
first. -/
def chunks (before : List Word) : List Word → List (List Word)
  | [] => [before.reverse]
  | [] :: rest => before.reverse :: chunks [] rest
  | word :: rest => chunks (word :: before) rest

/-- The words of a list where those at the start that are empty count as one. -/
def trimmed : List Word → List Word
  | [] :: rest => [] :: rest.dropWhile (·.isEmpty)
  | words => words

/-- What follows the first byte of words, for each first byte. -/
def branches (words : List Word) : List (List Word) :=
  (words.filterMap (·.head?)).eraseDups.map fun byte =>
    words.filterMap fun word => if word.head? = some byte then some word.tail else none

/-- The room of the states that read words of at most `depth` bytes, some of them not empty. An
empty word parts those before it from those after it; words of one part share a first byte. -/
def states : Nat → List Word → Room
  | 0, _ => {}
  | depth + 1, words =>
    let parts := chunks [] (trimmed words)
    let full := parts.filter (!·.isEmpty)
    let ways := full.length + (parts.length - 1)
    .fork ways + .total (full.map fun part =>
      let rests := branches part
      let first : Room := if rests.length = 1 then .ofStates 1 else .switch rests.length
      first + .total (rests.map fun rest => if rest.all (·.isEmpty) then {} else states depth rest))

/-- The room of words: that of the states that read them, and of the one where they end. -/
def room (words : List Word) : Room :=
  states (words.foldl (fun n word => max n word.length) 0) words + .ofStates 1

end Dictionary

/-! ### Sets -/

namespace CharSet

open Text.Utf8 (Sequence)

/-- Whether all characters of a set are in ASCII. -/
def isAscii (set : CharSet) : Bool := set.ranges.all (·.2 < 128)

/-- The bytes of the characters of a set. -/
def sequences (set : CharSet) : List Sequence := set.ranges.flatMap Text.Utf8.sequences

/-! ### Forward -/

/-- A way out of a state: the bytes that take it, and the number of the state after it. -/
structure Way where
  first : Nat
  last : Nat
  after : Nat
  deriving DecidableEq

/-- The number of a state among those known, the last first. The state is added if it is new. -/
def numberOf (ways : List Way) (known : List (List Way)) : Nat × List (List Way) :=
  match known.findIdx? (· == ways) with
  | some later => (known.length - later, known)
  | none => (known.length + 1, ways :: known)

/-- The number of the state that reads one of several sequences of at most `depth` ranges. States
that tell apart the same are one; the state after the last byte has the number 0. -/
def share : Nat → List Sequence → List (List Way) → Nat × List (List Way)
  | 0, _, known => (0, known)
  | depth + 1, sequences, known =>
    let groups := sequences.splitBy fun a b => a.head? = b.head?
    let (ways, known) := groups.foldl (fun (ways, known) group =>
      match group.head?.bind (·.head?) with
      | some first =>
        let (after, known) := share depth (group.map (·.tail)) known
        (ways ++ [⟨first.1, first.2, after⟩], known)
      | none => (ways, known)) ([], known)
    if ways.isEmpty then (0, known) else numberOf ways known

/-- The room of a set in the automaton that reads forward. -/
def forward (set : CharSet) : Room :=
  if set.isAscii then .switch set.ranges.length + .ofStates 1
  else
    let (_, known) := share 4 set.sequences []
    .total (known.map fun ways => .switch ways.length) + .ofStates 1

/-! ### Backward -/

/-- A state of the automaton that reads backward: the bytes it tells apart, its number, the slot
where it is noted, and whether the note is still there. -/
structure Noted where
  bytes : Nat × Nat
  state : Nat
  slot : Nat
  present : Bool
  deriving Inhabited

/-- The number of slots. -/
def slots : Nat := 1000

/-- The slot of a state that leads from some bytes to a state. -/
def slot (bytes : Nat × Nat) (target : Nat) : Nat :=
  let mix (hash : UInt64) (n : Nat) : UInt64 := (hash ^^^ n.toUInt64) * 1099511628211
  (mix (mix (mix 14695981039346656037 target) bytes.1) bytes.2).toNat % slots

/-- Adds the states of a sequence of bytes, of which the states `done`, the last first, are there
already and lead to `target`; `last` are the further states of the sequence before it. A state
is there already if it is noted; a note takes the place of the one in its slot. Answers the
states of the sequence and the number of the next state. -/
def extend (next target : Nat) (done : List Noted) :
    Sequence → List Noted → List Noted × Nat
  | [], _ => (done.reverse, next)
  | bytes :: rest, last =>
    let known? := last.head?.filter fun s => s.bytes = bytes && s.present
    match known? with
    | some s => extend next s.state (s :: done) rest last.tail
    | none =>
      let place := slot bytes target
      let done := done.map fun s => { s with present := s.present && s.slot != place }
      extend (next + 1) next (⟨bytes, next, place, true⟩ :: done) rest []

/-- The number of the next state once the states of all sequences are there, which lead to
`target`. -/
def extendAll (next target : Nat) (last : List Noted) : List Sequence → Nat
  | [] => next
  | sequence :: rest =>
    let (last, next) := extend next target [] sequence last
    extendAll next target last rest

/-- The automaton that reads backward with a set after what it held before. Sequences of bytes
share the states of their first bytes. -/
def backward (set : CharSet) (r : Room) : Room :=
  if set.isAscii then r + .switch set.ranges.length + .ofStates 1
  else
    let sequences := set.sequences
    let target := r.states + 1
    let next := extendAll (target + 1) target [] sequences
    r + .fork sequences.length + .ofStates (next - target)

end CharSet

end Regex

end ObjectEngine
