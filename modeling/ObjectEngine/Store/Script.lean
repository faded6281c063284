import ObjectEngine.Store.Order
import ObjectEngine.Text.Blank
import ObjectEngine.Text.Numeral

/-!
# Scripts

A small language of server-side expressions:

* a script is an optional `return `, clauses joined by `&&`, and an optional semicolon;
* a clause is `true`, `false`, `sleep(` milliseconds `)` or a comparison;
* a comparison is `this.`, a path, an operator and a literal: a number, a text in single or
  double quotes, `true`, `false` or `null`.

Clauses are evaluated from left to right up to the first that is false. A sleep takes no time
here; it adds to the delay of the outcome, which the store waits for.
-/

namespace ObjectEngine

namespace Script

/-- The outcome of a script: whether it holds, and for how long it sleeps. -/
structure Result where
  matched : Bool
  delayMs : Nat
  deriving DecidableEq, Inhabited

/-- A script outside the language. -/
def error (text : String) : EngineError := .invalidQuery s!"sandboxed expression: {text}"

/-- An operator of a comparison. -/
inductive Operator
  | eq
  | ne
  | lt
  | le
  | gt
  | ge
  deriving DecidableEq, Inhabited

/-- The spellings of the operators, the longer before those they begin with. -/
def operators : List (List Char × Operator) :=
  [(['=', '=', '='], .eq), (['!', '=', '='], .ne), (['=', '='], .eq), (['!', '='], .ne),
   (['<', '='], .le), (['>', '='], .ge), (['<'], .lt), (['>'], .gt)]

/-- What stands between two quotes at the ends of a text. -/
def unquote? (quote : Char) (cs : List Char) : Option (List Char) :=
  match cs with
  | [] => none
  | c :: rest => if c = quote then Text.dropEnding? [quote] rest else none

/-- Reads a literal without blanks around it. -/
def literal (cs : List Char) : Outcome Datum :=
  let text := String.ofList cs
  if text = "true" then .ok (.bool true)
  else if text = "false" then .ok (.bool false)
  else if text = "null" then .ok .null
  else match (unquote? (Char.ofNat 39) cs) <|> (unquote? '"' cs) with
    | some inner => .ok (.string (String.ofList inner))
    | none =>
      match Text.int64? cs with
      | some n => .ok (.int n)
      | none =>
        match Text.double? cs with
        | some x => .ok (.double x)
        | none => .error (error s!"unsupported literal '{text}'")

/-- Whether a character may start a path. -/
def isPathStart (c : Char) : Bool := c.isAlpha || c = '_'

/-- Whether a character may go on a path. -/
def isPathChar (c : Char) : Bool := c.isAlphanum || c = '_' || c = '.'

/-- The operator and the literal at the start of a text: the first spelling that leaves a
literal on one line. -/
def operation? (cs : List Char) : Option (Operator × List Char) :=
  operators.findSome? fun (spelling, op) => do
    let literal := Text.trimStart (← Text.dropStart? spelling cs)
    guard (!literal.isEmpty && !literal.contains '\n')
    some (op, literal)

/-- The path, the operator and the literal of a comparison. -/
def comparison? (clause : List Char) : Option (String × Operator × List Char) := do
  let rest ← Text.dropStart? "this.".toList clause
  let path := rest.takeWhile isPathChar
  guard ((path.head?.map isPathStart).getD false)
  let (op, literal) ← operation? (Text.trimStart (rest.dropWhile isPathChar))
  some (String.ofList path, op, Text.trimEnd literal)

/-- Whether two values stand in the relation of an operator. -/
def holds (op : Operator) (a b : Datum) : Bool :=
  match op with
  | .eq => Datum.equalUnder none a b
  | .ne => !Datum.equalUnder none a b
  | .lt => Datum.compare? none a b == some .lt
  | .le => (Datum.compare? none a b).any (· != .gt)
  | .gt => Datum.compare? none a b == some .gt
  | .ge => (Datum.compare? none a b).any (· != .lt)

/-- Evaluates a clause without blanks around it. -/
def clause (record : Record) (cs : List Char) : Outcome Result :=
  let text := String.ofList cs
  if text = "true" then .ok ⟨true, 0⟩
  else if text = "false" then .ok ⟨false, 0⟩
  else match (Text.dropStart? "sleep(".toList cs).bind (Text.dropEnding? [')']) with
    | some argument =>
      match Text.word64? (Text.trim argument) with
      | some ms => .ok ⟨true, ms⟩
      | none => .error (error s!"bad sleep argument '{String.ofList argument}'")
    | none =>
      match comparison? cs with
      | some (path, op, cs) => do
        let value ← literal cs
        return ⟨holds op ((record.get? path).getD .null) value, 0⟩
      | none => .error (error s!"unsupported clause '{text}'")

/-- Evaluates clauses up to the first that is false. -/
def clauses (record : Record) (delayMs : Nat) : List (List Char) → Outcome Result
  | [] => .ok ⟨true, delayMs⟩
  | cs :: rest => do
    let r ← clause record (Text.trim cs)
    let delayMs := delayMs + r.delayMs
    if r.matched then clauses record delayMs rest else return ⟨false, delayMs⟩

/-- The script without `return`, semicolon and the blanks around. -/
def body (script : List Char) : List Char :=
  let cs := Text.trim script
  let cs := Text.trim ((Text.dropStart? "return ".toList cs).getD cs)
  Text.trim ((Text.dropEnding? [';'] cs).getD cs)

/-- Evaluates a script on a record. -/
def evaluate (script : String) (record : Record) : Outcome Result :=
  let cs := body script.toList
  if cs.isEmpty then .error (error "empty expression")
  else clauses record 0 (Text.splitAtText '&' ['&'] (cs.length + 1) cs)

end Script

end ObjectEngine
