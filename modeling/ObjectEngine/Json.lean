import ObjectEngine.Double.Shortest
import ObjectEngine.Members
import ObjectEngine.Text.Bytes

/-!
# JSON values

Numbers are integers or doubles, and the members of an object are kept in key order.
`Json.text` writes a value without blanks; a number that is not finite is written `null`.
-/

namespace ObjectEngine

/-- A JSON value. -/
inductive Json
  | null
  | bool (b : Bool)
  | int (n : Int)
  | float (x : Double)
  | str (s : String)
  | arr (items : List Json)
  | obj (members : List (String × Json))
  deriving Inhabited

namespace Json

/-- The text, if the value is one. -/
def asString? : Json → Option String
  | .str s => some s
  | _ => none

/-- The truth value, if the value is one. -/
def asBool? : Json → Option Bool
  | .bool b => some b
  | _ => none

/-- The number as a double, if the value is a number. -/
def asDouble? : Json → Option Double
  | .int n => some (Double.ofInt n)
  | .float x => some x
  | _ => none

/-- The member of an object under a key. -/
def member? (key : String) : Json → Option Json
  | .obj members => members.lookup key
  | _ => none

/-- A number, or `null` if it is not finite. -/
def ofDouble (x : Double) : Json := if x.isFinite then .float x else .null

/-- An object of the given members; of two members of one key the later wins. -/
def object (members : List (String × Json)) : Json := .obj (Members.ofList members)

/-! ### Writing -/

/-- A character inside a quoted text. -/
def escape (c : Char) : List Char :=
  if c = '"' then ['\\', '"']
  else if c = '\\' then ['\\', '\\']
  else if c = '\n' then ['\\', 'n']
  else if c = '\r' then ['\\', 'r']
  else if c = '\t' then ['\\', 't']
  else if c = Char.ofNat 8 then ['\\', 'b']
  else if c = Char.ofNat 12 then ['\\', 'f']
  else if c.toNat < 32 then
    ['\\', 'u', '0', '0', Hex.digit (c.toNat / 16), Hex.digit (c.toNat % 16)]
  else [c]

/-- A text in quotes. -/
def quote (s : String) : String :=
  String.ofList ('"' :: (s.toList.flatMap escape ++ ['"']))

mutual

/-- The value as a text without blanks. -/
def text : Json → String
  | .null => "null"
  | .bool b => if b then "true" else "false"
  | .int n => toString n
  | .float x => if x.isFinite then x.scientific else "null"
  | .str s => quote s
  | .arr items => "[" ++ String.intercalate "," (texts items) ++ "]"
  | .obj members => "\x7b" ++ String.intercalate "," (memberTexts members) ++ "\x7d"

/-- The texts of a list of values. -/
def texts : List Json → List String
  | [] => []
  | j :: rest => j.text :: texts rest

/-- The texts of a list of members. -/
def memberTexts : List (String × Json) → List String
  | [] => []
  | (k, j) :: rest => (quote k ++ ":" ++ j.text) :: memberTexts rest

end

end Json

end ObjectEngine
