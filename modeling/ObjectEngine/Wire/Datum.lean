import ObjectEngine.Store.Datum
import ObjectEngine.Wire.Value

/-!
# Stored data in wire form

A record is an object of its members. As a value it is wrapped in an object with the member
`$doc`, so that it cannot be taken for one of the other tagged kinds.
-/

namespace ObjectEngine

namespace Wire

/-! ### Writing -/

mutual

/-- The wire form of a stored value. -/
def ofDatum : Datum → Json
  | .null => .null
  | .bool b => .bool b
  | .int n => .int n.toInt
  | .double x => wire x
  | .string s => .str s
  | .date t => wire t
  | .binary bytes => .obj [("$bin", .str (Hex.encode bytes))]
  | .array xs => .arr (ofItems xs)
  | .record ms => .obj [("$doc", .obj (ofRecordMembers ms))]
  | .extended kind bytes => .obj [("$ext", .arr [.str kind, .str (Hex.encode bytes)])]

/-- The wire forms of the items of an array. -/
def ofItems : List Datum → List Json
  | [] => []
  | d :: rest => ofDatum d :: ofItems rest

/-- The wire forms of the members of a record. -/
def ofRecordMembers : List (String × Datum) → List (String × Json)
  | [] => []
  | (k, d) :: rest => (k, ofDatum d) :: ofRecordMembers rest

end

/-! ### Reading -/

/-- Reads a stored value of a kind without values of its own. -/
def taggedDatum (tag : String) (j : Json) : Reader Datum :=
  match tag, j with
  | "$f", .str bits => .double <$> doubleOfBits bits
  | "$date", j => .date <$> instant j
  | "$bin", .str bytes => .binary <$> ofOption (Hex.decode? bytes)
  | "$ext", .arr [.str kind, .str bytes] => .extended kind <$> ofOption (Hex.decode? bytes)
  | _, _ => malformed

mutual

/-- Reads a stored value. -/
def datum : Json → Reader Datum
  | .null => .ok .null
  | .bool b => .ok (.bool b)
  | .str s => .ok (.string s)
  | .arr xs => do return .array (← datums xs)
  | .obj [("$doc", .obj ms)] => do return .record (← recordMembers ms)
  | .obj [(tag, j)] => taggedDatum tag j
  | j => ofOption (number .int .double j)

/-- Reads the items of an array. -/
def datums : List Json → Reader (List Datum)
  | [] => .ok []
  | j :: rest => do
    let d ← datum j
    return d :: (← datums rest)

/-- Reads the members of a record. -/
def recordMembers : List (String × Json) → Reader (List (String × Datum))
  | [] => .ok []
  | (k, j) :: rest => do
    let d ← datum j
    return (k, d) :: (← recordMembers rest)

end

end Wire

open Wire

instance : ToWire Datum := ⟨ofDatum⟩

instance : FromWire Datum := ⟨datum⟩

instance : ToWire Record := ⟨fun r => .obj (ofRecordMembers r)⟩

instance : FromWire Record := ⟨members datum⟩

end ObjectEngine
