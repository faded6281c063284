import ObjectEngine.Event
import ObjectEngine.Wire

/-!
# Events in wire form

The payload of an event is read from its named object nodes, of which `root` is the payload
itself. An object whose only member is `$ref` stands for the node of that name, so that nodes
can be shared and contain themselves; every other object is a node of its own.
-/

namespace ObjectEngine

namespace Wire

/-- Reading that collects the object nodes without names, which stand behind those with
names. -/
abbrev NodeReader (α : Type) := ExceptT Failure (StateM (List (Members EventValue))) α

/-- A new node without a name, behind `named` nodes with names. -/
def addNode (named : Nat) (ms : Members EventValue) : NodeReader EventValue := do
  let others ← get
  set (others ++ [ms])
  return .node (named + others.length)

mutual

/-- Reads a value of a payload. -/
def eventValue (names : List String) : Json → NodeReader EventValue
  | .null => return .null
  | .bool b => return .bool b
  | .str s => return .string s
  | .arr xs => do return .array (← eventValues names xs)
  | .obj [("$f", .str bits)] => do return .float (← (doubleOfBits bits : Reader Double))
  | .obj [("$ref", .str name)] =>
    match names.idxOf? name with
    | some position => return .node position
    | none => throw .malformed
  | .obj ms => do addNode names.length (← eventMembers names ms)
  | j =>
    match number (fun n => EventValue.int n.toInt) .float j with
    | some v => return v
    | none => throw .malformed

/-- Reads the items of an array. -/
def eventValues (names : List String) : List Json → NodeReader (List EventValue)
  | [] => return []
  | j :: rest => do
    let v ← eventValue names j
    return v :: (← eventValues names rest)

/-- Reads the members of a node. -/
def eventMembers (names : List String) : List (String × Json) → NodeReader (Members EventValue)
  | [] => return []
  | (k, j) :: rest => do
    let v ← eventValue names j
    return (k, v) :: (← eventMembers names rest)

end

/-- Reads the payload of an event from its named nodes. -/
def eventGraph (j : Json) : Reader EventGraph := do
  let nodes ← members .ok j
  let nodes := nodes.filter (fun n => n.1 = "root") ++ nodes.filter (fun n => n.1 ≠ "root")
  let names := nodes.map Prod.fst
  let reading : NodeReader (List (Members EventValue)) := nodes.mapM fun n =>
    match n.2 with
    | .obj ms => eventMembers names ms
    | _ => throw .malformed
  let (named, others) := reading.run.run []
  return ⟨(← named) ++ others⟩

end Wire

instance : FromWire EventGraph := ⟨Wire.eventGraph⟩

instance : ToWire LogLine where
  wire line := .arr [.str line.level.toUpper, .str line.event, wire line.payload]

instance : FromWire LoggedEvent where
  ofWire j := do
    return { name := ← Wire.field j "name", keys := ← Wire.field j "keys",
             level := ← Wire.fieldOr "info" j "level" }

instance : ToWire LoggedEvent := ⟨fun e => .arr [.str e.name, wire e.keys, .str e.level]⟩

end ObjectEngine
