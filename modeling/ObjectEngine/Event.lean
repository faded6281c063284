import ObjectEngine.Json
import ObjectEngine.Text.Numeral

/-!
# Store events

The store announces what happens to it by events. Their payloads are graphs of object nodes
that may share nodes and contain cycles; a node is named by its position in the graph, and the
payload itself is the node `0`.

`EventGraph.toJson` unfolds a payload into JSON: an object that is its own ancestor becomes
`[Circular]`, and what lies deeper than 32 levels `[Truncated]`. `EventGraph.find?` looks up a
dotted path, and `EventLogger` renders the events it is configured for, in full or reduced to
some paths.
-/

namespace ObjectEngine

/-- A value in the payload of an event. -/
inductive EventValue
  | null
  | bool (b : Bool)
  | int (n : Int)
  | float (x : Double)
  | string (s : String)
  | array (items : List EventValue)
  /-- The object node at a position of the graph. -/
  | node (position : Nat)
  deriving Inhabited

/-- The object nodes of a payload; the first is the payload itself. -/
structure EventGraph where
  nodes : List (Members EventValue)
  deriving Inhabited

/-- A named event. -/
structure Event where
  name : String
  payload : EventGraph
  deriving Inhabited

namespace EventGraph

/-- The members of a node. -/
def members (g : EventGraph) (position : Nat) : Members EventValue :=
  (g.nodes[position]?).getD []

/-! ### Unfolding into JSON -/

/-- Stands for an object within itself. -/
def circularMark : Json := .str "[Circular]"

/-- Stands for what lies too deep. -/
def truncatedMark : Json := .str "[Truncated]"

/-- The greatest depth that is unfolded. -/
def maxDepth : Nat := 32

/-- Unfolds a value at most `levels` deep. The nodes on the way to it are the state: a node enters
it before its members are unfolded and leaves it after them. -/
def unfold (g : EventGraph) : Nat → EventValue → StateM (List Nat) Json
  | 0, _ => return truncatedMark
  | levels + 1, v =>
    match v with
    | .null => return .null
    | .bool b => return .bool b
    | .int n => return .int n
    | .float x => return .ofDouble x
    | .string s => return .str s
    | .array items => return .arr (← items.mapM (unfold g levels))
    | .node position => do
      if (← get).contains position then return circularMark
      modify (position :: ·)
      let members ← (g.members position).mapM fun m => return (m.1, ← unfold g levels m.2)
      modify (·.erase position)
      return .obj members

/-- A value of a payload as JSON. -/
def toJson (g : EventGraph) (v : EventValue) : Json := ((g.unfold (maxDepth + 1) v).run []).1

/-! ### Paths -/

/-- The value one path segment below another: a member of an object or an item of an array. -/
def child? (g : EventGraph) (v : EventValue) (segment : String) : Option EventValue :=
  match v with
  | .node position => (g.members position).lookup segment
  | .array items => (Text.word64? segment.toList).bind fun i => items[i]?
  | _ => none

/-- The value at a dotted path of the payload. -/
def find? (g : EventGraph) (path : String) : Option EventValue :=
  (Text.split '.' path).foldlM g.child? (.node 0)

/-- The values at some dotted paths of the payload, as JSON by path. -/
def project (g : EventGraph) (paths : List String) : Members (Option Json) :=
  Members.ofList (paths.map fun p => (p, (g.find? p).map g.toJson))

end EventGraph

/-! ### Logging -/

/-- An event to log, in full or reduced to some paths. -/
structure LoggedEvent where
  name : String
  keys : Option (List String)
  level : String
  deriving DecidableEq, Inhabited

/-- The levels of log lines. -/
def logLevels : List String := ["trace", "debug", "info", "warn", "error"]

/-- A line of the log. -/
structure LogLine where
  level : String
  event : String
  payload : Json
  deriving Inhabited

/-- Logs the events it is configured for; of two configurations of one event the later
counts. -/
structure EventLogger where
  events : Members LoggedEvent
  deriving Inhabited

namespace EventLogger

/-- The logger of a list of configurations. -/
def ofList (configs : List LoggedEvent) : EventLogger :=
  ⟨Members.ofList (configs.map fun c => (c.name, c))⟩

/-- The payload of an event as a configuration asks for it. -/
def payload (config : LoggedEvent) (g : EventGraph) : Json :=
  match config.keys with
  | some keys => .obj (Members.mapValues (fun j => j.getD .null) (g.project keys))
  | none => g.toJson (.node 0)

/-- The payload that is logged for an event, if the event is. -/
def render? (logger : EventLogger) (e : Event) : Option Json :=
  (logger.events.lookup e.name).map fun c => payload c e.payload

/-- The line that is logged for an event, if the event is; an unknown level is `info`. -/
def line? (logger : EventLogger) (e : Event) : Option LogLine :=
  (logger.events.lookup e.name).map fun c =>
    { level := if logLevels.contains c.level then c.level else "info"
      event := e.name
      payload := payload c e.payload }

end EventLogger

end ObjectEngine
