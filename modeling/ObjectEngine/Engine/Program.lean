import ObjectEngine.Store.State

/-!
# Programs over a store

Work that takes several calls is written as a `Program`: a tree of requests, each followed by
what is done with its answer. A program says in which order it calls the store and with what;
who else calls the store in between, and which calls fail, is left to the one who runs it.

`Program.run` runs a program alone in a `World`: a store, a clock that only sleeping moves,
and a supply of object ids. `World.runTogether` runs several programs at once: each goes on
until it has to wait, and the one that wakes first goes on first.
-/

namespace ObjectEngine

/-- What a program asks of its surroundings. -/
inductive Request
  | store (call : Store.Call)
  /-- Waits. -/
  | pause (ms : Nat)
  /-- An object id that was never used. -/
  | newId
  /-- The time. -/
  | now

/-- What a request answers. -/
def Request.Answer : Request → Type
  | .store call => Outcome call.Answer
  | .pause _ => Unit
  | .newId => String
  | .now => Instant

/-- A sequence of requests, each depending on the answers before it, with a result. -/
inductive Program (α : Type) where
  | done (a : α)
  | ask (r : Request) (next : r.Answer → Program α)

namespace Program

variable {α β : Type}

/-- Goes on with the result of a program. -/
def bind : Program α → (α → Program β) → Program β
  | .done a, f => f a
  | .ask r next, f => .ask r fun answer => (next answer).bind f

instance : Monad Program where
  pure := .done
  bind := bind

instance [Inhabited α] : Inhabited (Program α) := ⟨.done default⟩

/-- A single request. -/
def request (r : Request) : Program r.Answer := .ask r .done

/-- A single call to the store. -/
def call (c : Store.Call) : ExceptT EngineError Program c.Answer := request (.store c)

end Program

/-- Work on the store that may fail. -/
abbrev StoreAction (α : Type) := ExceptT EngineError Program α

/-- The surroundings of a program. -/
structure World where
  store : Store := {}
  /-- Milliseconds since the start. -/
  clockMs : Nat := 0
  /-- The time at the start. -/
  epoch : Instant := ⟨0, 0⟩
  nextObject : Nat := 0
  deriving Inhabited

namespace World

variable {α : Type}

/-- The time. -/
def now (w : World) : Instant :=
  let nanos := w.epoch.nanos + w.clockMs % 1000 * 1000000
  ⟨w.epoch.seconds + (w.clockMs / 1000 : Nat) + (nanos / 1000000000 : Nat), nanos % 1000000000⟩

/-- The object id of a number: ten letters and digits. -/
def objectId (n : Nat) : String :=
  let digits := Nat.toDigits 10 n
  String.ofList ('x' :: List.replicate (9 - digits.length) '0' ++ digits)

/-- Answers a request, and tells how long its asker waits for the answer. -/
def serve (w : World) : (r : Request) → r.Answer × Nat × World
  | .store call =>
    let reply := w.store.run call
    (reply.outcome, reply.waitMs, { w with store := reply.store })
  | .pause ms => ((), ms, w)
  | .newId => (objectId w.nextObject, 0, { w with nextObject := w.nextObject + 1 })
  | .now => (w.now, 0, w)

/-- Moves the clock. -/
def advance (w : World) (ms : Nat) : World := { w with clockMs := w.clockMs + ms }

end World

namespace Program

variable {α : Type}

/-- Runs a program alone. -/
def run : Program α → World → α × World
  | .done a, w => (a, w)
  | .ask r next, w =>
    let (answer, waitMs, w) := w.serve r
    (next answer).run (w.advance waitMs)

end Program

/-! ### Several programs at once -/

/-- A program among others: finished, or asleep until some time. -/
inductive Task (α : Type) where
  | finished (a : α)
  | asleep (untilMs : Nat) (rest : Program α)

namespace Task

variable {α : Type}

/-- Runs a program until it has to wait. -/
def start : Program α → World → Task α × World
  | .done a, w => (.finished a, w)
  | .ask r next, w =>
    let (answer, waitMs, w) := w.serve r
    if waitMs = 0 then start (next answer) w
    else (.asleep (w.clockMs + waitMs) (next answer), w)

/-- The time at which the task wakes, if it is asleep. -/
def wakes? : Task α → Option Nat
  | .finished _ => none
  | .asleep untilMs _ => some untilMs

/-- Goes on with a task whose time has come. -/
def wake (w : World) : Task α → Task α × World
  | .finished a => (.finished a, w)
  | .asleep untilMs rest => if untilMs ≤ w.clockMs then start rest w else (.asleep untilMs rest, w)

/-- Runs a task to its end. -/
def finish (w : World) : Task α → α × World
  | .finished a => (a, w)
  | .asleep untilMs rest => rest.run { w with clockMs := max w.clockMs untilMs }

end Task

namespace World

variable {α β : Type}

/-- Threads a world through a list. -/
def mapTasks (f : World → α → β × World) : World → List α → List β × World
  | w, [] => ([], w)
  | w, a :: rest =>
    let (b, w) := f w a
    let (bs, w) := mapTasks f w rest
    (b :: bs, w)

/-- The earliest of some times. -/
def earliest : List Nat → Option Nat
  | [] => none
  | t :: rest => some (rest.foldl min t)

/-- Wakes tasks in the order of their times, at most `rounds` times, and then finishes those
that are left one by one. -/
def runTasks : Nat → World → List (Task α) → List α × World
  | 0, w, tasks => mapTasks Task.finish w tasks
  | rounds + 1, w, tasks =>
    match earliest (tasks.filterMap Task.wakes?) with
    | none => mapTasks Task.finish w tasks
    | some t =>
      let (tasks, w) := mapTasks Task.wake { w with clockMs := max w.clockMs t } tasks
      runTasks rounds w tasks

/-- Runs programs at once, started in order. No program waits more than `rounds` times
altogether. -/
def runTogether (rounds : Nat) (w : World) (programs : List (Program α)) : List α × World :=
  let (tasks, w) := mapTasks (fun w p => Task.start p w) w programs
  runTasks rounds w tasks

end World

end ObjectEngine
