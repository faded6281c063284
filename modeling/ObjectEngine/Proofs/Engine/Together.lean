import Mathlib.Logic.Function.Basic
import ObjectEngine.Proofs.Engine.Ensures

/-!
# Programs at once

The clock moves only where a program waits, and never back (`World.le_clockMs_runTasks`). So
programs that are run at once and leave the clock where it was have run one after another
(`World.runTogether_eq_of_clockMs`), and so do programs none of which waits
(`World.runTogether_eq_of_forall`). A program by itself runs as if it were alone, however long it
waits (`World.runTogether_singleton`).

Where more is to be told apart than who sleeps, each call to the store is a point at which others
may go on. `Turns` are programs over one world of which any may go on at any time: a turn serves the
next request of one of them (`Turns.step`), and a schedule says whose turn it is, one after another
(`Turns.run`). So every order in which the requests of the programs can meet is a schedule; that in
which they run one by one is among them (`Turns.exists_run_alone`).
-/

namespace ObjectEngine

variable {α β : Type}

/-! ### The clock -/

theorem World.clockMs_serve (w : World) (r : Request) : (w.serve r).2.2.clockMs = w.clockMs := by
  cases r <;> rfl

theorem Program.le_clockMs_run (p : Program α) (w : World) : w.clockMs ≤ (p.run w).2.clockMs := by
  induction p generalizing w with
  | done a => exact Nat.le_refl _
  | ask r next ih =>
    calc w.clockMs = (w.serve r).2.2.clockMs := (w.clockMs_serve r).symm
      _ ≤ ((w.serve r).2.2.advance (w.serve r).2.1).clockMs := Nat.le_add_right _ _
      _ ≤ _ := ih _ _

namespace Task

/-- **A program that is started** comes to its end as if it were alone, or sleeps until later. -/
theorem start_cases (p : Program α) (w : World) :
    start p w = (.finished (p.run w).1, (p.run w).2) ∧ (p.run w).2.clockMs = w.clockMs ∨
      ∃ untilMs rest v, start p w = (.asleep untilMs rest, v) ∧ v.clockMs = w.clockMs ∧
        w.clockMs < untilMs := by
  induction p generalizing w with
  | done a => exact .inl ⟨rfl, rfl⟩
  | ask r next ih =>
    have hclock := w.clockMs_serve r
    by_cases hwait : (w.serve r).2.1 = 0
    · have hstart : start (.ask r next) w = start (next (w.serve r).1) (w.serve r).2.2 := by
        simp only [start, hwait, if_true]
      have hrun : (Program.ask r next).run w = (next (w.serve r).1).run (w.serve r).2.2 := by
        simp only [Program.run, hwait, World.advance, Nat.add_zero]
      rw [hstart, hrun, ← hclock]
      exact ih _ _
    · have hstart : start (.ask r next) w = (.asleep ((w.serve r).2.2.clockMs + (w.serve r).2.1)
          (next (w.serve r).1), (w.serve r).2.2) := by simp only [start, hwait, if_false]
      refine .inr ⟨_, _, _, hstart, hclock, ?_⟩
      rw [hclock]
      exact Nat.lt_add_of_pos_right (Nat.pos_of_ne_zero hwait)

/-- A program that is started and run to its end runs as if it were alone. -/
theorem finish_start (p : Program α) (w : World) :
    (start p w).1.finish (start p w).2 = p.run w := by
  induction p generalizing w with
  | done a => rfl
  | ask r next ih =>
    by_cases hwait : (w.serve r).2.1 = 0
    · simp only [start, Program.run, hwait, if_true, World.advance, Nat.add_zero]
      exact ih _ _
    · simp only [start, Program.run, hwait, if_false, finish, World.advance,
        Nat.max_eq_right (Nat.le_add_right _ _)]

theorem le_clockMs_start (p : Program α) (w : World) : w.clockMs ≤ (start p w).2.clockMs := by
  rcases start_cases p w with ⟨hstart, hclock⟩ | ⟨_, _, v, hstart, hclock, -⟩ <;>
    rw [hstart] <;> exact Nat.le_of_eq hclock.symm

theorem le_clockMs_wake (task : Task α) (w : World) : w.clockMs ≤ (task.wake w).2.clockMs := by
  cases task with
  | finished a => exact Nat.le_refl _
  | asleep untilMs rest =>
    rw [wake]
    split
    · exact le_clockMs_start rest w
    · exact Nat.le_refl _

/-- To run a task to its end takes until the task wakes. -/
theorem le_clockMs_finish_asleep (untilMs : Nat) (rest : Program α) (w : World) :
    max w.clockMs untilMs ≤ ((asleep untilMs rest).finish w).2.clockMs :=
  rest.le_clockMs_run { w with clockMs := max w.clockMs untilMs }

/-- **A program that leaves the clock where it was** comes to its end as soon as it is started. -/
theorem start_of_clockMs {p : Program α} {w : World} (h : (p.run w).2.clockMs = w.clockMs) :
    start p w = (.finished (p.run w).1, (p.run w).2) := by
  rcases start_cases p w with ⟨hstart, -⟩ | ⟨untilMs, rest, v, hstart, -, hlater⟩
  · exact hstart
  · have hfinish : (asleep untilMs rest).finish v = p.run w := by
      rw [← finish_start p w, hstart]
    have hwaits := le_clockMs_finish_asleep untilMs rest v
    rw [hfinish, h] at hwaits
    exact absurd (Nat.le_trans (Nat.le_max_right _ _) hwaits) (Nat.not_le.2 hlater)

theorem le_clockMs_finish (task : Task α) (w : World) :
    w.clockMs ≤ (task.finish w).2.clockMs := by
  cases task with
  | finished a => exact Nat.le_refl _
  | asleep untilMs rest =>
    exact Nat.le_trans (Nat.le_max_left _ _) (le_clockMs_finish_asleep untilMs rest w)

end Task

namespace World

open ObjectEngine.Task (wakes?)

variable {w : World} {tasks : List (Task α)}

theorem le_clockMs_mapTasks {f : World → α → β × World}
    (hf : ∀ w a, w.clockMs ≤ (f w a).2.clockMs) (w : World) (xs : List α) :
    w.clockMs ≤ (mapTasks f w xs).2.clockMs := by
  induction xs generalizing w with
  | nil => exact Nat.le_refl _
  | cons a rest ih => exact Nat.le_trans (hf w a) (ih _)

/-- **The clock does not move back.** -/
theorem le_clockMs_runTasks (rounds : Nat) (w : World) (tasks : List (Task α)) :
    w.clockMs ≤ (runTasks rounds w tasks).2.clockMs := by
  have hfinish (w : World) (tasks : List (Task α)) :
      w.clockMs ≤ (mapTasks Task.finish w tasks).2.clockMs :=
    le_clockMs_mapTasks (fun w task => task.le_clockMs_finish w) w tasks
  induction rounds generalizing w tasks with
  | zero => exact hfinish w tasks
  | succ rounds ih =>
    rw [runTasks]
    split
    · exact hfinish w tasks
    · rename_i t ht
      refine Nat.le_trans (Nat.le_max_left w.clockMs t) (Nat.le_trans ?_ (ih _ _))
      exact le_clockMs_mapTasks (fun w task => task.le_clockMs_wake w)
        { w with clockMs := max w.clockMs t } tasks

/-! ### Tasks that wait -/

/-- The earliest of some times is one of them. -/
theorem earliest_mem {times : List Nat} {t : Nat} (h : earliest times = some t) : t ∈ times := by
  cases times with
  | nil => exact absurd h (by simp [earliest])
  | cons first rest =>
    obtain rfl := Option.some.inj h
    induction rest generalizing first with
    | nil => exact List.mem_cons_self
    | cons second rest ih =>
      have hmem := ih (min first second) rfl
      rw [List.foldl_cons]
      rcases List.mem_cons.1 hmem with heq | hmem
      · rw [heq]
        rcases Nat.le_total first second with hle | hle
        · rw [Nat.min_eq_left hle]
          exact List.mem_cons_self
        · rw [Nat.min_eq_right hle]
          exact List.mem_cons_of_mem _ List.mem_cons_self
      · exact List.mem_cons_of_mem _ (List.mem_cons_of_mem _ hmem)

/-- To run tasks to their ends takes until each has woken. -/
theorem le_clockMs_mapTasks_finish {untilMs : Nat} (h : untilMs ∈ tasks.filterMap wakes?)
    (w : World) : untilMs ≤ (mapTasks Task.finish w tasks).2.clockMs := by
  induction tasks generalizing w with
  | nil => exact absurd h List.not_mem_nil
  | cons task rest ih =>
    have hlater := le_clockMs_mapTasks (fun w (task : Task α) => task.le_clockMs_finish w)
      (task.finish w).2 rest
    obtain ⟨task', hmem, hwakes⟩ := List.mem_filterMap.1 h
    rcases List.mem_cons.1 hmem with rfl | hmem
    · cases task' with
      | finished a => exact absurd hwakes (by simp [wakes?])
      | asleep t p =>
        obtain rfl := Option.some.inj hwakes
        exact Nat.le_trans (Nat.le_trans (Nat.le_max_right w.clockMs t)
          (Task.le_clockMs_finish_asleep t p w)) hlater
    · exact ih (List.mem_filterMap.2 ⟨task', hmem, hwakes⟩) _

/-- **Tasks that sleep until later** move the clock. -/
theorem lt_clockMs_runTasks (rounds : Nat) (hsome : tasks.filterMap wakes? ≠ [])
    (hlater : ∀ untilMs ∈ tasks.filterMap wakes?, w.clockMs < untilMs) :
    w.clockMs < (runTasks rounds w tasks).2.clockMs := by
  cases hearliest : earliest (tasks.filterMap wakes?) with
  | none =>
    refine absurd hearliest ?_
    cases htimes : tasks.filterMap wakes? with
    | nil => exact absurd htimes hsome
    | cons t rest => simp [earliest]
  | some t =>
    have ht := earliest_mem hearliest
    cases rounds with
    | zero => exact Nat.lt_of_lt_of_le (hlater t ht) (le_clockMs_mapTasks_finish ht w)
    | succ rounds =>
      simp only [runTasks, hearliest]
      refine Nat.lt_of_lt_of_le (Nat.lt_of_lt_of_le (hlater t ht) (Nat.le_max_right w.clockMs t)) ?_
      refine Nat.le_trans ?_ (le_clockMs_runTasks rounds _ _)
      exact le_clockMs_mapTasks (fun w task => task.le_clockMs_wake w) { w with clockMs := _ } tasks

/-- Tasks that are over stay as they are. -/
theorem runTasks_finished (rounds : Nat) (w : World) (results : List α) :
    runTasks rounds w (results.map .finished) = (results, w) := by
  have hfinish : mapTasks Task.finish w (results.map .finished) = (results, w) := by
    induction results with
    | nil => rfl
    | cons a rest ih => simp only [List.map_cons, mapTasks, Task.finish, ih]
  cases rounds with
  | zero => exact hfinish
  | succ rounds =>
    have hnone : (results.map Task.finished).filterMap wakes? = [] := by
      simp [List.filterMap_map, Function.comp_def, wakes?]
    simp only [runTasks, hnone, earliest]
    exact hfinish

/-! ### Programs -/

/-- **Runs programs one after another.** -/
abbrev runInOrder (w : World) (programs : List (Program α)) : List α × World :=
  mapTasks (fun w p => p.run w) w programs

/-- **Programs that are started** sleep until later, or have run one after another. -/
theorem mapTasks_start {w v : World} {programs : List (Program α)} {tasks : List (Task α)}
    (h : mapTasks (fun w p => Task.start p w) w programs = (tasks, v)) :
    v.clockMs = w.clockMs ∧ (∀ untilMs ∈ tasks.filterMap wakes?, w.clockMs < untilMs) ∧
      (tasks.filterMap wakes? = [] →
        tasks = (w.runInOrder programs).1.map .finished ∧ v = (w.runInOrder programs).2) := by
  induction programs generalizing w tasks with
  | nil =>
    obtain ⟨rfl, rfl⟩ := Prod.mk.inj h
    exact ⟨rfl, by simp, fun _ => ⟨rfl, rfl⟩⟩
  | cons p rest ih =>
    rcases Task.start_cases p w with ⟨hstart, hclock⟩ | ⟨untilMs, q, u, hstart, hclock, hlt⟩
    · simp only [mapTasks, hstart] at h
      obtain ⟨rfl, hv⟩ := Prod.mk.inj h
      obtain ⟨hclock', hlater, hdone⟩ := ih (Prod.ext rfl hv)
      rw [hclock] at hclock' hlater
      refine ⟨hclock', by simpa [wakes?] using hlater, fun hnone => ?_⟩
      obtain ⟨htasks, rfl⟩ := hdone (by simpa [wakes?] using hnone)
      exact ⟨congrArg (Task.finished (p.run w).1 :: ·) htasks, rfl⟩
    · simp only [mapTasks, hstart] at h
      obtain ⟨rfl, hv⟩ := Prod.mk.inj h
      obtain ⟨hclock', hlater, -⟩ := ih (Prod.ext rfl hv)
      rw [hclock] at hclock' hlater
      exact ⟨hclock', List.forall_mem_cons.2 ⟨hlt, hlater⟩, by simp [wakes?]⟩

theorem le_clockMs_runTogether (rounds : Nat) (w : World) (programs : List (Program α)) :
    w.clockMs ≤ (w.runTogether rounds programs).2.clockMs := by
  rcases hstart : mapTasks (fun w p => Task.start p w) w programs with ⟨tasks, v⟩
  obtain ⟨hclock, -, -⟩ := mapTasks_start hstart
  rw [runTogether, hstart, ← hclock]
  exact le_clockMs_runTasks rounds v tasks

/-- **Programs at once that leave the clock where it was** have run one after another. -/
theorem runTogether_eq_of_clockMs {rounds : Nat} {programs : List (Program α)}
    (h : (w.runTogether rounds programs).2.clockMs = w.clockMs) :
    w.runTogether rounds programs = w.runInOrder programs := by
  rcases hstart : mapTasks (fun w p => Task.start p w) w programs with ⟨tasks, v⟩
  obtain ⟨hclock, hlater, hdone⟩ := mapTasks_start hstart
  rw [runTogether, hstart] at h ⊢
  by_cases hnone : tasks.filterMap wakes? = []
  · obtain ⟨rfl, rfl⟩ := hdone hnone
    exact runTasks_finished rounds _ _
  · have hlt := lt_clockMs_runTasks rounds hnone (hclock ▸ hlater)
    exact absurd (h.trans hclock.symm) (Nat.ne_of_gt hlt)

/-- **Programs that do not wait**, run at once, run one after another. -/
theorem runTogether_eq_of_forall {programs : List (Program α)}
    (h : ∀ p ∈ programs, ∀ w, (p.run w).2.clockMs = w.clockMs) (rounds : Nat) (w : World) :
    w.runTogether rounds programs = w.runInOrder programs := by
  have hstart : mapTasks (fun w p => Task.start p w) w programs =
      ((w.runInOrder programs).1.map .finished, (w.runInOrder programs).2) := by
    induction programs generalizing w with
    | nil => rfl
    | cons p rest ih =>
      simp only [mapTasks, Task.start_of_clockMs (h p List.mem_cons_self w),
        ih (fun q hq => h q (List.mem_cons_of_mem _ hq)), List.map_cons]
  rw [runTogether, hstart]
  exact runTasks_finished rounds _ _

/-- A task among no others is run to its end. -/
theorem runTasks_singleton (rounds : Nat) (w : World) (task : Task α) :
    runTasks rounds w [task] = w.mapTasks Task.finish [task] := by
  induction rounds generalizing w task with
  | zero => rfl
  | succ rounds ih =>
    cases task with
    | finished a => rfl
    | asleep untilMs rest =>
      have hwakes : earliest ([Task.asleep untilMs rest].filterMap wakes?) = some untilMs := rfl
      simp only [runTasks, hwakes, mapTasks, Task.wake, Nat.le_max_right, if_true]
      rw [ih]
      simp only [mapTasks, Task.finish_start]
      rfl

/-- **A program among no others** runs as if it were alone. -/
theorem runTogether_singleton (rounds : Nat) (w : World) (p : Program α) :
    w.runTogether rounds [p] = w.runInOrder [p] := by
  rw [runTogether, mapTasks]
  simp only [mapTasks, runTasks_singleton, Task.finish_start]

end World

/-! ### Turns -/

/-- Programs over one world. -/
structure Turns (ι α : Type) where
  world : World
  program : ι → Program α

namespace Turns

variable {ι α : Type} [DecidableEq ι] {t : Turns ι α} {i j : ι} {schedule : List ι}

/-- The turn of a program: its next request is served. A program that is done stays so. -/
def step (t : Turns ι α) (i : ι) : Turns ι α :=
  match t.program i with
  | .done _ => t
  | .ask r next =>
    let (answer, waitMs, world) := t.world.serve r
    { world := world.advance waitMs, program := Function.update t.program i (next answer) }

/-- The turns of a schedule, in order. -/
def run (t : Turns ι α) (schedule : List ι) : Turns ι α := schedule.foldl step t

/-- A program has begun, and is not done. -/
def Underway (t : Turns ι α) (schedule : List ι) (i : ι) : Prop :=
  i ∈ schedule ∧ ∀ a, (t.run schedule).program i ≠ .done a

/-- Two programs have been underway at the same time. -/
def Meet (t : Turns ι α) (schedule : List ι) (i j : ι) : Prop :=
  ∃ earlier, earlier <+: schedule ∧ t.Underway earlier i ∧ t.Underway earlier j

@[simp] theorem run_nil (t : Turns ι α) : t.run [] = t := rfl

theorem run_append (t : Turns ι α) (schedule later : List ι) :
    t.run (schedule ++ later) = (t.run schedule).run later := List.foldl_append

theorem run_concat (t : Turns ι α) (schedule : List ι) (i : ι) :
    t.run (schedule ++ [i]) = (t.run schedule).step i := run_append t schedule [i]

theorem step_of_done {a : α} (h : t.program i = .done a) : t.step i = t := by
  rw [step, h]

theorem step_of_ask {r : Request} {next : r.Answer → Program α} (h : t.program i = .ask r next) :
    t.step i = { world := (t.world.serve r).2.2.advance (t.world.serve r).2.1
                 program := Function.update t.program i (next (t.world.serve r).1) } := by
  rw [step, h]

/-- The others wait. -/
theorem program_step_of_ne (h : j ≠ i) : (t.step i).program j = t.program j := by
  cases hi : t.program i with
  | done a => rw [step_of_done hi]
  | ask r next =>
    rw [step_of_ask hi]
    exact Function.update_of_ne h _ _

/-- A program that has had no turn is as it was. -/
theorem program_run_of_notMem (h : i ∉ schedule) : (t.run schedule).program i = t.program i := by
  induction schedule generalizing t with
  | nil => rfl
  | cons j rest ih =>
    obtain ⟨hne, hrest⟩ := not_or.1 (mt List.mem_cons.2 h)
    exact (ih hrest).trans (program_step_of_ne hne)

/-- Only the program whose turn it is begins. -/
theorem underway_of_concat (hne : j ≠ i) (h : t.Underway (schedule ++ [i]) j) :
    t.Underway schedule j := by
  refine ⟨(List.mem_append.1 h.1).resolve_right fun hj => hne (List.mem_singleton.1 hj), fun a ha =>
    h.2 a ?_⟩
  rw [run_concat, program_step_of_ne hne, ha]

theorem Meet.append (h : t.Meet schedule i j) (later : List ι) :
    t.Meet (schedule ++ later) i j := by
  obtain ⟨earlier, hearlier, hi, hj⟩ := h
  exact ⟨earlier, hearlier.trans (List.prefix_append _ _), hi, hj⟩

/-- **A program that is done** stays so. -/
theorem program_run_of_done {a : α} (h : t.program i = .done a) :
    (t.run schedule).program i = .done a := by
  induction schedule generalizing t with
  | nil => exact h
  | cons j rest ih =>
    refine ih ?_
    by_cases hj : i = j
    · subst hj
      rw [step_of_done h, h]
    · rw [program_step_of_ne hj, h]

/-- **A program whose turns come one after another** runs as if it were alone. -/
theorem exists_run_alone (t : Turns ι α) (i : ι) : ∃ n,
    t.run (List.replicate n i) =
      { world := ((t.program i).run t.world).2
        program := Function.update t.program i (.done ((t.program i).run t.world).1) } := by
  generalize hp : t.program i = p
  induction p generalizing t with
  | done a =>
    refine ⟨0, ?_⟩
    change t = { world := t.world, program := Function.update t.program i (.done a) }
    rw [← hp, Function.update_eq_self]
  | ask r next ih =>
    obtain ⟨n, hrun⟩ := ih (t.world.serve r).1 (t.step i) (by rw [step_of_ask hp]; simp)
    refine ⟨n + 1, ?_⟩
    rw [List.replicate_succ]
    refine Eq.trans hrun ?_
    rw [step_of_ask hp]
    simp [Program.run]

end Turns

end ObjectEngine
