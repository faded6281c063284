import Mathlib.Data.List.Nodup
import Mathlib.Data.List.Perm.Subperm
import ObjectEngine.Proofs.Schema.Traffic

/-!
# What the readers of a cache get

A change drops the loads of the classes that it concerns, but loads in flight go on, and reads that
wait for them get what they bring. A read that starts after the change gets none of that: the loads
that the cache keeps of the class from then on have later numbers than all loads before the change
(`Traffic.Renewed`), and so have those that the read waits for (`Traffic.ReadsAnew`).
`Traffic.answers_fresh` says it of whole runs, together with the age of what is answered: a schema
that a read returns or a look finds has been loaded for less than the time to live.

The reads of a class share the load that the cache keeps of it, and begin another only when the
cache keeps none. So each load but the last has been taken away: by a change, because it failed, or
because its schema expired (`Traffic.Accounted`). A load is taken away once, however many reads find
it failed or expired at the same time, since a read drops a load only while it is still the one
that the cache keeps.

`Traffic.coalesces` counts the loads that a run asks of the source by this, and says that the reads
that wait for one load get one outcome.
-/

namespace ObjectEngine

section

namespace SchemaCache

namespace Traffic

variable {t t' : Traffic} {h : Happening} {hs : List Happening} {n r id : Nat} {c : String}
  {outcome : Outcome ClassSchema}

/-! ### What a step does to one class and to one read -/

/-- A step puts only new loads into the cache. -/
theorem Step.slot (hstep : Step t h t') :
    t.cache.nextLoad ≤ t'.cache.nextLoad ∧
      ∀ {c id}, t'.cache.slots.lookup c = some id →
        t.cache.slots.lookup c = some id ∨ t.cache.nextLoad ≤ id := by
  cases hstep with
  | @begins r id c _ _ he =>
    obtain ⟨-, rfl, rfl⟩ := enter_eq_true.1 he
    refine ⟨Nat.le_succ _, fun {c' id'} hslot => ?_⟩
    simp only [move, Members.lookup_insert] at hslot
    split at hslot
    · exact .inr (Option.some.inj hslot ▸ Nat.le_refl _)
    · exact .inl hslot
  | joins _ he => exact (enter_eq_false.1 he).2 ▸ ⟨Nat.le_refl _, .inl⟩
  | returns _ hc =>
    obtain ⟨-, hnext, -, hslots⟩ := conclude_frame hc
    exact ⟨Nat.le_of_eq hnext.symm, fun hslot => .inl (hslots hslot)⟩
  | retries _ hc =>
    obtain ⟨-, hnext, -, hslots⟩ := conclude_frame hc
    exact ⟨Nat.le_of_eq hnext.symm, fun hslot => .inl (hslots hslot)⟩
  | @drops change =>
    refine ⟨Nat.le_of_eq (loads_apply t.cache change).2.1.symm, fun {c id} hslot => .inl ?_⟩
    rw [lookup_apply] at hslot
    split at hslot
    · exact absurd hslot (by simp)
    · exact hslot
  | _ => exact ⟨Nat.le_refl _, .inl⟩

/-- **The way of a read.** It keeps to its class, and the loads it waits for are those that the
cache keeps when it takes them. -/
theorem Step.stage (hstep : Step t h t') (r : Nat) :
    t'.stage r = t.stage r ∨ t'.stage r = .over ∨
      (∃ c, t.stage r = .ahead ∧ t'.stage r = .seeking c) ∨
      (∃ c id, t.stage r = .seeking c ∧ t'.stage r = .waiting c id ∧
        t'.cache.slots.lookup c = some id) ∨
      ∃ c id, t.stage r = .waiting c id ∧ t'.stage r = .seeking c := by
  have hmove (t : Traffic) (r' : Nat) (stage : Stage) :
      r' ≠ r → (t.move r' stage).stage r = t.stage r := fun hr =>
    Function.update_of_ne (Ne.symm hr) ..
  have hself (t : Traffic) (stage : Stage) : (t.move r stage).stage r = stage :=
    Function.update_self ..
  cases hstep with
  | @starts r' c _ hs =>
    by_cases hr : r' = r
    · subst hr
      exact .inr (.inr (.inl ⟨c, hs, hself ..⟩))
    · exact .inl (hmove _ _ _ hr)
  | @joins r' id c _ hs he =>
    by_cases hr : r' = r
    · subst hr
      obtain ⟨hslot, rfl⟩ := enter_eq_false.1 he
      exact .inr (.inr (.inr (.inl ⟨c, id, hs, hself .., hslot⟩)))
    · exact .inl (hmove _ _ _ hr)
  | @begins r' id c _ hs he =>
    by_cases hr : r' = r
    · subst hr
      obtain ⟨-, rfl, rfl⟩ := enter_eq_true.1 he
      refine .inr (.inr (.inr (.inl ⟨c, _, hs, hself .., ?_⟩)))
      simp [move, Members.lookup_insert]
    · exact .inl (hmove _ _ _ hr)
  | @returns r' id c _ _ hs _ =>
    by_cases hr : r' = r
    · subst hr
      exact .inr (.inl (hself ..))
    · exact .inl (hmove _ _ _ hr)
  | @retries r' id c _ hs _ =>
    by_cases hr : r' = r
    · subst hr
      exact .inr (.inr (.inr (.inr ⟨c, id, hs, hself ..⟩)))
    · exact .inl (hmove _ _ _ hr)
  | @leaves r' =>
    by_cases hr : r' = r
    · subst hr
      exact .inr (.inl (hself ..))
    · exact .inl (hmove _ _ _ hr)
  | _ => exact .inl rfl

/-! ### Loads after a change -/

/-- The load that the cache keeps of a class is none of the first `n`. -/
structure Renewed (n : Nat) (c : String) (t : Traffic) : Prop where
  next : n ≤ t.cache.nextLoad
  slot : ∀ {id}, t.cache.slots.lookup c = some id → n ≤ id

theorem Renewed.step (hnew : Renewed n c t) (hstep : Step t h t') : Renewed n c t' := by
  obtain ⟨hnext, hslots⟩ := hstep.slot
  exact ⟨Nat.le_trans hnew.next hnext, fun hslot =>
    (hslots hslot).elim hnew.slot (Nat.le_trans hnew.next)⟩

/-- A change renews the classes that it concerns. -/
theorem renewed_apply {change : SchemaChange} (hc : change.concerns c) :
    Renewed t.cache.nextLoad c { t with cache := t.cache.apply change } := by
  refine ⟨Nat.le_of_eq (loads_apply t.cache change).2.1.symm, fun {id} hslot => ?_⟩
  rw [lookup_apply, if_pos hc] at hslot
  exact nomatch hslot

/-- A read of a class that waits for none of the first `n` loads. -/
structure ReadsAnew (n : Nat) (c : String) (r : Nat) (t : Traffic) : Prop extends
    Renewed n c t where
  begun : t.stage r ≠ .ahead
  seeking : ∀ {c'}, t.stage r = .seeking c' → c' = c
  waiting : ∀ {c' id}, t.stage r = .waiting c' id → c' = c ∧ n ≤ id

theorem ReadsAnew.step (hreads : ReadsAnew n c r t) (hstep : Step t h t') :
    ReadsAnew n c r t' := by
  have hnew := hreads.toRenewed.step hstep
  rcases hstep.stage r with heq | hover | ⟨_, hahead, -⟩ | ⟨c', id, hseeks, hwaits, hslot⟩ |
    ⟨c', id, hwaits, hseeks⟩
  · exact ⟨hnew, heq ▸ hreads.begun, fun h => hreads.seeking (heq ▸ h),
      fun h => hreads.waiting (heq ▸ h)⟩
  · exact ⟨hnew, by simp [hover], by simp [hover], by simp [hover]⟩
  · exact absurd hahead hreads.begun
  · obtain rfl := hreads.seeking hseeks
    refine ⟨hnew, by simp [hwaits], by simp [hwaits], fun {c'' id'} h => ?_⟩
    obtain ⟨rfl, rfl⟩ := Stage.waiting.inj (hwaits.symm.trans h)
    exact ⟨rfl, hnew.slot hslot⟩
  · obtain ⟨rfl, -⟩ := hreads.waiting hwaits
    refine ⟨hnew, by simp [hseeks], fun {c''} h => ?_, by simp [hseeks]⟩
    exact (Stage.seeking.inj (hseeks.symm.trans h)).symm

/-! ### Runs -/

/-- **What a read returns** is what the source answered for the class it waited for, and a schema
has been loaded for less than the time to live. -/
theorem Sound.of_returns (hsound : Sound hs t) (hstep : Step t (.returns r id outcome) t') :
    ∃ c, t.stage r = .waiting c id ∧ .ends id c outcome ∈ hs ∧
      ∀ schema, outcome = .ok schema → ∃ earlier later,
        hs = earlier ++ .ends id c (.ok schema) :: later ∧ elapsed later < t.cache.ttlMs := by
  cases hstep with
  | @returns _ _ c _ _ hwaits hc =>
    refine ⟨c, hwaits, ?_⟩
    obtain ⟨-, rfl⟩ := hsound.waiting hwaits
    rcases conclude_eq_some.1 hc with ⟨schema, ms, hload, hvalid, hv, -⟩ | ⟨_, _, -, -, hv, -⟩ |
      ⟨e, hload, hv, -⟩
    · obtain rfl := Verdict.answer.inj hv
      obtain ⟨earlier, later, rfl, hms⟩ := hsound.loaded hload
      refine ⟨by simp, fun schema' heq => ⟨earlier, later, Except.ok.inj heq ▸ rfl, ?_⟩⟩
      omega
    · exact nomatch hv
    · obtain rfl := Verdict.answer.inj hv
      exact ⟨hsound.failed hload, nofun⟩

theorem Sound.of_peeks {schema : ClassSchema} (hsound : Sound hs t)
    (hstep : Step t (.peeks c (some schema)) t') :
    ∃ id earlier later,
      hs = earlier ++ .ends id c (.ok schema) :: later ∧ elapsed later < t.cache.ttlMs := by
  generalize hanswer : some schema = answer at hstep
  cases hstep with
  | peeks =>
    obtain ⟨id, ms, hslot, hload, hvalid⟩ := peek?_eq_some.1 hanswer.symm
    obtain ⟨earlier, later, rfl, hms⟩ := hsound.loaded hload
    obtain ⟨-, rfl⟩ := hsound.slot hslot
    refine ⟨id, earlier, later, rfl, ?_⟩
    omega

/-- **No stale answers.** In every run of a cache, whatever its reads, loads, changes and passing
time, and in whatever order:

* a read that starts after a change that concerns its class returns what the source answered to a
  load of the class that was issued, and was over, after the change, and never to one issued
  before it;
* a schema that a read returns was loaded less than the time to live before;
* a schema that is peeked at was loaded less than the time to live before. -/
theorem answers_fresh {ttlMs nowMs : Nat} (hrun : Run (new ttlMs nowMs) hs t) :
    (∀ before change dropped between r c during id outcome rest,
      hs = before ++ .drops change dropped ::
        (between ++ .starts r c :: (during ++ .returns r id outcome :: rest)) →
      change.concerns c →
        (∀ c', .issues id c' ∉ before) ∧ .issues id c ∈ between ++ during ∧
          .ends id c outcome ∈ between ++ during) ∧
    (∀ before r id schema rest, hs = before ++ .returns r id (.ok schema) :: rest →
      ∃ c earlier later,
        before = earlier ++ .ends id c (.ok schema) :: later ∧ elapsed later < ttlMs) ∧
    ∀ before c schema rest, hs = before ++ .peeks c (some schema) :: rest →
      ∃ id earlier later,
        before = earlier ++ .ends id c (.ok schema) :: later ∧ elapsed later < ttlMs := by
  refine ⟨?_, ?_, ?_⟩
  · rintro before change dropped between r c during id outcome rest rfl hc
    obtain ⟨t₁, t₂, hrun₁, hdrops, hrun₂⟩ := hrun.split_cons
    obtain ⟨t₃, t₄, hrun₃, hstarts, hrun₄⟩ := hrun₂.split_cons
    obtain ⟨t₅, t₆, hrun₅, hstep, -⟩ := hrun₄.split_cons
    -- The loads before the change are the first ones, up to the number that is next then.
    have hrenewed : Renewed t₁.cache.nextLoad c t₂ := by
      cases hdrops with
      | drops => exact renewed_apply hc
    have hanew : ReadsAnew t₁.cache.nextLoad c r t₄ := by
      have hrenewed := (hrun₃.keeps hrenewed fun hstep h => h.step hstep).step hstarts
      cases hstarts with
      | starts => exact ⟨hrenewed, by simp [move], by simp [move, eq_comm], by simp [move]⟩
    have hreads := hrun₅.keeps hanew fun hstep h => h.step hstep
    have hall := (((hrun₁.snoc hdrops).append hrun₃).snoc hstarts).append hrun₅
    obtain ⟨c', hwaits, hends, -⟩ := hall.sound.of_returns hstep
    obtain ⟨rfl, hge⟩ := hreads.waiting hwaits
    have hbefore (c : String) : .issues id c ∉ before := fun hmem =>
      Nat.not_lt.2 hge (hrun₁.sound.issued_lt (hrun₁.sound.issued.1 hmem).1)
    have hbefore' (c : String) (o : Outcome ClassSchema) : .ends id c o ∉ before := fun hmem =>
      Nat.not_lt.2 hge (hrun₁.sound.issued_lt (hrun₁.sound.ended hmem).1)
    obtain ⟨hissued, hclass, -⟩ := hall.sound.ended hends
    have hissues := hall.sound.issued.2 ⟨hissued, hclass⟩
    simp only [List.append_assoc, List.mem_append, List.mem_cons] at hends hissues ⊢
    exact ⟨hbefore, by simpa [hbefore] using hissues, by simpa [hbefore'] using hends⟩
  · rintro before r id schema rest rfl
    obtain ⟨t₁, t₂, hbefore, hstep, -⟩ := hrun.split_cons
    obtain ⟨c, -, -, hage⟩ := hbefore.sound.of_returns hstep
    obtain ⟨earlier, later, heq, hlt⟩ := hage schema rfl
    exact ⟨c, earlier, later, heq, Nat.lt_of_lt_of_eq hlt hbefore.ttlMs_eq⟩
  · rintro before c schema rest rfl
    obtain ⟨t₁, t₂, hbefore, hstep, -⟩ := hrun.split_cons
    obtain ⟨id, earlier, later, heq, hlt⟩ := hbefore.sound.of_peeks hstep
    exact ⟨id, earlier, later, heq, Nat.lt_of_lt_of_eq hlt hbefore.ttlMs_eq⟩

/-- A read begins a load, which is in flight when its class changes. -/
def overtaken : List Happening :=
  [.starts 0 "N", .begins 0 0, .issues 0 "N"]

/-- Another read begins a load of its own. The older load ends last. -/
def overtaking : List Happening :=
  [.begins 1 1, .issues 1 "N", .passes 3, .ends 1 "N" (.ok ⟨"N", [("n", .number)], []⟩),
    .ends 0 "N" (.ok ⟨"N", [], []⟩), .returns 0 0 (.ok ⟨"N", [], []⟩), .passes 9]

/-- The read that started after the change returns the newer schema, nine milliseconds old. -/
theorem answers_fresh_overtaken :
    (∃ t, Run (new 10 0) (overtaken ++ .drops (.ofClass "N") ["N"] :: ([] ++ .starts 1 "N" ::
      (overtaking ++ [.returns 1 1 (.ok ⟨"N", [("n", .number)], []⟩)]))) t) ∧
    (∀ c', .issues 1 c' ∉ overtaken) ∧ .issues 1 "N" ∈ [] ++ overtaking ∧
      .ends 1 "N" (.ok ⟨"N", [("n", .number)], []⟩) ∈ [] ++ overtaking := by
  have hrun : ∃ t, Run (new 10 0) (overtaken ++ .drops (.ofClass "N") ["N"] ::
      ([] ++ .starts 1 "N" ::
        (overtaking ++ [.returns 1 1 (.ok ⟨"N", [("n", .number)], []⟩)]))) t :=
    ⟨_, .cons (.starts (by decide) rfl) <| .cons (.begins rfl rfl) <|
      .cons (.issues (r := 0) rfl (by decide)) <| .cons .drops <| .cons (.starts (by decide) rfl) <|
      .cons (.begins rfl rfl) <| .cons (.issues (r := 1) rfl (by decide)) <| .cons .passes <|
      .cons (.ends (by decide) rfl) <| .cons (.ends (by decide) rfl) <|
      .cons (.returns rfl rfl) <| .cons .passes <| .cons (.returns rfl rfl) .nil⟩
  obtain ⟨t, h⟩ := hrun
  exact ⟨⟨t, h⟩, (answers_fresh h).1 _ _ _ _ _ _ _ _ _ _ rfl rfl⟩

end Traffic

end SchemaCache

end

namespace SchemaCache

/-- Whether a change has dropped a load of a class. -/
def Happening.dropsLoad (c : String) : Happening → Bool
  | .drops _ dropped => dropped.contains c
  | _ => false

/-- A load that no read is answered from any more. -/
def Load.Spent (ttlMs nowMs : Nat) : Load → Prop
  | .inFlight => False
  | .loaded _ ms => ttlMs ≤ nowMs - ms
  | .failed _ => True

namespace Traffic

variable {first t t' : Traffic} {h : Happening} {hs : List Happening} {ttlMs nowMs id : Nat}
  {c : String} {outcome : Outcome ClassSchema}

/-! ### Counting -/

/-- The loads of a class that the source was asked for. -/
def issuedLoads (c : String) (hs : List Happening) : List Nat :=
  hs.filterMap fun
    | .issues id c' => if c' = c then some id else none
    | _ => none

/-- The loads of a class that failed. -/
def failedLoads (c : String) (hs : List Happening) : List Nat :=
  hs.filterMap fun
    | .ends id c' (.error _) => if c' = c then some id else none
    | _ => none

/-- The loads of a class whose schemas have expired. -/
def expiredLoads (ttlMs : Nat) (c : String) : List Happening → List Nat
  | [] => []
  | .ends id c' (.ok _) :: later =>
    if c' = c ∧ ttlMs ≤ elapsed later then id :: expiredLoads ttlMs c later
    else expiredLoads ttlMs c later
  | _ :: later => expiredLoads ttlMs c later

/-- The number of changes that dropped a load of a class. -/
def invalidations (c : String) (hs : List Happening) : Nat := hs.countP (·.dropsLoad c)

theorem mem_issuedLoads : id ∈ issuedLoads c hs ↔ .issues id c ∈ hs := by
  simp only [issuedLoads, List.mem_filterMap]
  constructor
  · rintro ⟨h, hmem, heq⟩
    split at heq
    · split at heq
      · rename_i hc
        exact Option.some.inj heq ▸ hc ▸ hmem
      · exact nomatch heq
    · exact nomatch heq
  · exact fun hmem => ⟨_, hmem, by simp⟩

theorem mem_failedLoads {e : EngineError} (hmem : .ends id c (.error e) ∈ hs) :
    id ∈ failedLoads c hs :=
  List.mem_filterMap.2 ⟨_, hmem, by simp⟩

theorem mem_expiredLoads {schema : ClassSchema} {earlier later : List Happening}
    (hold : ttlMs ≤ elapsed later) :
    id ∈ expiredLoads ttlMs c (earlier ++ .ends id c (.ok schema) :: later) := by
  induction earlier with
  | nil => simp [expiredLoads, hold]
  | cons h earlier ih =>
    rw [List.cons_append, expiredLoads.eq_def]
    split
    · rename_i heq
      exact nomatch heq
    · rename_i heq
      obtain ⟨-, rfl⟩ := List.cons.inj heq
      split
      · exact List.mem_cons_of_mem _ ih
      · exact ih
    · rename_i heq
      obtain ⟨-, rfl⟩ := List.cons.inj heq
      exact ih

/-! ### What becomes of a load -/

/-- A load that is over stays as it is. -/
theorem Step.load (hsound : Sound hs t) (hstep : Step t h t') {load : Load}
    (hload : t.cache.load? id = some load) (hover : load ≠ .inFlight) :
    t'.cache.load? id = some load := by
  have hsame {cache : SchemaCache} (hloads : cache.loads = t.cache.loads) :
      cache.load? id = some load := by rwa [load?, hloads]
  cases hstep with
  | begins _ he =>
    obtain ⟨-, rfl, rfl⟩ := enter_eq_true.1 he
    have hne : id ≠ t.cache.nextLoad := Nat.ne_of_lt (hsound.load_lt hload)
    simpa [move, load?, List.lookup_cons, beq_eq_false_iff_ne.2 hne] using hload
  | ends _ hopen =>
    have hne : id ≠ _ := fun heq =>
      hover (Option.some.inj (hload.symm.trans ((congrArg _ heq).trans hopen)))
    exact (load?_complete ..).trans ((if_neg hne).trans hload)
  | joins _ he => exact hsame ((enter_eq_false.1 he).2 ▸ rfl)
  | returns _ hc => exact hsame (conclude_frame hc).1
  | retries _ hc => exact hsame (conclude_frame hc).1
  | drops => exact hsame (loads_apply ..).1
  | _ => exact hsame rfl

theorem Step.nowMs_le (hstep : Step t h t') : t.nowMs ≤ t'.nowMs := by
  cases hstep with
  | passes => exact Nat.le_add_right ..
  | _ => exact Nat.le_refl _

/-- A load that is spent stays spent. -/
theorem Step.spent (hsound : Sound hs t) (hstep : Step t h t') {load : Load}
    (hload : t.cache.load? id = some load) (hspent : load.Spent ttlMs t.nowMs) :
    t'.cache.load? id = some load ∧ load.Spent ttlMs t'.nowMs := by
  refine ⟨hstep.load hsound hload (by rintro rfl; exact hspent), ?_⟩
  cases load with
  | inFlight => exact hspent
  | failed e => exact trivial
  | loaded schema ms => exact Nat.le_trans hspent (Nat.sub_le_sub_right hstep.nowMs_le ms)

/-- A load of a new number is the one that the cache keeps. -/
theorem Step.classOf (hstep : Step t h t') (hlt : id < t'.cache.nextLoad) :
    id < t.cache.nextLoad ∧ t'.classOf id = t.classOf id ∨
      t'.cache.slots.lookup (t'.classOf id) = some id := by
  cases hstep with
  | begins _ he =>
    obtain ⟨-, rfl, rfl⟩ := enter_eq_true.1 he
    rcases Nat.lt_succ_iff_lt_or_eq.1 hlt with hlt | rfl
    · exact .inl ⟨hlt, Function.update_of_ne (Nat.ne_of_lt hlt) ..⟩
    · exact .inr (by simp [move, Members.lookup_insert])
  | joins _ he => exact .inl ⟨(enter_eq_false.1 he).2 ▸ hlt, rfl⟩
  | returns _ hc => exact .inl ⟨Nat.lt_of_lt_of_eq hlt (conclude_frame hc).2.1, rfl⟩
  | retries _ hc => exact .inl ⟨Nat.lt_of_lt_of_eq hlt (conclude_frame hc).2.1, rfl⟩
  | drops => exact .inl ⟨Nat.lt_of_lt_of_eq hlt (loads_apply ..).2.1, rfl⟩
  | _ => exact .inl ⟨hlt, rfl⟩

/-- A read drops a load only when the load is spent. -/
theorem spent_of_conclude {cache cache' : SchemaCache} {verdict : Verdict} {k : Nat}
    {name : String} (hc : cache.conclude name k nowMs = some (verdict, cache'))
    (hslot : cache.slots.lookup c = some id) :
    cache'.slots.lookup c = some id ∨
      ∃ load, cache.load? id = some load ∧ load.Spent cache.ttlMs nowMs := by
  have hevict : ∀ load, cache.load? k = some load → load.Spent cache.ttlMs nowMs →
      (cache.evict name k).slots.lookup c = some id ∨
        ∃ load, cache.load? id = some load ∧ load.Spent cache.ttlMs nowMs := by
    intro load hload hspent
    rw [lookup_evict]
    split
    · rename_i h
      obtain ⟨rfl, hk⟩ := h
      obtain rfl := Option.some.inj (hslot.symm.trans hk)
      exact .inr ⟨load, hload, hspent⟩
    · exact .inl hslot
  rcases conclude_eq_some.1 hc with ⟨_, _, -, -, -, rfl⟩ | ⟨_, _, hload, hold, -, rfl⟩ |
    ⟨_, hload, -, rfl⟩
  · exact .inl hslot
  · exact hevict _ hload hold
  · exact hevict _ hload trivial

/-- **How a load leaves the cache**: by a change that drops it, or spent. -/
theorem Step.slot_leaves (hstep : Step t h t') (hslot : t.cache.slots.lookup c = some id) :
    t'.cache.slots.lookup c = some id ∨ h.dropsLoad c ∨
      ∃ load, t.cache.load? id = some load ∧ load.Spent t.cache.ttlMs t.nowMs := by
  cases hstep with
  | joins _ he => exact .inl ((enter_eq_false.1 he).2 ▸ hslot)
  | @begins _ _ c' _ _ he =>
    obtain ⟨hnone, rfl, rfl⟩ := enter_eq_true.1 he
    have hne : c ≠ c' := by
      rintro rfl
      exact nomatch hnone.symm.trans hslot
    exact .inl (by simpa [move, Members.lookup_insert, hne] using hslot)
  | returns _ hc => exact (spent_of_conclude hc hslot).imp_right .inr
  | retries _ hc => exact (spent_of_conclude hc hslot).imp_right .inr
  | @drops change =>
    by_cases hc : change.concerns c
    · refine .inr (.inl (List.contains_iff_mem.2 (mem_dropped.2 ⟨?_, hc⟩)))
      rw [hslot]
      rfl
    · exact .inl ((lookup_apply ..).trans ((if_neg hc).trans hslot))
  | _ => exact .inl hslot

/-! ### Runs -/

/-- **Every load of a class is accounted for**: it is the one that the cache keeps, one of those
that changes have dropped, one for each, or it is spent. -/
def Accounted (c : String) (hs : List Happening) (t : Traffic) : Prop :=
  ∃ dropped : List Nat, dropped.length ≤ invalidations c hs ∧
    ∀ id < t.cache.nextLoad, t.classOf id = c →
      t.cache.slots.lookup c = some id ∨ id ∈ dropped ∨
        ∃ load, t.cache.load? id = some load ∧ load.Spent t.cache.ttlMs t.nowMs

theorem Accounted.step (hsound : Sound hs t) (hacc : Accounted c hs t) (hstep : Step t h t')
    (httl : t'.cache.ttlMs = t.cache.ttlMs) : Accounted c (hs ++ [h]) t' := by
  obtain ⟨dropped, hlength, hloads⟩ := hacc
  -- The list grows by the load that a change drops now.
  obtain ⟨gone, hgone, hslot⟩ : ∃ gone : List Nat,
      gone.length ≤ (if h.dropsLoad c then 1 else 0) ∧
        ∀ id, t.cache.slots.lookup c = some id → h.dropsLoad c → id ∈ gone := by
    by_cases hdrops : h.dropsLoad c
    · refine ⟨(t.cache.slots.lookup c).toList, ?_, fun id hslot _ => by simp [hslot]⟩
      cases t.cache.slots.lookup c <;> simp [hdrops]
    · exact ⟨[], Nat.zero_le _, fun _ _ h => absurd h hdrops⟩
  refine ⟨gone ++ dropped, ?_, fun id hlt hclass => ?_⟩
  · rw [List.length_append, invalidations, List.countP_append, List.countP_singleton,
      Nat.add_comm]
    exact Nat.add_le_add hlength hgone
  · rcases hstep.classOf hlt with ⟨hlt, hof⟩ | hnew
    · rcases hloads id hlt (hof.symm.trans hclass) with hkept | hmem | ⟨load, hload, hspent⟩
      · rcases hstep.slot_leaves hkept with hkept | hdrops | ⟨load, hload, hspent⟩
        · exact .inl hkept
        · exact .inr (.inl (List.mem_append_left _ (hslot id hkept hdrops)))
        · exact .inr (.inr ⟨load, httl ▸ hstep.spent hsound hload hspent⟩)
      · exact .inr (.inl (List.mem_append_right _ hmem))
      · exact .inr (.inr ⟨load, httl ▸ hstep.spent hsound hload hspent⟩)
    · exact .inl (hclass ▸ hnew)

theorem Run.accounted (hrun : Run (new ttlMs nowMs) hs t) (c : String) : Accounted c hs t := by
  induction hrun with
  | nil => exact ⟨[], Nat.zero_le _, fun id hlt => absurd hlt (Nat.not_lt_zero id)⟩
  | snoc hrun hstep ih =>
    exact ih.step hrun.sound hstep ((hrun.snoc hstep).ttlMs_eq.trans hrun.ttlMs_eq.symm)

/-- The source is asked for each load once. -/
theorem Run.nodup_issuedLoads (hrun : Run (new ttlMs nowMs) hs t) (c : String) :
    (issuedLoads c hs).Nodup := by
  induction hrun with
  | nil => exact List.nodup_nil
  | @snoc hs h t t' hrun hstep ih =>
    rw [issuedLoads, List.filterMap_append]
    refine List.Nodup.append ih ?_ ?_
    · rw [List.filterMap_cons]
      split <;> simp
    · rw [List.disjoint_left]
      intro id hold hnew
      have hissues : .issues id c = h := by simpa using mem_issuedLoads.1 hnew
      subst hissues
      have hissued := (hrun.sound.issued.1 (mem_issuedLoads.1 hold)).1
      cases hstep with
      | issues _ hnot => exact hnot hissued

/-- A load that is spent failed or has expired. -/
theorem Sound.of_spent (hsound : Sound hs t) {load : Load}
    (hload : t.cache.load? id = some load) (hspent : load.Spent t.cache.ttlMs t.nowMs) :
    id ∈ failedLoads (t.classOf id) hs ∨
      id ∈ expiredLoads t.cache.ttlMs (t.classOf id) hs := by
  cases load with
  | inFlight => exact hspent.elim
  | failed e => exact .inl (mem_failedLoads (hsound.failed hload))
  | loaded schema ms =>
    obtain ⟨earlier, later, rfl, hms⟩ := hsound.loaded hload
    have hold : t.cache.ttlMs ≤ t.nowMs - ms := hspent
    exact .inr (mem_expiredLoads (by omega))

theorem over_injective {ms ms' : Nat} {o o' : Outcome ClassSchema}
    (h : Load.over ms o = .over ms' o') : o = o' := by
  cases o <;> cases o' <;> simp_all [Load.over]

/-- **Loads are shared.** In every run of a cache, whatever its reads, loads, changes and passing
time, and in whatever order:

* the loads of a class that the source is asked for are at most one more than the changes that
  dropped a load of the class, the loads of it that failed and the loads of it whose schemas have
  expired, together;
* all reads that return from one load return the same outcome;
* a read that waits for a load that is over can go on, and gets the outcome of the load, be it a
  schema or an error, unless the schema has expired: then it starts over. -/
theorem coalesces (hrun : Run (new ttlMs nowMs) hs t) :
    (∀ c, (issuedLoads c hs).length ≤ 1 + invalidations c hs + (failedLoads c hs).length +
      (expiredLoads ttlMs c hs).length) ∧
    (∀ r r' id outcome outcome', .returns r id outcome ∈ hs → .returns r' id outcome' ∈ hs →
      outcome = outcome') ∧
    ∀ r c id c' outcome, t.stage r = .waiting c id → .ends id c' outcome ∈ hs →
      (∃ t', Step t (.returns r id outcome) t') ∨
        ∃ schema, outcome = .ok schema ∧ id ∈ expiredLoads ttlMs c hs ∧
          ∃ t', Step t (.retries r id) t' := by
  have httl : t.cache.ttlMs = ttlMs := hrun.ttlMs_eq
  refine ⟨fun c => ?_, ?_, ?_⟩
  · obtain ⟨dropped, hlength, hloads⟩ := hrun.accounted c
    have hsubset : issuedLoads c hs ⊆ (t.cache.slots.lookup c).toList ++ dropped ++
        failedLoads c hs ++ expiredLoads ttlMs c hs := by
      intro id hmem
      obtain ⟨hissued, rfl⟩ := hrun.sound.issued.1 (mem_issuedLoads.1 hmem)
      simp only [List.mem_append]
      rcases hloads id (hrun.sound.issued_lt hissued) rfl with hslot | hdropped |
        ⟨load, hload, hspent⟩
      · exact .inl (.inl (.inl (by simp [hslot])))
      · exact .inl (.inl (.inr hdropped))
      · exact (hrun.sound.of_spent hload hspent).imp .inr fun h => httl ▸ h
    have hle := (List.subperm_of_subset (hrun.nodup_issuedLoads c) hsubset).length_le
    have hslot : (t.cache.slots.lookup c).toList.length ≤ 1 := by
      cases t.cache.slots.lookup c <;> simp
    simp only [List.length_append] at hle
    omega
  · intro r r' id outcome outcome' hreturns hreturns'
    have hends : ∀ r outcome, .returns r id outcome ∈ hs → ∃ c, .ends id c outcome ∈ hs := by
      intro r outcome hmem
      obtain ⟨before, after, rfl⟩ := List.append_of_mem hmem
      obtain ⟨t₁, t₂, hbefore, hstep, -⟩ := hrun.split_cons
      obtain ⟨c, -, hends, -⟩ := hbefore.sound.of_returns hstep
      exact ⟨c, List.mem_append_left _ hends⟩
    obtain ⟨c, hends₁⟩ := hends r outcome hreturns
    obtain ⟨c', hends₂⟩ := hends r' outcome' hreturns'
    obtain ⟨-, -, ms, hload⟩ := hrun.sound.ended hends₁
    obtain ⟨-, -, ms', hload'⟩ := hrun.sound.ended hends₂
    exact over_injective (Option.some.inj (hload.symm.trans hload'))
  · intro r c id c' outcome hwaits hends
    obtain ⟨-, rfl⟩ := hrun.sound.waiting hwaits
    obtain ⟨-, -, ms, hload⟩ := hrun.sound.ended hends
    cases outcome with
    | error e =>
      exact .inl ⟨_, .returns hwaits
        (conclude_eq_some.2 (.inr (.inr ⟨e, hload, rfl, rfl⟩)))⟩
    | ok schema =>
      by_cases hvalid : t.nowMs - ms < t.cache.ttlMs
      · exact .inl ⟨_, .returns hwaits
          (conclude_eq_some.2 (.inl ⟨schema, ms, hload, hvalid, rfl, rfl⟩))⟩
      · refine .inr ⟨schema, rfl, ?_, _, .retries hwaits (conclude_eq_some.2
          (.inr (.inl ⟨schema, ms, hload, Nat.not_lt.1 hvalid, rfl, rfl⟩)))⟩
        obtain ⟨earlier, later, rfl, hms⟩ := hrun.sound.loaded hload
        exact mem_expiredLoads (by omega)

/-- Two reads wait for a load that fails. The first drops it, and a third read begins another
before the second goes on, which leaves the new load where it is. -/
def contended : List Happening :=
  [.starts 0 "N", .starts 1 "N", .begins 0 0, .joins 1 0, .issues 0 "N",
    .ends 0 "N" (.error .objectNotFound), .returns 0 0 (.error .objectNotFound),
    .starts 2 "N", .begins 2 1, .issues 1 "N", .returns 1 0 (.error .objectNotFound),
    .starts 3 "N", .joins 3 1]

/-- The source is asked twice, once more than loads have failed. -/
theorem coalesces_contended :
    (∃ t, Run (new 10 0) contended t) ∧
      (issuedLoads "N" contended).length ≤ 1 + invalidations "N" contended +
        (failedLoads "N" contended).length + (expiredLoads 10 "N" contended).length ∧
      (issuedLoads "N" contended).length = 2 ∧ (failedLoads "N" contended).length = 1 := by
  have hrun : ∃ t, Run (new 10 0) contended t :=
    ⟨_, .cons (.starts (by decide) rfl) <| .cons (.starts (by decide) rfl) <|
      .cons (.begins rfl rfl) <| .cons (.joins rfl rfl) <|
      .cons (.issues (r := 1) rfl (by decide)) <|
      .cons (.ends (by decide) rfl) <| .cons (.returns rfl rfl) <|
      .cons (.starts (by decide) rfl) <| .cons (.begins rfl rfl) <|
      .cons (.issues (r := 2) rfl (by decide)) <| .cons (.returns rfl rfl) <|
      .cons (.starts (by decide) rfl) <| .cons (.joins rfl rfl) .nil⟩
  obtain ⟨t, h⟩ := hrun
  exact ⟨⟨t, h⟩, (coalesces h).1 "N", by decide, by decide⟩

end Traffic

end SchemaCache

end ObjectEngine
