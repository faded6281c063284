import Mathlib.Algebra.Ring.Nat
import Mathlib.Data.List.Induction
import Mathlib.Logic.Function.Basic
import ObjectEngine.Proofs.Schema.Cache

/-!
# Readers at work on a cache

A cache that is turned on serves any number of reads at once. `SchemaCache.Traffic` is such a
cache with its reads, the time and the loads that have been asked of the source, and
`SchemaCache.Traffic.Step` says what may happen next: a read starts, takes the load that the cache
keeps of its class or begins one, waits, and goes on once the load is over; a load is issued by a
read that waits for it, takes any time and ends in any way; schemas are peeked at, changes drop
loads, reads are given up, and time passes. Each happening is one operation of the cache, and every
order of them that the steps allow is a run.

A run is told by its happenings (`Traffic.Run`). `Traffic.Sound` is the invariant that ties the
state of the loads to what happened: `Traffic.Run.sound`.
-/

namespace ObjectEngine

namespace SchemaCache

variable {cache cache' : SchemaCache} {className other : String} {id : Nat}

/-! ### Reads, loads and time -/

/-- How far a read has got. -/
inductive Stage
  | ahead
  /-- Looks for a load of its class. -/
  | seeking (className : String)
  | waiting (className : String) (load : Nat)
  | over

/-- A cache with its reads, each by its number. -/
structure Traffic where
  cache : SchemaCache
  nowMs : Nat
  stage : Nat → Stage := fun _ => .ahead
  /-- The class that each load is for. -/
  classOf : Nat → String := fun _ => ""
  /-- The loads that have been asked of the source. -/
  issued : List Nat := []

/-- What may happen to a cache. -/
inductive Happening
  | starts (read : Nat) (className : String)
  /-- The read takes the load that the cache keeps. -/
  | joins (read load : Nat)
  /-- The cache keeps none, and the read puts a new one there. -/
  | begins (read load : Nat)
  /-- The source is asked for the schema of a class. -/
  | issues (load : Nat) (className : String)
  | ends (load : Nat) (className : String) (outcome : Outcome ClassSchema)
  | returns (read load : Nat) (outcome : Outcome ClassSchema)
  /-- The schema that the read waited for has expired, and it starts over. -/
  | retries (read load : Nat)
  /-- The read is given up by its caller. -/
  | leaves (read : Nat)
  | peeks (className : String) (answer : Option ClassSchema)
  /-- A change is applied; it drops the loads of some classes. -/
  | drops (change : SchemaChange) (classNames : List String)
  | passes (ms : Nat)

namespace Happening

/-- How long it takes. -/
def ms : Happening → Nat
  | .passes ms => ms
  | _ => 0

/-- Whether the source is asked or has answered. -/
def OfSource : Happening → Prop
  | .issues .. | .ends .. => True
  | _ => False

end Happening

/-- The time that passes. -/
def elapsed (hs : List Happening) : Nat := (hs.map Happening.ms).sum

theorem elapsed_append (hs hs' : List Happening) :
    elapsed (hs ++ hs') = elapsed hs + elapsed hs' := by
  simp [elapsed]

theorem elapsed_singleton (h : Happening) : elapsed [h] = h.ms := by simp [elapsed]

namespace Traffic

/-- A new cache that nobody has read from. -/
def new (ttlMs nowMs : Nat) : Traffic := { cache := { ttlMs }, nowMs }

/-- Moves a read on. -/
def move (t : Traffic) (r : Nat) (stage : Stage) : Traffic :=
  { t with stage := Function.update t.stage r stage }

/-- **What may happen next.** Reads of a cache that is turned off do not use it. -/
inductive Step : Traffic → Happening → Traffic → Prop
  | starts {t : Traffic} {r : Nat} {c : String} :
    0 < t.cache.ttlMs → t.stage r = .ahead → Step t (.starts r c) (t.move r (.seeking c))
  | joins {t : Traffic} {r id : Nat} {c : String} {cache : SchemaCache} :
    t.stage r = .seeking c → t.cache.enter c = (id, false, cache) →
    Step t (.joins r id) ({ t with cache }.move r (.waiting c id))
  | begins {t : Traffic} {r id : Nat} {c : String} {cache : SchemaCache} :
    t.stage r = .seeking c → t.cache.enter c = (id, true, cache) →
    Step t (.begins r id)
      ({ t with cache, classOf := Function.update t.classOf id c }.move r (.waiting c id))
  | issues {t : Traffic} {r id : Nat} {c : String} :
    t.stage r = .waiting c id → id ∉ t.issued →
    Step t (.issues id (t.classOf id)) { t with issued := id :: t.issued }
  | ends {t : Traffic} {id : Nat} {outcome : Outcome ClassSchema} :
    id ∈ t.issued → t.cache.load? id = some .inFlight →
    Step t (.ends id (t.classOf id) outcome)
      { t with cache := t.cache.complete id outcome t.nowMs }
  | returns {t : Traffic} {r id : Nat} {c : String} {outcome : Outcome ClassSchema}
      {cache : SchemaCache} :
    t.stage r = .waiting c id → t.cache.conclude c id t.nowMs = some (.answer outcome, cache) →
    Step t (.returns r id outcome) ({ t with cache }.move r .over)
  | retries {t : Traffic} {r id : Nat} {c : String} {cache : SchemaCache} :
    t.stage r = .waiting c id → t.cache.conclude c id t.nowMs = some (.expired, cache) →
    Step t (.retries r id) ({ t with cache }.move r (.seeking c))
  | leaves {t : Traffic} {r : Nat} : Step t (.leaves r) (t.move r .over)
  | peeks {t : Traffic} {c : String} : Step t (.peeks c (t.cache.peek? c t.nowMs)) t
  | drops {t : Traffic} {change : SchemaChange} :
    Step t (.drops change (t.cache.dropped change)) { t with cache := t.cache.apply change }
  | passes {t : Traffic} {ms : Nat} : Step t (.passes ms) { t with nowMs := t.nowMs + ms }

/-- What happened between two states, from the first to the last. -/
inductive Run (first : Traffic) : List Happening → Traffic → Prop
  | nil : Run first [] first
  | snoc {hs : List Happening} {h : Happening} {t t' : Traffic} :
    Run first hs t → Step t h t' → Run first (hs ++ [h]) t'

variable {first t t' : Traffic} {h : Happening} {hs hs' : List Happening}

/-- A run goes through a state after each of its happenings. -/
theorem Run.split (hrun : Run first (hs ++ hs') t') : ∃ t, Run first hs t ∧ Run t hs' t' := by
  induction hs' using List.reverseRec generalizing t' with
  | nil => exact ⟨t', by simpa using hrun, .nil⟩
  | append_singleton hs' h ih =>
    generalize hall : hs ++ (hs' ++ [h]) = all at hrun
    cases hrun with
    | nil => simp at hall
    | snoc hrun hstep =>
      rw [← List.append_assoc] at hall
      obtain ⟨rfl, hlast⟩ := List.append_inj' hall rfl
      obtain rfl := List.singleton_inj.1 hlast
      obtain ⟨t, hbefore, hafter⟩ := ih hrun
      exact ⟨t, hbefore, .snoc hafter hstep⟩

/-- The state around one happening of a run. -/
theorem Run.split_cons (hrun : Run first (hs ++ h :: hs') t') :
    ∃ t₁ t₂, Run first hs t₁ ∧ Step t₁ h t₂ ∧ Run t₂ hs' t' := by
  rw [← List.singleton_append, ← List.append_assoc] at hrun
  obtain ⟨t₂, hbefore, hafter⟩ := hrun.split
  generalize hall : hs ++ [h] = all at hbefore
  cases hbefore with
  | nil => simp at hall
  | snoc hrun hstep =>
    obtain ⟨rfl, hlast⟩ := List.append_inj' hall rfl
    obtain rfl := List.singleton_inj.1 hlast
    exact ⟨_, t₂, hrun, hstep, hafter⟩

theorem Run.append (hrun : Run first hs t) (hrun' : Run t hs' t') :
    Run first (hs ++ hs') t' := by
  induction hrun' with
  | nil => simpa using hrun
  | snoc _ hstep ih => simpa using ih.snoc hstep

/-- A run with a step before it. -/
theorem Run.cons (hstep : Step first h t) (hrun : Run t hs t') : Run first (h :: hs) t' := by
  simpa using (Run.nil.snoc hstep).append hrun

/-- **What every step keeps, a run keeps.** -/
theorem Run.keeps {P : Traffic → Prop} (hrun : Run first hs t) (hfirst : P first)
    (hstep : ∀ {t h t'}, Step t h t' → P t → P t') : P t := by
  induction hrun with
  | nil => exact hfirst
  | snoc _ h ih => exact hstep h ih

/-! ### What holds in every state -/

/-- **The loads are as they came to be.** Loads have the numbers given out so far, and those that
the cache keeps or a read waits for are of the right class. What is known of a load is what the
source was asked and has answered, and a schema is as old as its load has been over. -/
structure Sound (hs : List Happening) (t : Traffic) : Prop where
  slot : ∀ {c id}, t.cache.slots.lookup c = some id →
    id < t.cache.nextLoad ∧ t.classOf id = c
  waiting : ∀ {r c id}, t.stage r = .waiting c id → id < t.cache.nextLoad ∧ t.classOf id = c
  load_lt : ∀ {id load}, t.cache.load? id = some load → id < t.cache.nextLoad
  issued_lt : ∀ {id}, id ∈ t.issued → id < t.cache.nextLoad
  issued : ∀ {id c}, .issues id c ∈ hs ↔ id ∈ t.issued ∧ t.classOf id = c
  loaded : ∀ {id schema ms}, t.cache.load? id = some (.loaded schema ms) →
    ∃ earlier later, hs = earlier ++ .ends id (t.classOf id) (.ok schema) :: later ∧
      ms + elapsed later = t.nowMs
  failed : ∀ {id e}, t.cache.load? id = some (.failed e) →
    .ends id (t.classOf id) (.error e) ∈ hs
  ended : ∀ {id c outcome}, .ends id c outcome ∈ hs →
    id ∈ t.issued ∧ t.classOf id = c ∧ ∃ ms, t.cache.load? id = some (.over ms outcome)

theorem sound_new (ttlMs nowMs : Nat) : Sound [] (new ttlMs nowMs) := by
  constructor <;> simp [new, load?]

/-- What does not touch the loads keeps them as they are. -/
theorem Sound.frame (hsound : Sound hs t) (hsource : ¬h.OfSource)
    (hloads : t'.cache.loads = t.cache.loads) (hnext : t'.cache.nextLoad = t.cache.nextLoad)
    (hclass : t'.classOf = t.classOf) (hissued : t'.issued = t.issued)
    (htime : t'.nowMs = t.nowMs + h.ms)
    (hslots : ∀ {c id}, t'.cache.slots.lookup c = some id → t.cache.slots.lookup c = some id)
    (hstage : ∀ {r c id}, t'.stage r = .waiting c id →
      t.stage r = .waiting c id ∨ t.cache.slots.lookup c = some id) :
    Sound (hs ++ [h]) t' := by
  have hload (id : Nat) : t'.cache.load? id = t.cache.load? id := by rw [load?, load?, hloads]
  have hmem (h' : Happening) (hof : h'.OfSource) : h' ∈ hs ++ [h] ↔ h' ∈ hs := by
    have hne : h' ≠ h := fun heq => hsource (heq ▸ hof)
    simp [hne]
  constructor
  · intro c id hslot
    rw [hnext, hclass]
    exact hsound.slot (hslots hslot)
  · intro r c id hwaits
    rw [hnext, hclass]
    exact (hstage hwaits).elim hsound.waiting hsound.slot
  · intro id load hid
    rw [hnext]
    exact hsound.load_lt (hload id ▸ hid)
  · intro id hid
    rw [hnext]
    exact hsound.issued_lt (hissued ▸ hid)
  · intro id c
    rw [hmem (.issues id c) trivial, hissued, hclass]
    exact hsound.issued
  · intro id schema ms hid
    obtain ⟨earlier, later, rfl, hms⟩ := hsound.loaded (hload id ▸ hid)
    refine ⟨earlier, later ++ [h], by simp [hclass], ?_⟩
    rw [elapsed_append, elapsed_singleton, htime, ← hms, Nat.add_assoc]
  · intro id e hid
    rw [hmem (.ends ..) trivial, hclass]
    exact hsound.failed (hload id ▸ hid)
  · intro id c outcome hends
    rw [hissued, hclass, hload]
    exact hsound.ended ((hmem (.ends id c outcome) trivial).1 hends)

/-- A move to another stage than waiting makes no read wait. -/
theorem stage_move {r r' : Nat} {stage : Stage} {c : String} {id : Nat}
    (h : (t.move r stage).stage r' = .waiting c id)
    (hstage : ∀ c id, stage ≠ .waiting c id) : t.stage r' = .waiting c id := by
  by_cases hr : r' = r
  · subst hr
    exact absurd ((Function.update_self ..).symm.trans h) (hstage c id)
  · exact (Function.update_of_ne hr ..).symm.trans h

theorem Sound.begins (hsound : Sound hs t) {r : Nat} {c : String}
    (he : t.cache.enter c = (id, true, cache')) :
    Sound (hs ++ [.begins r id]) ({ t with
      cache := cache', classOf := Function.update t.classOf id c }.move r (.waiting c id)) := by
  obtain ⟨-, rfl, rfl⟩ := enter_eq_true.1 he
  have hclass {k : Nat} (hk : k < t.cache.nextLoad) :
      Function.update t.classOf t.cache.nextLoad c k = t.classOf k :=
    Function.update_of_ne (Nat.ne_of_lt hk) ..
  have hload {k : Nat} : load? { t.cache with
        slots := Members.insert c t.cache.nextLoad t.cache.slots
        loads := (t.cache.nextLoad, .inFlight) :: t.cache.loads
        nextLoad := t.cache.nextLoad + 1 } k =
      if k = t.cache.nextLoad then some .inFlight else t.cache.load? k := by
    by_cases hk : k = t.cache.nextLoad
    · simp [load?, hk]
    · simp [load?, List.lookup_cons, beq_eq_false_iff_ne.2 hk, hk]
  have hold {k : Nat} {load : Load} (hover : load ≠ .inFlight)
      (hk : (if k = t.cache.nextLoad then some .inFlight else t.cache.load? k) = some load) :
      t.cache.load? k = some load := by
    split at hk
    · exact absurd (Option.some.inj hk).symm hover
    · exact hk
  constructor
  · intro c' k hslot
    simp only [move, Members.lookup_insert] at hslot ⊢
    split at hslot
    · rename_i heq
      obtain rfl := Option.some.inj hslot
      exact ⟨Nat.lt_succ_self _, by simp [heq]⟩
    · obtain ⟨hlt, hof⟩ := hsound.slot hslot
      exact ⟨Nat.lt_succ_of_lt hlt, (hclass hlt).trans hof⟩
  · intro r' c' k hwaits
    by_cases hr : r' = r
    · subst hr
      obtain ⟨rfl, rfl⟩ : c = c' ∧ t.cache.nextLoad = k := by simpa [move] using hwaits
      exact ⟨Nat.lt_succ_self _, by simp [move]⟩
    · obtain ⟨hlt, hof⟩ := hsound.waiting (by simpa [move, hr] using hwaits)
      exact ⟨Nat.lt_succ_of_lt hlt, (hclass hlt).trans hof⟩
  · intro k load hk
    simp only [move, hload] at hk ⊢
    split at hk
    · rename_i heq
      exact heq ▸ Nat.lt_succ_self _
    · exact Nat.lt_succ_of_lt (hsound.load_lt hk)
  · exact fun hk => Nat.lt_succ_of_lt (hsound.issued_lt hk)
  · intro k c'
    rw [List.mem_append, List.mem_singleton, or_iff_left (by simp), hsound.issued]
    exact and_congr_right fun hk => by rw [← hclass (hsound.issued_lt hk)]; rfl
  · intro k schema ms hk
    simp only [move, hload] at hk
    have hk := hold (by simp) hk
    obtain ⟨earlier, later, rfl, hms⟩ := hsound.loaded hk
    refine ⟨earlier, later ++ [.begins r t.cache.nextLoad], ?_, ?_⟩
    · simp [move, hclass (hsound.load_lt hk)]
    · rw [elapsed_append, ← Nat.add_assoc, hms]
      rfl
  · intro k e hk
    simp only [move, hload] at hk
    have hk := hold (by simp) hk
    rw [List.mem_append]
    exact .inl (by simpa [move, hclass (hsound.load_lt hk)] using hsound.failed hk)
  · intro k c' outcome hends
    obtain ⟨hk, hof, ms, hover⟩ :=
      hsound.ended ((List.mem_append.1 hends).resolve_right (by simp))
    refine ⟨hk, (hclass (hsound.issued_lt hk)).trans hof, ms, ?_⟩
    simp only [move, hload]
    rw [if_neg (Nat.ne_of_lt (hsound.issued_lt hk)), hover]

theorem Sound.issues (hsound : Sound hs t) {r : Nat} {c : String}
    (hwaits : t.stage r = .waiting c id) :
    Sound (hs ++ [.issues id (t.classOf id)]) { t with issued := id :: t.issued } := by
  constructor
  · exact hsound.slot
  · exact hsound.waiting
  · exact hsound.load_lt
  · intro k hk
    rcases List.mem_cons.1 hk with rfl | hk
    · exact (hsound.waiting hwaits).1
    · exact hsound.issued_lt hk
  · intro k c'
    rw [List.mem_append, hsound.issued, List.mem_singleton, List.mem_cons]
    constructor
    · rintro (⟨hk, hof⟩ | hnew)
      · exact ⟨.inr hk, hof⟩
      · obtain ⟨rfl, rfl⟩ := Happening.issues.inj hnew
        exact ⟨.inl rfl, rfl⟩
    · rintro ⟨rfl | hk, rfl⟩
      · exact .inr rfl
      · exact .inl ⟨hk, rfl⟩
  · intro k schema ms hk
    obtain ⟨earlier, later, rfl, hms⟩ := hsound.loaded hk
    refine ⟨earlier, later ++ [.issues id (t.classOf id)], by simp, ?_⟩
    rw [elapsed_append, ← Nat.add_assoc, hms]
    rfl
  · exact fun hk => List.mem_append_left _ (hsound.failed hk)
  · intro k c' outcome hends
    obtain ⟨hk, hof, hover⟩ := hsound.ended ((List.mem_append.1 hends).resolve_right (by simp))
    exact ⟨List.mem_cons_of_mem _ hk, hof, hover⟩

theorem Sound.ends (hsound : Sound hs t) (hissued : id ∈ t.issued)
    (hopen : t.cache.load? id = some .inFlight) (outcome : Outcome ClassSchema) :
    Sound (hs ++ [.ends id (t.classOf id) outcome])
      { t with cache := t.cache.complete id outcome t.nowMs } := by
  have hload (k : Nat) : (t.cache.complete id outcome t.nowMs).load? k =
      if k = id then some (.over t.nowMs outcome) else t.cache.load? k := by
    rw [load?_complete, hopen]
    rfl
  constructor
  · exact hsound.slot
  · exact hsound.waiting
  · intro k load hk
    rw [hload] at hk
    split at hk
    · rename_i heq
      subst heq
      exact hsound.issued_lt hissued
    · exact hsound.load_lt hk
  · exact hsound.issued_lt
  · intro k c'
    rw [List.mem_append, List.mem_singleton, or_iff_left (by simp)]
    exact hsound.issued
  · intro k schema ms hk
    rw [hload] at hk
    split at hk
    · rename_i heq
      subst heq
      cases outcome with
      | error e => exact nomatch Option.some.inj hk
      | ok s =>
        obtain ⟨rfl, rfl⟩ := Load.loaded.inj (Option.some.inj hk)
        exact ⟨hs, [], rfl, rfl⟩
    · obtain ⟨earlier, later, rfl, hms⟩ := hsound.loaded hk
      refine ⟨earlier, later ++ [.ends id (t.classOf id) outcome], by simp, ?_⟩
      rw [elapsed_append, ← Nat.add_assoc, hms]
      rfl
  · intro k e hk
    rw [hload] at hk
    rw [List.mem_append, List.mem_singleton]
    split at hk
    · rename_i heq
      subst heq
      cases outcome with
      | ok s => exact nomatch Option.some.inj hk
      | error e' =>
        obtain rfl := Load.failed.inj (Option.some.inj hk)
        exact .inr rfl
    · exact .inl (hsound.failed hk)
  · intro k c' o hends
    rw [List.mem_append, List.mem_singleton] at hends
    rcases hends with hends | hnew
    · obtain ⟨hk, hof, ms, hover⟩ := hsound.ended hends
      have hne : k ≠ id := by
        rintro rfl
        rw [hopen] at hover
        cases o <;> exact nomatch Option.some.inj hover
      exact ⟨hk, hof, ms, by rw [hload, if_neg hne, hover]⟩
    · obtain ⟨rfl, rfl, rfl⟩ := Happening.ends.inj hnew
      exact ⟨hissued, rfl, t.nowMs, by rw [hload, if_pos rfl]⟩

/-- **A step keeps the loads as they came to be.** -/
theorem Sound.step (hsound : Sound hs t) (hstep : Step t h t') : Sound (hs ++ [h]) t' := by
  cases hstep with
  | begins _ he => exact hsound.begins he
  | issues hwaits _ => exact hsound.issues hwaits
  | ends hissued hopen => exact hsound.ends hissued hopen _
  | starts _ _ =>
    exact hsound.frame nofun rfl rfl rfl rfl rfl id fun hw =>
      .inl (stage_move hw fun _ _ => nofun)
  | @joins r id c _ _ he =>
    obtain ⟨hslot, rfl⟩ := enter_eq_false.1 he
    refine hsound.frame nofun rfl rfl rfl rfl rfl (fun h => h) fun {r' c' id'} hw => ?_
    by_cases hr : r' = r
    · obtain ⟨rfl, rfl⟩ : c = c' ∧ id = id' := by simpa [move, hr] using hw
      exact .inr hslot
    · exact .inl (by simpa [move, hr] using hw)
  | returns _ hc =>
    obtain ⟨hloads, hnext, -, hslots⟩ := conclude_frame hc
    exact hsound.frame nofun hloads hnext rfl rfl rfl hslots fun hw =>
      .inl (stage_move hw fun _ _ => nofun)
  | retries _ hc =>
    obtain ⟨hloads, hnext, -, hslots⟩ := conclude_frame hc
    exact hsound.frame nofun hloads hnext rfl rfl rfl hslots fun hw =>
      .inl (stage_move hw fun _ _ => nofun)
  | leaves =>
    exact hsound.frame nofun rfl rfl rfl rfl rfl id fun hw =>
      .inl (stage_move hw fun _ _ => nofun)
  | peeks => exact hsound.frame nofun rfl rfl rfl rfl rfl id .inl
  | @drops change =>
    obtain ⟨hloads, hnext, -⟩ := loads_apply t.cache change
    refine hsound.frame nofun hloads hnext rfl rfl rfl (fun {c id} h => ?_) .inl
    rw [lookup_apply] at h
    split at h
    · exact nomatch h
    · exact h
  | passes => exact hsound.frame nofun rfl rfl rfl rfl rfl id .inl

/-- **In every run the loads are as they came to be.** -/
theorem Run.sound {ttlMs nowMs : Nat} (hrun : Run (new ttlMs nowMs) hs t) : Sound hs t := by
  induction hrun with
  | nil => exact sound_new ttlMs nowMs
  | snoc _ hstep ih => exact ih.step hstep

/-- The time to live stays. -/
theorem Run.ttlMs_eq (hrun : Run first hs t) : t.cache.ttlMs = first.cache.ttlMs := by
  refine hrun.keeps (P := fun t => t.cache.ttlMs = first.cache.ttlMs) rfl fun hstep heq => ?_
  cases hstep with
  | joins _ he => exact (enter_eq_false.1 he).2 ▸ heq
  | begins _ he => exact (enter_eq_true.1 he).2.2 ▸ heq
  | returns _ hc => exact (conclude_frame hc).2.2.1.trans heq
  | retries _ hc => exact (conclude_frame hc).2.2.1.trans heq
  | drops => exact (loads_apply _ _).2.2.trans heq
  | _ => exact heq

end Traffic

end SchemaCache

end ObjectEngine
