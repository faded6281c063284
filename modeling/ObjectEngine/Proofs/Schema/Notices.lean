import ObjectEngine.Proofs.Schema.Coalescing
import ObjectEngine.Schema.Sharing

/-!
# Notices between caches

A cache may listen to the changes that another publishes. `SchemaCache.Listening` is such a cache at
work, with the changes that wait for its listener, and `SchemaCache.Listening.Step` says what may
happen next: anything that may happen to the cache (`SchemaCache.Traffic.Step`), a publication, or
a turn of the listener. The queue of a listener is one that hands over every change in order or,
if it had to overwrite some, reports once that it did before it goes on. How many changes it holds
is left open: it may overwrite the oldest at any time. What the caches of a group make of their
notices at once (`CacheGroup.catchUp`) is one run of these steps (`exists_run_catchUp`).

A change that was published concerns the cache until its listener has taken it, or has been told
that changes were overwritten; from then on the cache keeps no load of its classes from before
(`SchemaCache.Listening.Owed`). So a listener that has taken everything has lost nothing:
`SchemaCache.Listening.answers_since`.
-/

namespace ObjectEngine

namespace SchemaCache

/-! ### A cache and its listener -/

/-- What may happen to a cache that listens to another. -/
inductive Event
  /-- Something happens to the cache itself. -/
  | occurs (h : Happening)
  | publishes (change : SchemaChange)
  /-- The oldest change that waits is lost. -/
  | overwrites
  /-- The listener learns that changes were lost, and all loads are dropped. -/
  | lags (classNames : List String)
  /-- The listener takes a change; it drops the loads of some classes. -/
  | receives (change : SchemaChange) (classNames : List String)

/-- What an event is to the cache alone. -/
def Event.happenings : Event → List Happening
  | .occurs h => [h]
  | .publishes _ | .overwrites => []
  | .lags classNames => [.drops .all classNames]
  | .receives change classNames => [.drops change classNames]

/-- What the events are to the cache alone. -/
def happenings (es : List Event) : List Happening := es.flatMap Event.happenings

@[simp] theorem happenings_append (es es' : List Event) :
    happenings (es ++ es') = happenings es ++ happenings es' := List.flatMap_append

@[simp] theorem happenings_cons (e : Event) (es : List Event) :
    happenings (e :: es) = e.happenings ++ happenings es := rfl

@[simp] theorem happenings_nil : happenings [] = [] := rfl

/-- The source is asked and answers at the cache itself. -/
theorem mem_happenings {h : Happening} (hsource : h.OfSource) {es : List Event} :
    h ∈ happenings es ↔ .occurs h ∈ es := by
  rw [happenings, List.mem_flatMap]
  constructor
  · rintro ⟨e, he, hmem⟩
    cases e with
    | occurs h' => exact List.mem_singleton.1 hmem ▸ he
    | publishes _ => exact absurd hmem List.not_mem_nil
    | overwrites => exact absurd hmem List.not_mem_nil
    | lags _ => exact (List.mem_singleton.1 hmem ▸ hsource).elim
    | receives _ _ => exact (List.mem_singleton.1 hmem ▸ hsource).elim
  · exact fun he => ⟨_, he, List.mem_singleton_self h⟩

theorem mem_issues {id : Nat} {c : String} {es : List Event} :
    .issues id c ∈ happenings es ↔ .occurs (.issues id c) ∈ es :=
  mem_happenings (h := .issues id c) trivial

theorem mem_ends {id : Nat} {c : String} {outcome : Outcome ClassSchema} {es : List Event} :
    .ends id c outcome ∈ happenings es ↔ .occurs (.ends id c outcome) ∈ es :=
  mem_happenings (h := .ends id c outcome) trivial

/-- A cache at work that listens to another. -/
structure Listening where
  traffic : Traffic
  /-- The changes that the listener has not taken yet, the oldest first. -/
  pending : List SchemaChange := []
  /-- Whether changes were lost that the listener has not been told of. -/
  lagged : Bool := false

namespace Listening

variable {first l l' : Listening} {e : Event} {es : List Event} {n : Nat} {c : String}

/-- A new cache that listens from its beginning. -/
def new (ttlMs nowMs : Nat) : Listening := { traffic := .new ttlMs nowMs }

/-- The listener has taken everything published so far. -/
def CaughtUp (l : Listening) : Prop := l.pending = [] ∧ l.lagged = false

/-- The cache after a change is applied to it. -/
def drop (l : Listening) (change : SchemaChange) : Listening :=
  { l with traffic := { l.traffic with cache := l.traffic.cache.apply change } }

/-- **What may happen next.** -/
inductive Step : Listening → Event → Listening → Prop
  | occurs {l : Listening} {h : Happening} {traffic : Traffic} :
    l.traffic.Step h traffic → Step l (.occurs h) { l with traffic }
  | publishes {l : Listening} {change : SchemaChange} :
    Step l (.publishes change) { l with pending := l.pending ++ [change] }
  | overwrites {l : Listening} {change : SchemaChange} {rest : List SchemaChange} :
    l.pending = change :: rest → Step l .overwrites { l with pending := rest, lagged := true }
  | lags {l : Listening} : l.lagged = true →
    Step l (.lags (l.traffic.cache.dropped .all)) { l.drop .all with lagged := false }
  | receives {l : Listening} {change : SchemaChange} {rest : List SchemaChange} :
    l.lagged = false → l.pending = change :: rest →
    Step l (.receives change (l.traffic.cache.dropped change))
      { l.drop change with pending := rest }

/-- What happened between two states, from the first to the last. -/
inductive Run (first : Listening) : List Event → Listening → Prop
  | nil : Run first [] first
  | snoc {es : List Event} {e : Event} {l l' : Listening} :
    Run first es l → Step l e l' → Run first (es ++ [e]) l'

theorem Run.append {es' : List Event} (hrun : Run first es l) (hrun' : Run l es' l') :
    Run first (es ++ es') l' := by
  induction hrun' with
  | nil => simpa using hrun
  | snoc _ hstep ih => simpa using ih.snoc hstep

/-- A run with a step before it. -/
theorem Run.cons (hstep : Step first e l) (hrun : Run l es l') : Run first (e :: es) l' := by
  simpa using (Run.nil.snoc hstep).append hrun

/-- To the cache alone, a step is at most one of its own. -/
theorem Step.traffic (hstep : Step l e l') : Traffic.Run l.traffic e.happenings l'.traffic := by
  cases hstep with
  | occurs h => exact .cons h .nil
  | publishes => exact .nil
  | overwrites _ => exact .nil
  | lags _ => exact .cons .drops .nil
  | receives _ _ => exact .cons .drops .nil

/-- **To the cache alone**, a run is one of its own. -/
theorem Run.traffic (hrun : Run first es l) :
    Traffic.Run first.traffic (happenings es) l.traffic := by
  induction hrun with
  | nil => exact .nil
  | snoc _ hstep ih => simpa using ih.append hstep.traffic

/-! ### The turns of a group -/

/-- Lost changes are the oldest. -/
theorem exists_run_overwrites (traffic : Traffic) (lost kept : List SchemaChange) (lagged : Bool) :
    ∃ es, Run ⟨traffic, lost ++ kept, lagged⟩ es
      ⟨traffic, kept, lagged || !lost.isEmpty⟩ := by
  induction lost generalizing lagged with
  | nil => exact ⟨[], by simpa using Run.nil⟩
  | cons change rest ih =>
    obtain ⟨es, hrun⟩ := ih true
    exact ⟨.overwrites :: es, by simpa using hrun.cons (.overwrites rfl)⟩

/-- The listener takes the changes one after another. -/
theorem exists_run_receives (traffic : Traffic) (pending : List SchemaChange) :
    ∃ es, Run ⟨traffic, pending, false⟩ es
      ⟨{ traffic with cache := pending.foldl SchemaCache.apply traffic.cache }, [], false⟩ := by
  induction pending generalizing traffic with
  | nil => exact ⟨[], .nil⟩
  | cons change rest ih =>
    obtain ⟨es, hrun⟩ := ih { traffic with cache := traffic.cache.apply change }
    exact ⟨_, hrun.cons (.receives rfl rfl)⟩

/-- **What the caches of a group make of their notices** is a run of these steps: of a queue that
has run over the newest changes are left, and the listener is told so first. -/
theorem exists_run_catchUp (traffic : Traffic) (unseen : List SchemaChange) :
    ∃ es, Run ⟨traffic, unseen.reverse, false⟩ es
      ⟨{ traffic with cache := CacheGroup.catchUp unseen traffic.cache }, [], false⟩ := by
  have hparts : unseen.reverse = (unseen.drop CacheGroup.queueCapacity).reverse ++
      (unseen.take CacheGroup.queueCapacity).reverse := by
    rw [← List.reverse_append, List.take_append_drop]
  obtain ⟨es, hlost⟩ := exists_run_overwrites traffic
    (unseen.drop CacheGroup.queueCapacity).reverse
    (unseen.take CacheGroup.queueCapacity).reverse false
  rw [← hparts, Bool.false_or, List.isEmpty_reverse] at hlost
  by_cases hfull : CacheGroup.queueCapacity < unseen.length
  · obtain ⟨es', hkept⟩ := exists_run_receives
      { traffic with cache := traffic.cache.invalidateAll }
      (unseen.take CacheGroup.queueCapacity).reverse
    have hne : (unseen.drop CacheGroup.queueCapacity).isEmpty = false :=
      List.isEmpty_eq_false_iff.2 fun hnil => by
        rw [List.drop_eq_nil_iff] at hnil
        omega
    rw [hne] at hlost
    rw [CacheGroup.catchUp, if_pos hfull]
    exact ⟨_, (hlost.snoc (.lags rfl)).append hkept⟩
  · obtain ⟨es', hkept⟩ := exists_run_receives traffic
      (unseen.take CacheGroup.queueCapacity).reverse
    rw [List.drop_eq_nil_of_le (Nat.not_lt.1 hfull)] at hlost
    rw [CacheGroup.catchUp, if_neg hfull]
    exact ⟨_, hlost.append hkept⟩

/-! ### What a publication is owed -/

/-- **A change of a class is still to come**, or the cache keeps none of the first `n` loads. -/
structure Owed (n : Nat) (c : String) (l : Listening) : Prop where
  next : n ≤ l.traffic.cache.nextLoad
  owed : (∃ change ∈ l.pending, change.concerns c) ∨ l.lagged = true ∨ l.traffic.Renewed n c

theorem Owed.renewed (howed : Owed n c l) (hcaught : l.CaughtUp) : l.traffic.Renewed n c := by
  obtain ⟨hpending, hlagged⟩ := hcaught
  rcases howed.owed with ⟨change, hmem, -⟩ | hlag | hrenewed
  · exact absurd (hpending ▸ hmem) List.not_mem_nil
  · exact absurd (hlagged.symm.trans hlag) (by simp)
  · exact hrenewed

/-- A change that concerns a class renews it, also for fewer loads. -/
theorem renewed_drop {change : SchemaChange} (hn : n ≤ l.traffic.cache.nextLoad)
    (hc : change.concerns c) : (l.drop change).traffic.Renewed n c where
  next := Nat.le_trans hn (Traffic.renewed_apply hc).next
  slot hslot := Nat.le_trans hn ((Traffic.renewed_apply hc).slot hslot)

/-- **What is owed is not lost**: the listener takes it, or is told that it was overwritten. -/
theorem Owed.step (howed : Owed n c l) (hstep : Step l e l') : Owed n c l' := by
  obtain ⟨hn, howed⟩ := howed
  cases hstep with
  | occurs h =>
    exact ⟨Nat.le_trans hn h.slot.1, howed.imp_right fun h' => h'.imp_right fun h' => h'.step h⟩
  | publishes =>
    refine ⟨hn, howed.imp_left ?_⟩
    rintro ⟨change, hmem, hc⟩
    exact ⟨change, List.mem_append_left _ hmem, hc⟩
  | overwrites _ => exact ⟨hn, .inr (.inl rfl)⟩
  | lags _ =>
    have hrenewed : (l.drop .all).traffic.Renewed n c := renewed_drop hn rfl
    exact ⟨hrenewed.next, .inr (.inr hrenewed)⟩
  | @receives change rest hlagged hpending =>
    by_cases hc : change.concerns c
    · have hrenewed : (l.drop change).traffic.Renewed n c := renewed_drop hn hc
      exact ⟨hrenewed.next, .inr (.inr hrenewed)⟩
    have hdrops : l.traffic.Step (.drops change (l.traffic.cache.dropped change))
        (l.drop change).traffic := .drops
    refine ⟨Nat.le_trans hn hdrops.slot.1, ?_⟩
    rcases howed with ⟨change', hmem, hc'⟩ | hlag | hrenewed
    · rcases List.mem_cons.1 (hpending ▸ hmem) with rfl | hmem
      · exact absurd hc' hc
      · exact .inl ⟨change', hmem, hc'⟩
    · exact absurd (hlagged.symm.trans hlag) (by simp)
    · exact .inr (.inr (hrenewed.step hdrops))

/-- **After a publication** the loads from before it are the first ones, and it is owed. -/
theorem Run.owed {ttlMs nowMs : Nat} {before between : List Event} {change : SchemaChange}
    (hrun : Run (new ttlMs nowMs) es l) (hes : es = before ++ .publishes change :: between)
    (hc : change.concerns c) :
    ∃ n, (∀ id c', .occurs (.issues id c') ∈ before → id < n) ∧
      (∀ id c' outcome, .occurs (.ends id c' outcome) ∈ before → id < n) ∧ Owed n c l := by
  induction hrun generalizing between with
  | nil => exact absurd hes (by simp)
  | @snoc es e l l' hrun hstep ih =>
    obtain rfl | ⟨between, last, rfl⟩ := List.eq_nil_or_concat between
    · obtain ⟨rfl, hlast⟩ := List.append_inj' hes rfl
      obtain rfl := List.singleton_inj.1 hlast
      have hsound := hrun.traffic.sound
      refine ⟨l.traffic.cache.nextLoad, fun id c' hmem => ?_, fun id c' outcome hmem => ?_, ?_⟩
      · exact hsound.issued_lt (hsound.issued.1 (mem_issues.2 hmem)).1
      · exact hsound.issued_lt (hsound.ended (mem_ends.2 hmem)).1
      · cases hstep with
        | publishes => exact ⟨Nat.le_refl _, .inl ⟨change, by simp, hc⟩⟩
    · rw [List.concat_eq_append, ← List.cons_append, ← List.append_assoc] at hes
      obtain ⟨rfl, -⟩ := List.append_inj' hes rfl
      obtain ⟨n, hissues, hends, howed⟩ := ih rfl
      exact ⟨n, hissues, hends, howed.step hstep⟩

/-! ### What is read afterwards -/

/-- **A load from after a moment**: the source was asked for it then and not before, and answered
with the outcome. -/
structure LoadedSince (before after : List Event) (c : String) (id : Nat)
    (outcome : Outcome ClassSchema) : Prop where
  not_before : ∀ c', .occurs (.issues id c') ∉ before
  issued : .occurs (.issues id c) ∈ after
  ended : .occurs (.ends id c outcome) ∈ after

/-- A load with a later number than all loads before a moment is from after it. -/
theorem LoadedSince.of_ends {ttlMs nowMs id : Nat} {before after : List Event}
    {outcome : Outcome ClassSchema} {t : Traffic}
    (hrun : Traffic.Run (.new ttlMs nowMs) (happenings (before ++ after)) t)
    (hissues : ∀ id c', .occurs (.issues id c') ∈ before → id < n)
    (hends : ∀ id c' outcome, .occurs (.ends id c' outcome) ∈ before → id < n)
    (hge : n ≤ id) (hmem : .ends id c outcome ∈ happenings (before ++ after)) :
    LoadedSince before after c id outcome := by
  obtain ⟨hissued, hclass, -⟩ := hrun.sound.ended hmem
  have hissue := hrun.sound.issued.2 ⟨hissued, hclass⟩
  have hbefore (c' : String) : .occurs (.issues id c') ∉ before := fun h =>
    Nat.not_lt.2 hge (hissues id c' h)
  have hbefore' : .occurs (.ends id c outcome) ∉ before := fun h =>
    Nat.not_lt.2 hge (hends id c outcome h)
  refine ⟨hbefore, ?_, ?_⟩
  · exact (List.mem_append.1 (mem_issues.1 hissue)).resolve_left (hbefore c)
  · exact (List.mem_append.1 (mem_ends.1 hmem)).resolve_left hbefore'

/-- A publication is no load. -/
theorem LoadedSince.of_publishes {before after : List Event} {change : SchemaChange} {id : Nat}
    {outcome : Outcome ClassSchema}
    (h : LoadedSince before (.publishes change :: after) c id outcome) :
    LoadedSince before after c id outcome where
  not_before := h.not_before
  issued := (List.mem_cons.1 h.issued).resolve_left nofun
  ended := (List.mem_cons.1 h.ended).resolve_left nofun

/-- A read that starts once a class is renewed waits for later loads only. -/
theorem readsAnew_starts {t t' : Traffic} {r : Nat} (hrenewed : t.Renewed n c)
    (hstep : t.Step (.starts r c) t') : t'.ReadsAnew n c r := by
  have hrenewed' := hrenewed.step hstep
  cases hstep with
  | starts => exact ⟨hrenewed', by simp [Traffic.move], by simp [Traffic.move, eq_comm],
      by simp [Traffic.move]⟩

/-- **No change is lost between caches.** Let a change that concerns a class be published, and let
the listener later have taken everything published so far. Whatever the reads, the loads in flight,
the publications, the changes that were overwritten and the turns of the listener have been until
then and are from then on:

* a read of the class that starts afterwards returns what the source answered to a load that was
  issued after the change was published;
* a schema of the class that is peeked at afterwards is one that the source answered to such a
  load. -/
theorem answers_since {ttlMs nowMs : Nat} {before between later : List Event}
    {change : SchemaChange}
    (hrun : Run (new ttlMs nowMs) (before ++ .publishes change :: between) l)
    (hc : change.concerns c) (hcaught : l.CaughtUp) (hlater : Run l later l') :
    (∀ prior r during id outcome rest,
      later = prior ++ .occurs (.starts r c) ::
        (during ++ .occurs (.returns r id outcome) :: rest) →
      LoadedSince before (between ++ (prior ++ .occurs (.starts r c) :: during)) c id outcome) ∧
    ∀ prior schema rest, later = prior ++ .occurs (.peeks c (some schema)) :: rest →
      ∃ id, LoadedSince before (between ++ prior) c id (.ok schema) := by
  obtain ⟨n, hissues, hends, howed⟩ := hrun.owed rfl hc
  have hrenewed := howed.renewed hcaught
  refine ⟨?_, ?_⟩
  · rintro prior r during id outcome rest rfl
    have hreads := hlater.traffic
    simp only [happenings_append, happenings_cons, Event.happenings, List.singleton_append]
      at hreads
    obtain ⟨t₁, t₂, hprior, hstarts, hafter⟩ := hreads.split_cons
    obtain ⟨t₃, t₄, hduring, hreturns, -⟩ := hafter.split_cons
    have hanew := readsAnew_starts (hprior.keeps hrenewed fun hstep h => h.step hstep) hstarts
    have hwaiting := hduring.keeps hanew fun hstep h => h.step hstep
    have hall := ((hrun.traffic.append hprior).snoc hstarts).append hduring
    have hevents : happenings (before ++ .publishes change :: between) ++ happenings prior ++
        [.starts r c] ++ happenings during = happenings (before ++ .publishes change ::
          (between ++ (prior ++ .occurs (.starts r c) :: during))) := by
      simp [Event.happenings]
    rw [hevents] at hall
    obtain ⟨c', hwaits, hended, -⟩ := hall.sound.of_returns hreturns
    obtain ⟨rfl, hge⟩ := hwaiting.waiting hwaits
    exact (LoadedSince.of_ends hall hissues hends hge hended).of_publishes
  · rintro prior schema rest rfl
    have hlooks := hlater.traffic
    simp only [happenings_append, happenings_cons, Event.happenings, List.singleton_append]
      at hlooks
    obtain ⟨t₁, t₂, hprior, hpeeks, -⟩ := hlooks.split_cons
    have hslot := hprior.keeps hrenewed fun hstep h => h.step hstep
    have hall := hrun.traffic.append hprior
    rw [← happenings_append, List.append_assoc, List.cons_append] at hall
    generalize hanswer : some schema = answer at hpeeks
    cases hpeeks with
    | peeks =>
      obtain ⟨id, ms, hkept, hload, -⟩ := peek?_eq_some.1 hanswer.symm
      obtain ⟨earlier, later, hended, -⟩ := hall.sound.loaded hload
      obtain ⟨-, rfl⟩ := hall.sound.slot hkept
      refine ⟨id, LoadedSince.of_publishes
        (LoadedSince.of_ends hall hissues hends (hslot.slot hkept) ?_)⟩
      rw [hended]
      exact List.mem_append_right _ List.mem_cons_self

/-- A load of a class is in flight when the class changes. -/
def unheard : List Event :=
  [.occurs (.starts 0 "N"), .occurs (.begins 0 0), .occurs (.issues 0 "N")]

/-- The change is overwritten by another, and the listener learns that something was. -/
def overwritten : List Event :=
  [.publishes (.ofClass "M"), .overwrites, .lags ["N"], .receives (.ofClass "M") []]

/-- The schema of a load that was issued after the change. -/
def changedSchema : ClassSchema := ⟨"N", [("n", .number)], []⟩

/-- A read begins a load of its own. The older load ends last. -/
def heard : List Event :=
  [.occurs (.starts 1 "N"), .occurs (.begins 1 1), .occurs (.issues 1 "N"),
    .occurs (.ends 1 "N" (.ok changedSchema)), .occurs (.ends 0 "N" (.ok ⟨"N", [], []⟩)),
    .occurs (.returns 1 1 (.ok changedSchema)), .occurs (.peeks "N" (some changedSchema))]

/-- Both the read and the look get the newer schema. -/
theorem answers_since_overwritten : ∃ l l',
    Run (new 10 0) (unheard ++ .publishes (.ofClass "N") :: overwritten) l ∧ l.CaughtUp ∧
    Run l heard l' ∧
    LoadedSince unheard (overwritten ++ ([] ++ .occurs (.starts 1 "N") ::
      [.occurs (.begins 1 1), .occurs (.issues 1 "N"), .occurs (.ends 1 "N" (.ok changedSchema)),
        .occurs (.ends 0 "N" (.ok ⟨"N", [], []⟩))])) "N" 1 (.ok changedSchema) ∧
    ∃ id, LoadedSince unheard (overwritten ++ heard.dropLast) "N" id (.ok changedSchema) := by
  have hrun : ∃ l, Run (new 10 0) (unheard ++ .publishes (.ofClass "N") :: overwritten) l ∧
      l.CaughtUp ∧ ∃ l', Run l heard l' :=
    ⟨_, .cons (.occurs (.starts (by decide) rfl)) <| .cons (.occurs (.begins rfl rfl)) <|
      .cons (.occurs (.issues (r := 0) rfl (by decide))) <| .cons .publishes <|
      .cons .publishes <| .cons (.overwrites rfl) <| .cons (.lags rfl) <|
      .cons (.receives rfl rfl) .nil, ⟨rfl, rfl⟩, _,
      .cons (.occurs (.starts (by decide) rfl)) <| .cons (.occurs (.begins rfl rfl)) <|
      .cons (.occurs (.issues (r := 1) rfl (by decide))) <|
      .cons (.occurs (.ends (by decide) rfl)) <| .cons (.occurs (.ends (by decide) rfl)) <|
      .cons (.occurs (.returns rfl rfl)) <| .cons (.occurs .peeks) .nil⟩
  obtain ⟨l, hbefore, hcaught, l', hlater⟩ := hrun
  obtain ⟨hreads, hlooks⟩ := answers_since (c := "N") hbefore rfl hcaught hlater
  exact ⟨l, l', hbefore, hcaught, hlater, hreads _ _ _ _ _ _ rfl, hlooks _ _ _ rfl⟩

end Listening

end SchemaCache

end ObjectEngine
