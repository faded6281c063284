import ObjectEngine.Proofs.Engine.Calls
import ObjectEngine.Proofs.Engine.Reads

/-!
# What work leaves

A guarantee (`Program.Ensures`) is about one invariant of the store that holds after every request.
Work that goes through stages, with another thing known of the store in each, is judged by what it
leaves instead: `Program.Leaves Q p s` says that the program `p`, from a store with the content of
`s` and with any faults set up before each of its requests, comes to a result and a store with `Q`
(`Program.Leaves.runUnder`).

A stage under one invariant leaves what it guarantees (`Program.Leaves.of_ensures`), and stages are
put together from the last to the first. Work that may fail has two ends, and says of each what is
left there (`StoreAction.Leaves`, `Action.Leaves`).
-/

namespace ObjectEngine

variable {α β : Type}

/-- A result with `Q`, or a failure where `E` holds. -/
def Outcome.Ends (Q : α → Prop) (E : Prop) : Outcome α → Prop
  | .ok a => Q a
  | .error _ => E

theorem Outcome.Ends.mono {Q Q' : α → Prop} {E E' : Prop} (hQ : ∀ a, Q a → Q' a) (hE : E → E')
    {x : Outcome α} (h : x.Ends Q E) : x.Ends Q' E' := by
  cases x with
  | ok a => exact hQ a h
  | error e => exact hE h

/-- What holds at both ends. -/
theorem Outcome.Ends.always {E : Prop} {x : Outcome α} (h : x.Ends (fun _ => E) E) : E := by
  cases x with
  | ok a => exact h
  | error e => exact h

/-! ### Programs -/

namespace Program

/-- **What a program leaves** of a store with the content of `s`, whatever faults are set up before
each of its requests. -/
def Leaves (Q : α → Store → Prop) : Program α → Store → Prop
  | .done a, s => Q a s
  | .ask r next, s => ∀ w : World, Store.SameContent s w.store →
      (next (w.serve r).1).Leaves Q (w.serve r).2.2.store

namespace Leaves

variable {Q : α → Store → Prop} {s : Store}

theorem mono {Q' : α → Store → Prop} (h : ∀ a t, Q a t → Q' a t) {p : Program α}
    (hp : p.Leaves Q s) : p.Leaves Q' s := by
  induction p generalizing s with
  | done a => exact h a s hp
  | ask r next ih => exact fun w hw => ih _ (hp w hw)

theorem bind {R : β → Store → Prop} {p : Program α} {f : α → Program β}
    (hp : p.Leaves (fun a t => (f a).Leaves R t) s) : (p >>= f).Leaves R s := by
  induction p generalizing s with
  | done a => exact hp
  | ask r next ih => exact fun w hw => ih _ (hp w hw)

/-- **A stage under one invariant** leaves what it guarantees. -/
theorem of_ensures {I : Store → Prop} (hI : Store.Stable I) {Q : α → Prop} {p : Program α}
    (hp : p.Ensures I Q) (hs : I s) : p.Leaves (fun a t => I t ∧ Q a) s := by
  induction p generalizing s with
  | done a => exact ⟨hs, hp⟩
  | ask r next ih =>
    intro w hw
    obtain ⟨hserved, hnext⟩ := hp w (hI s w.store hw hs)
    exact ih _ hnext hserved

/-- **Run under any faults**, a program leaves what it says. -/
theorem runUnder {p : Program α} {w : World} (hp : p.Leaves Q w.store)
    (schedule : Nat → Disturbance) (n : Nat) :
    Q (p.runUnder schedule n w).1.1 (p.runUnder schedule n w).2.store := by
  induction p generalizing n w with
  | done a => exact hp
  | ask r next ih =>
    let disturbed : World :=
      { w with store := { w.store with faults := schedule n w.store.faults } }
    have hserved := hp disturbed ⟨fun _ => rfl, rfl, rfl⟩
    exact ih _ (w := (disturbed.serve r).2.2.advance (disturbed.serve r).2.1) hserved (n + 1)

/-- Run alone, a program leaves what it says. -/
theorem run {p : Program α} {w : World} (hp : p.Leaves Q w.store) :
    Q (p.run w).1 (p.run w).2.store := by
  induction p generalizing w with
  | done a => exact hp
  | ask r next ih => exact ih _ (hp w (.refl _))

end Leaves

end Program

/-! ### Work that may fail -/

namespace StoreAction

/-- **What work on the store leaves**: `Q` if it succeeds, and `E` if it fails. -/
def Leaves (Q : α → Store → Prop) (E : Store → Prop) (work : StoreAction α) (s : Store) : Prop :=
  Program.Leaves (fun (r : Outcome α) t => r.Ends (Q · t) (E t)) work.run s

namespace Leaves

variable {Q : α → Store → Prop} {E : Store → Prop} {s : Store}

theorem mono {Q' : α → Store → Prop} {E' : Store → Prop} (hQ : ∀ a t, Q a t → Q' a t)
    (hE : ∀ t, E t → E' t) {work : StoreAction α} (h : work.Leaves Q E s) :
    work.Leaves Q' E' s :=
  Program.Leaves.mono (fun _ t hr => hr.mono (hQ · t) (hE t)) h

theorem pure {a : α} (h : Q a s) : (Pure.pure a : StoreAction α).Leaves Q E s := h

theorem throw {e : EngineError} (h : E s) : (MonadExcept.throw e : StoreAction α).Leaves Q E s := h

theorem bind {R : β → Store → Prop} {work : StoreAction α} {f : α → StoreAction β}
    (h : work.Leaves (fun a t => (f a).Leaves R E t) E s) : (work >>= f).Leaves R E s := by
  refine Program.Leaves.bind (Program.Leaves.mono (fun r t hr => ?_) h)
  cases r with
  | ok a => exact hr
  | error e => exact hr

/-- A stage that leaves `I`, whatever it comes to. -/
theorem ensures_bind {I : Store → Prop} (hI : Store.Stable I) {P : α → Prop}
    {R : β → Store → Prop} {work : StoreAction α} {f : α → StoreAction β} (hwork : work.Ensures I P)
    (hs : I s) (hfailed : ∀ t, I t → E t) (hf : ∀ a t, P a → I t → (f a).Leaves R E t) :
    (work >>= f).Leaves R E s := by
  refine .bind (Program.Leaves.mono (fun r t hr => ?_) (Program.Leaves.of_ensures hI hwork hs))
  cases r with
  | ok a => exact hf a t (hr.2 a rfl) hr.1
  | error e => exact hfailed t hr.1

theorem ite {p : Prop} [Decidable p] {work work' : StoreAction α} (h : p → work.Leaves Q E s)
    (h' : ¬p → work'.Leaves Q E s) :
    StoreAction.Leaves Q E (if p then work else work') s := by
  split
  · exact h ‹p›
  · exact h' ‹¬p›

theorem outcome_bind {x : Outcome α} {f : α → StoreAction β} {R : β → Store → Prop} (hE : E s)
    (hf : ∀ a, x = .ok a → (f a).Leaves R E s) :
    StoreAction.Leaves R E (liftM x >>= f) s := by
  cases x with
  | ok a => exact hf a rfl
  | error e => exact hE

/-- Work that is replaced where it fails. -/
theorem tryCatch {work : StoreAction α} {handler : EngineError → StoreAction α}
    (h : work.Leaves Q (fun t => ∀ e, (handler e).Leaves Q E t) s) :
    (MonadExcept.tryCatch work handler).Leaves Q E s := by
  refine Program.Leaves.bind (Program.Leaves.mono (fun r t hr => ?_) h)
  cases r with
  | ok a => exact hr
  | error e => exact hr e

/-- **A call** fails and changes nothing, or succeeds. -/
theorem ran {c : Store.Call} {Q : c.Answer → Store → Prop}
    (hok : ∀ s' a, Store.SameContent s s' → (s'.run c).outcome = .ok a → Q a (s'.run c).store)
    (hfailed : ∀ t, Store.SameContent s t → E t) : StoreAction.Leaves Q E (Program.call c) s := by
  intro w hw
  change ((w.store.run c).outcome).Ends (Q · (w.store.run c).store) (E (w.store.run c).store)
  cases hrun : (w.store.run c).outcome with
  | ok a => exact hok _ a hw hrun
  | error e => exact hfailed _ (hw.trans (Store.run_error hrun))

/-- A call fails and changes nothing, or does what it has to do. -/
theorem call {c : Store.Call} {Q : c.Answer → Store → Prop}
    (hdone : ∀ s' a t, Store.SameContent s s' → Store.Done s' c a t → Q a t)
    (hfailed : ∀ t, Store.SameContent s t → E t) : StoreAction.Leaves Q E (Program.call c) s :=
  .ran (fun s' a hs hrun => hdone s' a _ hs (Store.run_ok hrun)) hfailed

end Leaves

end StoreAction

/-! ### Work with a schema cache -/

namespace Action

/-- **What work with a cache leaves** of the cache and the store: `Q` if it succeeds, and `E` if it
fails. -/
def Leaves (Q : α → SchemaCache → Store → Prop) (E : SchemaCache → Store → Prop)
    (work : Action α) (cache : SchemaCache) (s : Store) : Prop :=
  Program.Leaves (fun (r : Outcome α × SchemaCache) t => r.1.Ends (Q · r.2 t) (E r.2 t))
    (work.run.run cache) s

namespace Leaves

variable {Q : α → SchemaCache → Store → Prop} {E : SchemaCache → Store → Prop}
  {R : β → SchemaCache → Store → Prop} {cache : SchemaCache} {s : Store}

theorem mono {Q' : α → SchemaCache → Store → Prop} {E' : SchemaCache → Store → Prop}
    (hQ : ∀ a cache t, Q a cache t → Q' a cache t) (hE : ∀ cache t, E cache t → E' cache t)
    {work : Action α} (h : work.Leaves Q E cache s) : work.Leaves Q' E' cache s :=
  Program.Leaves.mono (fun r t hr => hr.mono (hQ · r.2 t) (hE r.2 t)) h

theorem pure {a : α} (h : Q a cache s) : (Pure.pure a : Action α).Leaves Q E cache s := h

theorem throw {e : EngineError} (h : E cache s) :
    (MonadExcept.throw e : Action α).Leaves Q E cache s := h

theorem bind {work : Action α} {f : α → Action β}
    (h : work.Leaves (fun a cache t => (f a).Leaves R E cache t) E cache s) :
    (work >>= f).Leaves R E cache s := by
  refine Program.Leaves.bind (Program.Leaves.mono (fun r t hr => ?_) h)
  obtain ⟨_ | a, cache'⟩ := r
  · exact hr
  · exact hr

/-- A stage that leaves `I` and `J`, whatever it comes to. -/
theorem of_ensures {I : Store → Prop} (hI : Store.Stable I) {J : SchemaCache → Prop}
    {P : α → Prop} {work : Action α} (hwork : work.Ensures I J P) (hcache : J cache) (hs : I s) :
    work.Leaves (fun a cache t => P a ∧ J cache ∧ I t) (fun cache t => J cache ∧ I t) cache s := by
  refine Program.Leaves.mono (fun r t hr => ?_)
    (Program.Leaves.of_ensures hI (hwork cache hcache) hs)
  obtain ⟨_ | a, cache'⟩ := r
  · exact ⟨hr.2.1, hr.1⟩
  · exact ⟨hr.2.2 a rfl, hr.2.1, hr.1⟩

theorem ensures_bind {I : Store → Prop} (hI : Store.Stable I) {J : SchemaCache → Prop}
    {P : α → Prop} {work : Action α} {f : α → Action β} (hwork : work.Ensures I J P)
    (hcache : J cache) (hs : I s) (hfailed : ∀ cache t, J cache → I t → E cache t)
    (hf : ∀ a cache t, P a → J cache → I t → (f a).Leaves R E cache t) :
    (work >>= f).Leaves R E cache s :=
  .bind (mono (fun a cache t h => hf a cache t h.1 h.2.1 h.2.2)
    (fun cache t h => hfailed cache t h.1 h.2) (of_ensures hI hwork hcache hs))

theorem ite {p : Prop} [Decidable p] {work work' : Action α} (h : p → work.Leaves Q E cache s)
    (h' : ¬p → work'.Leaves Q E cache s) :
    Action.Leaves Q E (if p then work else work') cache s := by
  split
  · exact h ‹p›
  · exact h' ‹¬p›

/-- Work on the store alone leaves the cache as it is. -/
theorem lift {work : StoreAction α} (h : work.Leaves (Q · cache ·) (E cache) s) :
    Action.Leaves Q E (liftM work) cache s :=
  Program.Leaves.bind (Program.Leaves.mono (fun _ _ hr => hr) h)

/-- Where the outcome of something is at hand, work goes on with it or ends. -/
theorem outcome_bind {x : Outcome α} {f : α → Action β} (hE : E cache s)
    (hf : ∀ a, x = .ok a → (f a).Leaves R E cache s) :
    Action.Leaves R E (liftM x >>= f) cache s := by
  cases x with
  | ok a => exact hf a rfl
  | error e => exact hE

/-- **A loop** goes through its items: before each round the cache and the store are as `I` says of
the items before it. -/
theorem forIn {I : List α → SchemaCache → Store → Prop}
    {body : α → PUnit → Action (ForInStep PUnit)} {xs : List α}
    (h : ∀ done, (∀ a ∈ done, a ∈ xs) → ∀ a ∈ xs, ∀ cache t, I done cache t →
      (body a ⟨⟩).Leaves (fun next cache t => next = .yield ⟨⟩ ∧ I (done ++ [a]) cache t) E cache t)
    (hs : I [] cache s) :
    Action.Leaves (fun _ cache t => I xs cache t) E (forIn xs PUnit.unit body) cache s := by
  suffices ∀ (later done : List α), (∀ a ∈ done ++ later, a ∈ xs) → ∀ cache s, I done cache s →
      Action.Leaves (fun _ cache t => I (done ++ later) cache t) E
        (ForIn.forIn later PUnit.unit body) cache s from
    this xs [] (fun _ ha => ha) cache s hs
  intro later
  induction later with
  | nil =>
    intro done _ cache s hs
    rw [List.append_nil]
    exact .pure hs
  | cons a later ih =>
    intro done hmem cache s hs
    rw [List.forIn_cons]
    refine .bind ((h done (fun b hb => hmem b (List.mem_append_left _ hb)) a
      (hmem a (List.mem_append_right _ List.mem_cons_self)) cache s hs).mono
      (fun next cache t hnext => ?_) fun _ _ h => h)
    obtain ⟨rfl, ht⟩ := hnext
    have hlater := ih (done ++ [a])
    rw [List.append_assoc] at hlater
    exact hlater hmem cache t ht

/-- What a change makes stale is dropped. -/
theorem publish_bind {change : SchemaChange} {f : PUnit → Action β}
    (h : (f ⟨⟩).Leaves R E (cache.apply change) s) :
    (publish change >>= f).Leaves R E cache s :=
  h

theorem publish {change : SchemaChange} {Q : PUnit → SchemaCache → Store → Prop}
    (h : Q ⟨⟩ (cache.apply change) s) : Action.Leaves Q E (publish change) cache s :=
  h

/-- Work that is replaced where it fails. -/
theorem tryCatch {work : Action α} {handler : EngineError → Action α}
    (h : work.Leaves Q (fun cache t => ∀ e, (handler e).Leaves Q E cache t) cache s) :
    (MonadExcept.tryCatch work handler).Leaves Q E cache s := by
  refine Program.Leaves.bind (Program.Leaves.mono (fun r t hr => ?_) h)
  obtain ⟨e | a, cache'⟩ := r
  · exact hr e
  · exact hr

/-- Work whose errors leave in another form. -/
theorem guarded {config : Config} {work : Action α} (h : work.Leaves Q E cache s) :
    Action.Leaves Q E (Engine.guarded config work) cache s :=
  .tryCatch (h.mono (fun _ _ _ h => h) fun _ _ h _ => .throw h)

/-- **Run in a world**, work that succeeds leaves what it says. -/
theorem runIn {work : Action α} {w v : World} {cache' : SchemaCache} {a : α}
    (h : work.Leaves Q E cache w.store) (hrun : work.runIn cache w = ((.ok a, cache'), v)) :
    Q a cache' v.store := by
  have hends := Program.Leaves.run (w := w) h
  rw [show (work.run.run cache).run w = ((.ok a, cache'), v) from hrun] at hends
  exact hends

end Leaves

end Action

end ObjectEngine
