import ObjectEngine.Proofs.Engine.Owners
import ObjectEngine.Proofs.Engine.Refusals
import ObjectEngine.Proofs.Engine.Rereading
import ObjectEngine.Proofs.Engine.Writing

/-!
# Calls that are refused change nothing

A call that writes goes through three stages. It plans, and so far it has only read. Then the store
is asked for the write, and a call to the store that fails changes nothing. What comes after that,
the edges of relations and the record that is answered, gives no refusal any more. So where no fault
is due a call that is refused leaves every record and every index as it was
(`Engine.unchanged_of_refused`). A transaction plans all of its writes first, and where one does not
plan it asks the store for nothing more (`Engine.executeBatch_of_unplanned`).

The stages are put together by what a run comes to (`StoreAction.Comes`, `Action.Comes`): it ends
well with `Q`, or in an error with `E`.
-/

namespace ObjectEngine

variable {α β : Type}

/-! ### What work comes to -/

namespace StoreAction

/-- **What work on the store comes to** in a world: `Q` if it succeeds, and `E` if it fails. -/
def Comes (Q : α → World → Prop) (E : EngineError → World → Prop) (work : StoreAction α)
    (w : World) : Prop :=
  match work.run.run w with
  | (.ok a, v) => Q a v
  | (.error e, v) => E e v

namespace Comes

variable {Q : α → World → Prop} {R : β → World → Prop} {E : EngineError → World → Prop}
  {w : World}

theorem mono {Q' : α → World → Prop} {E' : EngineError → World → Prop}
    (hQ : ∀ a v, Q a v → Q' a v) (hE : ∀ e v, E e v → E' e v) {work : StoreAction α}
    (h : work.Comes Q E w) : work.Comes Q' E' w := by
  unfold Comes at h ⊢
  split at h
  · exact hQ _ _ h
  · exact hE _ _ h

theorem pure {a : α} (h : Q a w) : (Pure.pure a : StoreAction α).Comes Q E w := h

theorem bind {work : StoreAction α} {f : α → StoreAction β}
    (h : work.Comes (fun a v => (f a).Comes R E v) E w) : (work >>= f).Comes R E w := by
  unfold Comes at h ⊢
  rw [StoreAction.run_bind]
  rcases hwork : work.run.run w with ⟨_ | a, v⟩ <;> rw [hwork] at h <;> exact h

/-- Work in two parts, when it is known what the first comes to. -/
theorem next {Q' : β → World → Prop} {E' : EngineError → World → Prop} {work : StoreAction α}
    {f : α → StoreAction β} (h : work.Comes Q E w) (hf : ∀ a v, Q a v → (f a).Comes Q' E' v)
    (hE : ∀ e v, E e v → E' e v) : (work >>= f).Comes Q' E' w :=
  .bind (h.mono hf hE)

theorem ite {p : Prop} [Decidable p] {work work' : StoreAction α} (h : p → work.Comes Q E w)
    (h' : ¬p → work'.Comes Q E w) : StoreAction.Comes Q E (if p then work else work') w := by
  split
  · exact h ‹p›
  · exact h' ‹¬p›

/-- Whatever holds of both ends of a run. -/
theorem of_run {work : StoreAction α}
    (hQ : ∀ a, (work.run.run w).1 = .ok a → Q a (work.run.run w).2)
    (hE : ∀ e, (work.run.run w).1 = .error e → E e (work.run.run w).2) : work.Comes Q E w := by
  unfold Comes
  rcases hwork : work.run.run w with ⟨_ | a, v⟩
  · rw [hwork] at hE
    exact hE _ rfl
  · rw [hwork] at hQ
    exact hQ a rfl

end Comes

end StoreAction

namespace Action

/-- **What work with a cache comes to** in a world: `Q` if it succeeds, and `E` if it fails. -/
def Comes (Q : α → SchemaCache → World → Prop) (E : EngineError → World → Prop)
    (work : Action α) (cache : SchemaCache) (w : World) : Prop :=
  match work.runIn cache w with
  | ((.ok a, cache'), v) => Q a cache' v
  | ((.error e, _), v) => E e v

namespace Comes

variable {Q : α → SchemaCache → World → Prop} {R : β → SchemaCache → World → Prop}
  {E : EngineError → World → Prop} {cache : SchemaCache} {w : World}

theorem mono {Q' : α → SchemaCache → World → Prop} {E' : EngineError → World → Prop}
    (hQ : ∀ a cache v, Q a cache v → Q' a cache v) (hE : ∀ e v, E e v → E' e v)
    {work : Action α} (h : work.Comes Q E cache w) : work.Comes Q' E' cache w := by
  unfold Comes at h ⊢
  split at h
  · exact hQ _ _ _ h
  · exact hE _ _ h

theorem pure {a : α} (h : Q a cache w) : (Pure.pure a : Action α).Comes Q E cache w := h

theorem throw {e : EngineError} (h : E e w) :
    (MonadExcept.throw e : Action α).Comes Q E cache w :=
  h

theorem bind {work : Action α} {f : α → Action β}
    (h : work.Comes (fun a cache v => (f a).Comes R E cache v) E cache w) :
    (work >>= f).Comes R E cache w := by
  unfold Comes at h ⊢
  rw [Action.runIn_bind]
  rcases hwork : work.runIn cache w with ⟨⟨_ | a, cache'⟩, v⟩ <;> rw [hwork] at h <;> exact h

/-- Work in two parts, when it is known what the first comes to. -/
theorem next {Q' : β → SchemaCache → World → Prop} {E' : EngineError → World → Prop}
    {work : Action α} {f : α → Action β} (h : work.Comes Q E cache w)
    (hf : ∀ a cache v, Q a cache v → (f a).Comes Q' E' cache v)
    (hE : ∀ e v, E e v → E' e v) : (work >>= f).Comes Q' E' cache w :=
  .bind (h.mono hf hE)

theorem ite {p : Prop} [Decidable p] {work work' : Action α} (h : p → work.Comes Q E cache w)
    (h' : ¬p → work'.Comes Q E cache w) :
    Action.Comes Q E (if p then work else work') cache w := by
  split
  · exact h ‹p›
  · exact h' ‹¬p›

/-- Work on the store alone. -/
theorem lift {work : StoreAction α} (h : work.Comes (fun a v => Q a cache v) E w) :
    Action.Comes Q E (liftM work) cache w := by
  change Action.Comes Q E (ofStore work) cache w
  unfold Comes StoreAction.Comes at *
  rw [runIn_ofStore, StoreAction.outcomeIn]
  rcases hwork : work.run.run w with ⟨_ | a, v⟩ <;> rw [hwork] at h <;> exact h

/-- An outcome that is at hand. -/
theorem outcome {x : Outcome α} (hQ : ∀ a, x = .ok a → Q a cache w)
    (hE : ∀ e, x = .error e → E e w) : Action.Comes Q E (liftM x) cache w := by
  cases x with
  | ok a => exact hQ a rfl
  | error e => exact hE e rfl

/-- Errors that leave in another form. -/
theorem guarded {config : Config} (hE : ∀ e v, E e v → E (e.sanitized config.sanitizeErrors) v)
    {work : Action α} (h : work.Comes Q E cache w) :
    (Engine.guarded config work).Comes Q E cache w := by
  unfold Comes at h ⊢
  rw [Action.runIn_guarded]
  rcases hwork : work.runIn cache w with ⟨⟨e | a, cache'⟩, v⟩ <;> rw [hwork] at h
  · exact hE e v h
  · exact h

end Comes

end Action

/-! ### Reading a schema again -/

namespace SchemaCache

variable {cache : SchemaCache} {className : String}

/-- **No load that a reader of the class would find** has failed. -/
def Unfailed (cache : SchemaCache) (className : String) : Prop :=
  cache.ttlMs = 0 ∨
    ∀ id e, cache.slots.lookup className = some id → cache.load? id ≠ some (.failed e)

theorem Settled.unfailed {nowMs : Nat} (h : cache.Settled className nowMs) :
    cache.Unfailed className := by
  refine h.imp id ?_
  rintro ⟨id, hslot, hconclude⟩ id' e hslot' hload
  obtain rfl := Option.some.inj (hslot.symm.trans hslot')
  obtain ⟨-, schema, hverdict⟩ := hconclude (.answer (.error e)) (cache.evict className id)
    (by simp only [conclude, hload])
  simp at hverdict

/-- Where the class has no load, its reader makes one. -/
theorem readWithin_of_none (hslot : cache.slots.lookup className = none) (hon : cache.ttlMs ≠ 0)
    (loaded : Outcome ClassSchema) (nowMs tries : Nat) :
    (readWithin className loaded nowMs (tries + 1) cache).1 = loaded := by
  obtain ⟨concluded, hconclude⟩ := conclude_complete_enter hslot hon loaded nowMs
  have hstarted : (cache.enter className).2.1 = true := by
    rw [enter, hslot]
  rw [readWithin]
  rcases hentered : cache.enter className with ⟨id, started, entered⟩
  rw [hentered] at hconclude hstarted
  simp only at hconclude hstarted
  subst hstarted
  simp only [if_true, hconclude]

/-- **A reader fails** only with the load that it has made. -/
theorem Unfailed.read_error (h : cache.Unfailed className) {loaded : Outcome ClassSchema}
    {nowMs : Nat} {e : EngineError} (he : (cache.read className loaded nowMs).1 = .error e) :
    loaded = .error e := by
  unfold SchemaCache.read at he
  split at he
  case isTrue => exact he
  case isFalse hon =>
    have hload := h.resolve_left hon
    cases hslot : cache.slots.lookup className with
    | none =>
      rw [readWithin_of_none hslot hon] at he
      exact he
    | some id =>
      rw [readWithin, enter_of_lookup hslot] at he
      rcases hverdict : cache.conclude className id nowMs with _ | ⟨outcome | _, concluded⟩
      · simpa [hverdict] using he
      · -- a load that is over has not failed
        simp only [Bool.false_eq_true, if_false, hverdict] at he
        subst he
        unfold conclude at hverdict
        split at hverdict
        · split at hverdict <;> simp at hverdict
        · rename_i e' hfailed
          exact absurd hfailed (hload id e' hslot)
        · simp at hverdict
      · obtain ⟨hnone, httl⟩ := lookup_of_expired hslot hverdict
        simp only [Bool.false_eq_true, if_false, hverdict] at he
        rwa [readWithin_of_none hnone (httl ▸ hon)] at he

end SchemaCache

open StoreAction (Comes)

/-! ### Planning -/

namespace Engine

variable {s₀ : Store} {className : String} {config : Config} {caller : Caller}
  {cache : SchemaCache} {w : World}

/-- **A world that is as it was**: no fault is due, the store has the records and indexes of `s₀`,
and the cache has no failed load of the class. -/
structure Unmoved (s₀ : Store) (className : String) (cache : SchemaCache) (w : World) : Prop where
  quiet : w.store.Quiet
  keeps : s₀.Keeps w.store
  unfailed : cache.Unfailed className

/-- Work that only reads comes to a world with the same records. -/
theorem comes_of_keeps {work : StoreAction α} {P : α → Prop} (hwork : work.Ensures s₀.Keeps P)
    (hquiet : w.store.Quiet) (hkeeps : s₀.Keeps w.store) :
    work.Comes (fun a v => P a ∧ v.store.Quiet ∧ s₀.Keeps v.store) (fun _ v => s₀.Keeps v.store)
      w := by
  obtain ⟨hstore, hresult⟩ := Program.Ensures.run hwork hkeeps
  exact .of_run (fun a ha => ⟨hresult a ha, hquiet.advances (hquiet.advances_run work.run), hstore⟩)
    fun _ _ => hstore

/-- **A class that has been read** has no failed load, whatever the cache held before. -/
theorem comes_schema (hquiet : w.store.Quiet) (hkeeps : s₀.Keeps w.store) :
    (Action.schema className).Comes (fun _ cache v => Unmoved s₀ className cache v)
      (fun _ v => s₀.Keeps v.store) cache w := by
  obtain ⟨v, hv, hrun⟩ := Action.runIn_schema hquiet className cache
  have hkept : s₀.Keeps v.store := fun name => (hv.store.collection name).trans (hkeeps name)
  unfold Action.Comes
  rw [hrun]
  rcases hread : cache.read className ((Action.load className).outcomeIn w) w.now.toMs with
    ⟨_ | schema, cache'⟩
  · exact hkept
  · exact ⟨hquiet.rests hv.store, hkept, (SchemaCache.settled_read hread).unfailed⟩

/-- **Work that plans**: it leaves an unmoved world as it was, and so it does if it fails. -/
def Plotting (s₀ : Store) (className : String) (work : Action α) : Prop :=
  ∀ cache w, Unmoved s₀ className cache w →
    work.Comes (fun _ cache v => Unmoved s₀ className cache v) (fun _ v => s₀.Keeps v.store) cache w

namespace Plotting

theorem pure (a : α) : Plotting s₀ className (pure a : Action α) := fun _ _ h => h

theorem throw (e : EngineError) : Plotting s₀ className (throw e : Action α) := fun _ _ h => h.keeps

theorem bind {work : Action α} {f : α → Action β} (hwork : Plotting s₀ className work)
    (hf : ∀ a, Plotting s₀ className (f a)) : Plotting s₀ className (work >>= f) :=
  fun cache w h => (hwork cache w h).next (fun a cache v h => hf a cache v h) fun _ _ h => h

theorem ite {p : Prop} [Decidable p] {work work' : Action α} (h : Plotting s₀ className work)
    (h' : Plotting s₀ className work') : Plotting s₀ className (if p then work else work') :=
  fun cache w hw => .ite (fun _ => h cache w hw) fun _ => h' cache w hw

theorem outcome (x : Outcome α) : Plotting s₀ className (liftM x : Action α) :=
  fun _ _ h => .outcome (fun _ _ => h) fun _ _ => h.keeps

theorem lift {work : StoreAction α} {P : α → Prop} (hwork : work.Ensures s₀.Keeps P) :
    Plotting s₀ className (liftM work : Action α) := fun _ _ h =>
  .lift ((comes_of_keeps hwork h.quiet h.keeps).mono
    (fun _ _ hv => ⟨hv.2.1, hv.2.2, h.unfailed⟩) fun _ _ hv => hv)

theorem schema : Plotting s₀ className (Action.schema className) :=
  fun _ _ h => comes_schema h.quiet h.keeps

/-- What follows a first reading of the class leaves any cache without a failed load. -/
theorem comes_bind {f : ClassSchema → Action α} (hf : ∀ schema, Plotting s₀ className (f schema))
    (hquiet : w.store.Quiet) (hkeeps : s₀.Keeps w.store) :
    (Action.schema className >>= f).Comes (fun _ cache v => Unmoved s₀ className cache v)
      (fun _ v => s₀.Keeps v.store) cache w :=
  (comes_schema hquiet hkeeps).next (fun schema cache v h => hf schema cache v h) fun _ _ h => h

end Plotting

theorem plotting_scopedFilter (schema : ClassSchema) (f : Filter) :
    Plotting s₀ className (liftM
      (scopedFilter config caller schema Stored.writePermKey f) : Action Predicate) :=
  .lift (ensures_scopedFilter_eq (Store.stable_keeps s₀) config caller schema _ f)

theorem plotting_now : Plotting s₀ className (liftM Action.now : Action Instant) :=
  .lift (Action.ensures_now s₀.Keeps)

theorem plotting_newId : Plotting s₀ className (liftM Action.newId : Action String) :=
  .lift (Action.ensures_newId s₀.Keeps)

section

variable (hquiet : w.store.Quiet) (hkeeps : s₀.Keeps w.store)

include hquiet hkeeps

theorem comes_prepareCreate (d : Document) :
    (prepareCreate caller className d).Comes (fun _ cache v => Unmoved s₀ className cache v)
      (fun _ v => s₀.Keeps v.store) cache w := by
  refine Plotting.comes_bind (fun schema => ?_) hquiet hkeeps
  have hrest : Plotting s₀ className (do
      let objectId ← if d.objectId.isEmpty then Action.newId else pure d.objectId
      let t ← Action.now
      let d : Document :=
        { d with className, objectId, createdAt := d.createdAt <|> some t,
                 updatedAt := d.updatedAt <|> some t }
      let record ← (Stored.encodeDocument schema d : Outcome Record)
      return (.insert className record, d) : Action (Write × Document)) := by
    refine .ite (.bind plotting_newId fun _ => ?_) (.bind (.pure _) fun _ => ?_)
    all_goals exact .bind plotting_now fun _ => .bind (.outcome _) fun _ => .pure _
  refine .ite ?_ hrest
  split
  · exact .bind (.throw _) fun _ => hrest
  · exact hrest

/-- **Planning** changes nothing, whether it succeeds or fails. -/
theorem comes_prepare (op : WriteOp) :
    (prepare config caller op).Comes (fun _ cache v => Unmoved s₀ op.className cache v)
      (fun _ v => s₀.Keeps v.store) cache w := by
  have hupdate (className : String) (schema : ClassSchema) (p : Predicate) (ops : UpdateMap)
      (many : Bool) : Plotting s₀ className (do
        let u ← (Plan.update schema caller ops : Outcome Plan.UpdatePlan)
        let t ← Action.now
        let edit := { u.edit with set := Members.insert Stored.updatedAtKey (.date t) u.edit.set }
        return .update className p { u with edit } many : Action Write) :=
    .bind (.outcome _) fun _ => .bind plotting_now fun _ => .pure _
  cases op with
  | create className d =>
    exact (comes_prepareCreate hquiet hkeeps d).next (fun _ _ _ h => .pure h) fun _ _ h => h
  | update className objectId ops =>
    exact Plotting.comes_bind (fun schema => hupdate _ schema _ ops false) hquiet hkeeps
  | updateMany className f ops =>
    refine Plotting.comes_bind (fun schema => ?_) hquiet hkeeps
    exact .bind (plotting_scopedFilter schema f) fun p =>
      .bind .schema fun schema => hupdate _ schema p ops true
  | upsert className f ops =>
    refine Plotting.comes_bind (fun schema => ?_) hquiet hkeeps
    refine .bind (.outcome _) fun plan => .ite (.bind (.throw _) fun _ => ?_) ?_
    all_goals
      refine .bind (plotting_scopedFilter schema f) fun p => .bind plotting_now fun _ => ?_
      exact .ite (.bind (.pure _) fun _ => .pure _)
        (.bind plotting_newId fun _ => .bind (.pure _) fun _ => .pure _)
  | delete className f =>
    refine Plotting.comes_bind (fun schema => ?_) hquiet hkeeps
    exact .bind (plotting_scopedFilter schema f) fun p => .pure _

end

end Engine

/-! ### After the write -/

namespace StoreAction

/-- **Work that refuses nothing** where no fault is due, and comes to results with `Q`. -/
def Accepts (Q : α → Prop) (work : StoreAction α) : Prop :=
  ∀ w : World, w.store.Quiet → work.Comes (fun a _ => Q a) (fun e _ => ¬e.Refusal) w

namespace Accepts

variable {Q : α → Prop} {R : β → Prop}

theorem pure {a : α} (h : Q a) : (Pure.pure a : StoreAction α).Accepts Q := fun _ _ => h

theorem throw {e : EngineError} (h : ¬e.Refusal) :
    (MonadExcept.throw e : StoreAction α).Accepts Q :=
  fun _ _ => h

theorem outcome {x : Outcome α} (h : x.Accepts) :
    StoreAction.Accepts (fun _ => True) (liftM x) := by
  cases x with
  | ok a => exact fun _ _ => trivial
  | error e => exact fun _ _ => h e rfl

/-- What work that refuses nothing comes to. -/
theorem outcomeIn {work : StoreAction α} (hwork : work.Accepts Q) {w : World}
    (hquiet : w.store.Quiet) : (work.outcomeIn w).Accepts := by
  intro e he
  have hcomes := hwork w hquiet
  unfold Comes at hcomes
  unfold StoreAction.outcomeIn at he
  rcases hrun : work.run.run w with ⟨_ | a, v⟩ <;> rw [hrun] at hcomes he
  · exact Except.error.inj he ▸ hcomes
  · exact absurd he (by simp)

theorem bind {work : StoreAction α} {f : α → StoreAction β} (hwork : work.Accepts Q)
    (hf : ∀ a, Q a → (f a).Accepts R) : (work >>= f).Accepts R := by
  intro w hquiet
  have hfirst := hwork w hquiet
  have hadvances := hquiet.advances_run work.run
  refine .bind ?_
  unfold Comes at hfirst ⊢
  change Store.Advances w.store (work.run.run w).2.store at hadvances
  rcases hrun : work.run.run w with ⟨_ | a, v⟩ <;> rw [hrun] at hfirst hadvances
  · exact hfirst
  · exact hf a hfirst v (hquiet.advances hadvances)

theorem ite {p : Prop} [Decidable p] {work work' : StoreAction α} (h : work.Accepts Q)
    (h' : work'.Accepts Q) : StoreAction.Accepts Q (if p then work else work') :=
  fun w hw => .ite (fun _ => h w hw) fun _ => h' w hw

theorem call {c : Store.Call} (h : ∀ s : Store, s.Quiet → Outcome.Accepts (s.run c).outcome) :
    StoreAction.Accepts (fun _ => True) (Program.call c) :=
  fun w hquiet => .of_run (fun _ _ => trivial) fun e he => h w.store hquiet e he

/-- The judgement of what work refuses. -/
def judgement : Judgement (ExceptT EngineError Program) where
  holds Q work := Accepts Q work
  mono h := fun hwork w hquiet => (hwork w hquiet).mono (fun a _ ha => h a ha) fun _ _ he => he
  ofPure := pure
  bind := bind

end Accepts

end StoreAction

namespace Join

/-- **Changing the edges of an owner** refuses nothing. -/
theorem accepts_apply (className owner : String) (e : Plan.RelationEdit) :
    (apply className owner e none).Accepts fun _ => True := by
  refine .bind (Q := fun _ => True) (StoreAction.Accepts.judgement.forIn fun related _ => ?_)
    fun _ _ => ?_
  · refine .bind (.call fun s hs => hs.accepts_link ?_) fun _ _ => .pure trivial
    exact (equates_linking owner related).exists_eval none
  · refine .ite (.bind (.call fun s hs => hs.accepts_unlink ?_) fun _ _ => .pure trivial)
      (.pure trivial)
    exact exists_eval_linkingAny owner e.remove

/-- **Removing the edges of some owners** refuses nothing. -/
theorem accepts_removeOwners (className field : String) (owners : List String) :
    (removeOwners className field owners none).Accepts fun _ => True := by
  exact .ite (.pure trivial)
    (.call fun s hs => hs.accepts_unlink fun r => ⟨_, by rw [Predicate.eval]; rfl⟩)

end Join

namespace Engine

variable {s₀ : Store} {className : String} {config : Config} {caller : Caller}
  {cache : SchemaCache} {w : World}

/-- **What a refusal leaves** is the store as it was. -/
def Spared (s₀ : Store) (e : EngineError) (w : World) : Prop := e.Refusal → s₀.Keeps w.store

theorem Spared.sanitized {e : EngineError} (h : Spared s₀ e w) (enabled : Bool) :
    Spared s₀ (e.sanitized enabled) w :=
  fun he => h ((EngineError.refusal_sanitized enabled e).1 he)

/-- A call that fails changes nothing. -/
theorem comes_call (hquiet : w.store.Quiet) (hkeeps : s₀.Keeps w.store) (c : Store.Call) :
    StoreAction.Comes (fun _ v => v.store.Quiet) (Spared s₀) (Program.call c) w := by
  refine .of_run (fun _ _ => hquiet.advances (hquiet.run_advances c)) fun e he _ name => ?_
  have hsame : Store.SameContent w.store (w.store.run c).store := Store.run_error he
  exact (hsame.collection name).trans (hkeeps name)

/-- **Loading a schema** refuses nothing. -/
theorem accepts_load (className : String) : (Action.load className).Accepts fun _ => True := by
  refine .bind (Q := fun _ => True) ?_ fun schema? _ => ?_
  · refine .bind (.call fun s hs => hs.accepts_find_byId _ _) fun records _ => ?_
    cases records with
    | nil => exact .pure trivial
    | cons r rest =>
      exact .bind (Q := fun _ => True) (.outcome (Catalog.accepts_ofRecord r)) fun _ _ =>
        .pure trivial
  · cases schema? with
    | some schema => exact .pure trivial
    | none => exact .throw id

/-- **A schema read again** after a class has been read is no reason for a refusal. -/
theorem comes_schema_again (hquiet : w.store.Quiet) (hcache : cache.Unfailed className) :
    (Action.schema className).Comes (fun _ _ _ => True) (Spared s₀) cache w := by
  obtain ⟨v, -, hrun⟩ := Action.runIn_schema hquiet className cache
  unfold Action.Comes
  rw [hrun]
  rcases hread : cache.read className ((Action.load className).outcomeIn w) w.now.toMs with
    ⟨e | schema, cache'⟩
  · have hloaded := hcache.read_error (congrArg Prod.fst hread)
    exact fun he => absurd he ((accepts_load className).outcomeIn hquiet e hloaded)
  · trivial

/-- Work that refuses nothing spares the store in any case. -/
theorem comes_of_accepts {work : StoreAction α} {Q : α → Prop} (hwork : work.Accepts Q)
    (hquiet : w.store.Quiet) : work.Comes (fun _ v => v.store.Quiet) (Spared s₀) w :=
  .of_run (fun _ _ => hquiet.advances (hquiet.advances_run work.run)) fun e he hrefusal =>
    absurd hrefusal (hwork.outcomeIn hquiet e he)

/-- **A planned write** that comes to a refusal changes nothing. -/
theorem comes_run (write : Write) (hquiet : w.store.Quiet) (hkeeps : s₀.Keeps w.store) :
    (write.run none).Comes (fun _ v => v.store.Quiet) (Spared s₀) w := by
  -- the owners are looked up before the write
  have howners {β : Type} {p : Prop} [Decidable p] (name : String) (filter : Predicate)
      (limit : Option Nat) {f : List String → StoreAction β} {Q : β → World → Prop}
      (hf : ∀ owners (v : World), v.store.Quiet → s₀.Keeps v.store →
        (f owners).Comes Q (Spared s₀) v) :
      StoreAction.Comes Q (Spared s₀)
        (if p then pure [] >>= f else Write.matchingIds name filter limit none >>= f) w := by
    have hread : (Write.matchingIds name filter limit none).Ensures s₀.Keeps fun _ => True :=
      .bind (StoreAction.ensures_find (Store.stable_keeps s₀) _ _ _) fun _ _ => .pure trivial
    exact .ite (fun _ => hf [] w hquiet hkeeps) fun _ =>
      (comes_of_keeps hread hquiet hkeeps).next (fun owners v hv => hf owners v hv.2.1 hv.2.2)
        fun _ _ h _ => h
  cases write with
  | insert name r => exact (comes_call hquiet hkeeps _).next (fun _ _ h => .pure h) fun _ _ h => h
  | update name filter plan many =>
    refine howners name filter _ fun owners v hv hkept => ?_
    have hupdate : (Write.updateRecords name filter plan.edit many none).Comes
        (fun _ v => v.store.Quiet) (Spared s₀) v := by
      refine .ite (fun _ => ?_) fun _ => .ite (fun _ => ?_) fun _ => ?_
      all_goals exact (comes_call hv hkept _).next (fun _ _ h => .pure h) fun _ _ h => h
    refine hupdate.next (fun out v hv => ?_) fun _ _ h => h
    refine comes_of_accepts (Q := fun _ => True) (.bind (Q := fun _ => True) ?_ fun _ _ => ?_) hv
    · refine StoreAction.Accepts.judgement.forIn fun owner _ => ?_
      refine .bind (Q := fun _ => True) ?_ fun _ _ => .pure trivial
      refine StoreAction.Accepts.judgement.forIn fun e _ => ?_
      exact .bind (Join.accepts_apply name owner e) fun _ _ => .pure trivial
    · exact .pure trivial
  | upsert name filter edit =>
    exact (comes_call hquiet hkeeps _).next (fun _ _ h => .pure h) fun _ _ h => h
  | delete name filter relationFields =>
    refine howners name filter _ fun owners v hv hkept => ?_
    refine (comes_call hv hkept _).next (fun count v hv => ?_) fun _ _ h => h
    refine comes_of_accepts (Q := fun _ => True) (.bind (Q := fun _ => True) ?_ fun _ _ => ?_) hv
    · refine StoreAction.Accepts.judgement.forIn fun field _ => ?_
      exact .bind (Join.accepts_removeOwners name field owners) fun _ _ => .pure trivial
    · exact .pure trivial

/-- A record that was written, read for the caller. -/
theorem comes_readResult (hquiet : w.store.Quiet) (hcache : cache.Unfailed className)
    (r : Record) :
    Action.Comes (fun _ _ _ => True) (Spared s₀) (do
      let schema ← Action.schema className
      (readDocument schema caller r : Outcome Document)) cache w :=
  (comes_schema_again hquiet hcache).next
    (fun schema _ _ _ => .outcome (fun _ _ => trivial) fun e he hrefusal =>
      absurd hrefusal (accepts_readDocument schema caller r e he))
    fun _ _ h => h

/-- A planned write, and then what its result is for. -/
theorem comes_ran (write : Write) {f : WriteResult → Action α} (h : Unmoved s₀ className cache w)
    (hf : ∀ result v, v.store.Quiet →
      (f result).Comes (fun _ _ _ => True) (Spared s₀) cache v) :
    Action.Comes (fun _ _ _ => True) (Spared s₀)
      ((liftM (write.run none) : Action WriteResult) >>= f) cache w :=
  .bind (.lift ((comes_run write h.quiet h.keeps).mono hf fun _ _ h => h))

section

variable (hquiet : w.store.Quiet) (hkeeps : s₀.Keeps w.store)

include hquiet hkeeps

/-- An operation plans a write, runs it, and then does what its result is for. -/
theorem comes_planned (op : WriteOp) {f : WriteResult → Action α}
    (hf : ∀ result cache v, cache.Unfailed op.className → v.store.Quiet →
      (f result).Comes (fun _ _ _ => True) (Spared s₀) cache v) :
    Action.Comes (fun _ _ _ => True) (Spared s₀) (guarded config do
      let write ← prepare config caller op
      f (← (write.run none : StoreAction WriteResult))) cache w :=
  .guarded (fun _ _ h => h.sanitized _) ((comes_prepare hquiet hkeeps op).next
    (fun write cache _ hv => comes_ran write hv fun result v => hf result cache v hv.unfailed)
    fun _ _ h _ => h)

theorem comes_create (d : Document) :
    (create config caller className d).Comes (fun _ _ _ => True) (Spared s₀) cache w :=
  .guarded (fun _ _ h => h.sanitized _) ((comes_prepareCreate hquiet hkeeps d).next
    (fun out _ _ hv => comes_ran out.1 hv fun _ _ _ => .pure trivial) fun _ _ h _ => h)

theorem comes_update (objectId : String) (ops : UpdateMap) :
    (update config caller className objectId ops).Comes (fun _ _ _ => True) (Spared s₀) cache w := by
  refine comes_planned hquiet hkeeps (.update className objectId ops)
    fun result cache v hcache hv => ?_
  split
  · exact comes_readResult hv hcache _
  · exact .throw fun h => h.elim

theorem comes_updateMany (f : Filter) (ops : UpdateMap) :
    (updateMany config caller className f ops).Comes (fun _ _ _ => True) (Spared s₀) cache w := by
  refine comes_planned hquiet hkeeps (.updateMany className f ops) fun result cache v _ _ => ?_
  split
  · exact .pure trivial
  · exact .pure trivial

theorem comes_upsert (f : Filter) (ops : UpdateMap) :
    (upsert config caller className f ops).Comes (fun _ _ _ => True) (Spared s₀) cache w := by
  refine comes_planned hquiet hkeeps (.upsert className f ops) fun result cache v hcache hv => ?_
  split
  · exact comes_readResult hv hcache _
  · exact .throw fun h => h.elim

theorem comes_delete (f : Filter) :
    (delete config caller className f).Comes (fun _ _ _ => True) (Spared s₀) cache w := by
  refine comes_planned hquiet hkeeps (.delete className f) fun result cache v _ _ => ?_
  split
  · exact .ite (fun _ => .pure trivial) fun _ => .throw fun h => h.elim
  · exact .throw fun h => h.elim

/-- **A single write** that comes to a refusal changes nothing. -/
theorem comes_writeOne (op : WriteOp) :
    (writeOne config caller op).Comes (fun _ _ _ => True) (Spared s₀) cache w := by
  cases op with
  | create className d =>
    exact (comes_create hquiet hkeeps d).next (fun _ _ _ _ => .pure trivial) fun _ _ h => h
  | update className objectId ops =>
    exact (comes_update hquiet hkeeps objectId ops).next (fun _ _ _ _ => .pure trivial)
      fun _ _ h => h
  | updateMany className f ops =>
    exact (comes_updateMany hquiet hkeeps f ops).next (fun _ _ _ _ => .pure trivial)
      fun _ _ h => h
  | upsert className f ops =>
    exact (comes_upsert hquiet hkeeps f ops).next (fun _ _ _ _ => .pure trivial) fun _ _ h => h
  | delete className f =>
    exact (comes_delete hquiet hkeeps f).next (fun _ _ _ _ => .pure trivial) fun _ _ h => h

end

/-! ### Batches -/

/-- **Planning a batch** leaves records, indexes and sessions as they are. -/
theorem sameContent_prepareAll (writes : List WriteOp) :
    Store.SameContent w.store ((prepareAll config caller writes).runIn cache w).2.store := by
  have hstable : Store.Stable (Store.SameContent w.store) := fun _ _ hsame h => h.trans hsame
  have hplans : (prepareAll config caller writes).Ensures (Store.SameContent w.store)
      (fun _ => True) fun _ => True :=
    ((Action.judgement _ _).mapM fun op _ =>
      .outcomeOf (ensures_prepare_of_finds hstable.keptByFinds op)).mono
      fun _ _ => trivial
  exact (hplans.runIn trivial (.refl w.store)).1

/-- **Planning a batch** comes to an outcome for each write. -/
theorem exists_runIn_prepareAll (config : Config) (caller : Caller) (writes : List WriteOp)
    (cache : SchemaCache) (w : World) :
    ∃ planned cache' v, (prepareAll config caller writes).runIn cache w =
      ((.ok planned, cache'), v) ∧ planned.length = writes.length := by
  -- the loop collects its results in reverse, in front of those that are done
  suffices ∀ (writes : List WriteOp) (done : List (Outcome Write)) (cache : SchemaCache)
      (w : World), ∃ planned cache' v, Action.runIn (List.mapM.loop (fun op =>
        (ExceptT.lift (prepare config caller op).run : Action (Outcome Write))) writes done)
          cache w = ((.ok planned, cache'), v) ∧ planned.length = done.length + writes.length by
    obtain ⟨planned, cache', v, hrun, hlength⟩ := this writes [] cache w
    exact ⟨planned, cache', v, hrun, by simpa using hlength⟩
  intro writes
  induction writes with
  | nil => exact fun done cache w => ⟨done.reverse, cache, w, rfl, by simp⟩
  | cons op rest ih =>
    intro done cache w
    obtain ⟨planned, cache', v, hrun, hlength⟩ :=
      ih (((prepare config caller op).runIn cache w).1.1 :: done)
        ((prepare config caller op).runIn cache w).1.2 ((prepare config caller op).runIn cache w).2
    refine ⟨planned, cache', v, ?_, by simp [hlength]; omega⟩
    rw [List.mapM.loop, Action.runIn_bind, Action.runIn_outcomeOf]
    exact hrun

/-- A transaction with a write that does not plan is over with the planning. -/
theorem executeBatch_of_unplanned {writes : List WriteOp} {planned : List (Outcome Write)}
    {cache' : SchemaCache} {v : World}
    (hplan : (prepareAll config caller writes).runIn cache w = ((.ok planned, cache'), v))
    (h : ∃ e, .error e ∈ planned) :
    ∃ e, .error e ∈ planned ∧ executeBatch config caller writes true cache w =
      ((.error (e.sanitized config.sanitizeErrors), cache'), v) := by
  obtain ⟨e, he⟩ := h
  obtain ⟨_, hmem, e, rfl, hready⟩ := Outcome.exists_error_of_mapM (f := id) ⟨_, he, e, rfl⟩
  refine ⟨e, hmem, ?_⟩
  rw [executeBatch, hplan]
  simp only [if_true, hready]

/-! ### Refused calls -/

/-- **A call that is refused changes nothing.** A single write that comes to a refusal where no
fault is due leaves every record and index. A transaction of which a write does not plan answers
the error of such a write, and after the planning nothing is done: the records, indexes and
sessions are those of before. -/
theorem unchanged_of_refused (config : Config) (caller : Caller) (cache : SchemaCache)
    {w : World} (hquiet : w.store.Quiet) :
    (∀ op e, ((writeOne config caller op).runIn cache w).1.1 = .error e → e.Refusal →
      w.store.Keeps ((writeOne config caller op).runIn cache w).2.store) ∧
    ∀ writes, ∃ planned cache' v,
      (prepareAll config caller writes).runIn cache w = ((.ok planned, cache'), v) ∧
      planned.length = writes.length ∧ Store.SameContent w.store v.store ∧
      ((∃ e, .error e ∈ planned) → ∃ e, .error e ∈ planned ∧
        executeBatch config caller writes true cache w =
          ((.error (e.sanitized config.sanitizeErrors), cache'), v)) := by
  constructor
  · intro op e he hrefusal
    have hcomes : (writeOne config caller op).Comes (fun _ _ _ => True) (Spared w.store) cache w :=
      comes_writeOne hquiet (fun _ => rfl) op
    unfold Action.Comes at hcomes
    rcases hrun : (writeOne config caller op).runIn cache w with ⟨⟨_ | a, cache'⟩, v⟩ <;>
      rw [hrun] at hcomes he
    · exact hcomes (Except.error.inj he ▸ hrefusal)
    · exact absurd he (by simp)
  · intro writes
    obtain ⟨planned, cache', v, hplan, hlength⟩ :=
      exists_runIn_prepareAll config caller writes cache w
    have hsame : Store.SameContent w.store
        ((prepareAll config caller writes).runIn cache w).2.store := sameContent_prepareAll writes
    rw [hplan] at hsame
    exact ⟨planned, cache', v, hplan, hlength, hsame, executeBatch_of_unplanned hplan⟩

/-- An update that adds to a relation, and gives the tag of an object another type. -/
def mistyped : UpdateMap := [("rel", .addRelation [⟨"T", "u"⟩]), ("tag", .set (.bool true))]

theorem unchanged_of_refused_mistyped :
    handedOver.store.Quiet ∧
      (∃ e, ((writeOne {} bob (.update "N" "x" mistyped)).runIn { ttlMs := 5000 }
          handedOver).1.1 = .error e ∧ e.Refusal ∧
        handedOver.store.Keeps ((writeOne {} bob (.update "N" "x" mistyped)).runIn
          { ttlMs := 5000 } handedOver).2.store) ∧
      ∃ e cache v, executeBatch {} bob [.update "N" "x" tagged, .update "N" "x" mistyped] true
          { ttlMs := 5000 } handedOver = ((.error e, cache), v) ∧
        Store.SameContent handedOver.store v.store := by
  have hquiet : handedOver.store.Quiet := Store.quiet_of_nil rfl
  obtain ⟨hone, hbatch⟩ := unchanged_of_refused {} bob { ttlMs := 5000 } hquiet
  refine ⟨hquiet, ?_, ?_⟩
  · have herror : ((writeOne {} bob (.update "N" "x" mistyped)).runIn { ttlMs := 5000 }
        handedOver).1.1.map (fun _ => ()) =
          .error (.typeMismatch "tag" "String" "Boolean") := by decide +kernel
    have herror := Outcome.map_eq_error.1 herror
    exact ⟨_, herror, trivial, hone _ _ herror trivial⟩
  · obtain ⟨planned, cache, v, hplan, -, hsame, hunplanned⟩ :=
      hbatch [.update "N" "x" tagged, .update "N" "x" mistyped]
    -- the first write is planned, and the second is not
    have hoks : ((prepareAll {} bob [.update "N" "x" tagged, .update "N" "x" mistyped]).runIn
        { ttlMs := 5000 } handedOver).1.1.map (fun planned => planned.map Except.isOk) =
          .ok [true, false] := by decide +kernel
    rw [hplan] at hoks
    have hoks : planned.map Except.isOk = [true, false] := Except.ok.inj hoks
    obtain ⟨outcome, hmem, hfailed⟩ := List.mem_map.1
      (show false ∈ planned.map Except.isOk by rw [hoks]; decide)
    cases outcome with
    | error e =>
      obtain ⟨e', -, hrun⟩ := hunplanned ⟨e, hmem⟩
      exact ⟨_, cache, v, hrun, hsame⟩
    | ok write => exact absurd hfailed (by simp [Except.isOk, Except.toBool])

end Engine

end ObjectEngine
