import ObjectEngine.Proofs.Engine.Rereading
import ObjectEngine.Proofs.Engine.Writing

/-!
# A single write and what it adds to its plan

A single write of a caller is planned and run, and then an update or an upsert reads back what it
wrote. The last step changes nothing: it asks for the schema that the planning has just read, at
the same time, since neither the planning nor the write has waited (`Write.punctual_update`,
`Write.punctual_upsert`). So the schema cache is left as the planning left it and the store as
the write left it (`Engine.runIn_writeOne`).
-/

namespace ObjectEngine

variable {α β : Type}

/-! ### Work that does not wait -/

namespace StoreAction

/-- **Work that does not wait.** -/
def Punctual (work : StoreAction α) : Prop := ∀ w, (work.run.run w).2.clockMs = w.clockMs

namespace Punctual

theorem pure (a : α) : Punctual (pure a : StoreAction α) := fun _ => rfl

theorem bind {work : StoreAction α} {f : α → StoreAction β} (hwork : Punctual work)
    (hf : ∀ a, Punctual (f a)) : Punctual (work >>= f) := by
  intro w
  have hfirst := hwork w
  rw [StoreAction.run_bind]
  rcases hrun : work.run.run w with ⟨_ | a, v⟩ <;> rw [hrun] at hfirst
  · exact hfirst
  · exact (hf a v).trans hfirst

theorem ite {p : Prop} [Decidable p] {x y : StoreAction α} (hx : Punctual x)
    (hy : Punctual y) : Punctual (if p then x else y) := by
  split
  · exact hx
  · exact hy

/-- A choice whose branches go on in the same way. -/
theorem ite_bind {p : Prop} [Decidable p] {x y : StoreAction α} {f : α → StoreAction β}
    (hx : Punctual x) (hy : Punctual y) (hf : ∀ a, Punctual (f a)) :
    Punctual (if p then x >>= f else y >>= f) :=
  ite (hx.bind hf) (hy.bind hf)

theorem forIn {f : α → PUnit → StoreAction (ForInStep PUnit)} {xs : List α}
    (h : ∀ a, Punctual (f a ⟨⟩)) : Punctual (forIn xs PUnit.unit f) := by
  induction xs with
  | nil => exact pure _
  | cons a rest ih =>
    rw [List.forIn_cons]
    refine bind (h a) fun step => ?_
    cases step with
    | done u => exact pure _
    | yield u => exact ih

/-- A call that keeps nobody waiting. -/
theorem call {c : Store.Call} (h : ∀ s : Store, s.waitMs c = 0) :
    Punctual (Program.call c) := by
  intro w
  have hwait : (w.store.run c).waitMs = 0 := by
    change (if (Store.dueFault? c.operation w.store.faults).isSome then 0 else w.store.waitMs c) = 0
    rw [h w.store, ite_self]
  change w.clockMs + (w.store.run c).waitMs = w.clockMs
  rw [hwait, Nat.add_zero]

end Punctual

end StoreAction

open StoreAction (Punctual)

namespace Predicate

theorem prompt_all : Predicate.all.Prompt := by
  intro c r
  rw [eval]

theorem prompt_evalUntil {parts : List Predicate} (h : ∀ p ∈ parts, p.Prompt)
    (c : Option Collation) (r : Record) (stop : Bool) : (evalUntil c r stop parts).2 = 0 := by
  induction parts with
  | nil => rfl
  | cons p rest ih =>
    have hrest := ih fun p hp => h p (List.mem_cons_of_mem _ hp)
    have hfirst := h p List.mem_cons_self c r
    rw [evalUntil]
    rcases heval : p.eval c r with ⟨_ | b, delay⟩ <;> rw [heval] at hfirst
    · exact hfirst
    · simp only at hfirst ⊢
      split
      · exact hfirst
      · simp only [hfirst, hrest]

theorem prompt_and {parts : List Predicate} (h : ∀ p ∈ parts, p.Prompt) :
    (Predicate.and parts).Prompt := by
  intro c r
  rw [eval]
  exact prompt_evalUntil h c r false

theorem prompt_or {parts : List Predicate} (h : ∀ p ∈ parts, p.Prompt) :
    (Predicate.or parts).Prompt := by
  intro c r
  rw [eval]
  exact prompt_evalUntil h c r true

/-- A permission is checked in no time. -/
theorem prompt_permission (permKey : String) (caller : Caller) :
    (Plan.permission permKey caller).Prompt := by
  unfold Plan.permission
  split
  · exact prompt_all
  · refine prompt_or fun p hp => ?_
    rcases List.mem_pair.1 hp with rfl | rfl
    · exact prompt_field _ _
    · exact prompt_field _ _

/-- More parts take no more time. -/
theorem prompt_append {c : Option Collation} {r : Record} {stop : Bool}
    {parts more : List Predicate} (h : (evalUntil c r stop parts).2 = 0)
    (hmore : (evalUntil c r stop more).2 = 0) : (evalUntil c r stop (parts ++ more)).2 = 0 := by
  induction parts with
  | nil => exact hmore
  | cons p rest ih =>
    rw [List.cons_append, evalUntil]
    rw [evalUntil] at h
    rcases heval : p.eval c r with ⟨_ | b, delay⟩ <;> rw [heval] at h
    · exact h
    · simp only at h ⊢
      split
      · rename_i hstop
        rw [if_pos hstop] at h
        exact h
      · rename_i hstop
        rw [if_neg hstop] at h
        obtain ⟨hfirst, hrest⟩ := Nat.add_eq_zero_iff.1 h
        simp only [hfirst, ih hrest]

/-- Two predicates that take no time take none together. -/
theorem prompt_both {p q : Predicate} (hp : p.Prompt) (hq : q.Prompt) : (p.both q).Prompt := by
  have hpair {p q : Predicate} (hp : p.Prompt) (hq : q.Prompt) : (Predicate.and [p, q]).Prompt :=
    prompt_and fun _ hmem => by
      rcases List.mem_pair.1 hmem with rfl | rfl
      · exact hp
      · exact hq
  have hjoin {parts more : List Predicate} (h : (Predicate.and parts).Prompt)
      (hmore : (Predicate.and more).Prompt) : (Predicate.and (parts ++ more)).Prompt := by
    intro c r
    have hparts := h c r
    have hrest := hmore c r
    rw [eval] at hparts hrest ⊢
    exact prompt_append hparts hrest
  unfold both
  split
  · exact hq
  · exact hp
  · exact hjoin hp hq
  · exact hjoin hp (prompt_and fun _ hmem => List.mem_singleton.1 hmem ▸ hq)
  · exact hpair hp hq

/-- An object of an id, within a permission, is found in no time. -/
theorem prompt_byId_both (id permKey : String) (caller : Caller) :
    ((Predicate.byId id).both (Plan.permission permKey caller)).Prompt :=
  prompt_both (prompt_field _ _) (prompt_permission permKey caller)

end Predicate

namespace Join

theorem punctual_apply (className ownerId : String) (e : Plan.RelationEdit)
    (session : Option SessionId) : Punctual (Join.apply className ownerId e session) := by
  refine .bind (.forIn fun related => ?_) fun _ => ?_
  · exact .bind (.call fun _ => rfl) fun _ => .pure _
  · exact .ite (.bind (.call fun _ => rfl) fun _ => .pure _) (.pure _)

end Join

namespace Write

/-- **An update by a predicate without scripts does not wait.** -/
theorem punctual_update (name : String) {p : Predicate} (hp : p.Prompt) (plan : Plan.UpdatePlan)
    (many : Bool) (session : Option SessionId) :
    Punctual ((Write.update name p plan many).run session) := by
  have hfind (limit : Option Nat) (projection : Option (List String)) (s : Store) :
      s.waitMs (.find name { filter := p, limit, projection } session) = 0 :=
    Store.waitMs_find s name hp session
  have hcount (s : Store) : s.waitMs (.count name p none session) = 0 :=
    Store.waitMs_count s name hp none session
  refine .ite_bind (.pure _) (.bind (.call (hfind _ _)) fun _ => .pure _) fun owners => ?_
  refine .bind (.ite (.bind (.call hcount) fun _ => .pure _) (.ite ?_ ?_)) fun out => ?_
  · exact .bind (.call fun _ => rfl) fun _ => .pure _
  · exact .bind (.call fun _ => rfl) fun _ => .pure _
  · refine .bind (.forIn fun owner => ?_) fun _ => .pure _
    refine .bind (.forIn fun e => ?_) fun _ => .pure _
    exact .bind (Join.punctual_apply name owner e session) fun _ => .pure _

/-- **An update or insertion does not wait.** -/
theorem punctual_upsert (name : String) (p : Predicate) (edit : Edit)
    (session : Option SessionId) : Punctual ((Write.upsert name p edit).run session) :=
  .bind (.call fun _ => rfl) fun _ => .pure _

end Write

/-! ### What work leaves -/

namespace Action

/-- **The cache and the world that work leaves.** -/
def after (work : Action α) (state : SchemaCache × World) : SchemaCache × World :=
  ((work.runIn state.1 state.2).1.2, (work.runIn state.1 state.2).2)

variable {cache cache' : SchemaCache} {w v : World}

/-- Work that succeeds leaves its state to what follows. -/
theorem after_bind {work : Action α} {a : α} (h : work.runIn cache w = ((.ok a, cache'), v))
    (f : α → Action β) : (work >>= f).after (cache, w) = (f a).after (cache', v) := by
  unfold after
  rw [runIn_bind, h]

theorem after_map (work : Action α) (f : α → β) (state : SchemaCache × World) :
    Action.after (do return f (← work)) state = work.after state := by
  unfold after
  rw [runIn_bind]
  rcases work.runIn state.1 state.2 with ⟨⟨_ | a, kept⟩, u⟩ <;> rfl

theorem after_guarded (config : Config) (work : Action α) (state : SchemaCache × World) :
    (Engine.guarded config work).after state = work.after state := by
  unfold after
  rw [runIn_guarded]
  rcases work.runIn state.1 state.2 with ⟨⟨_ | a, kept⟩, u⟩ <;> rfl

/-! ### Work that leaves the cache alone -/

/-- **Work that leaves the cache alone.** -/
def Keeps (work : Action α) : Prop := ∀ cache w, (work.runIn cache w).1.2 = cache

namespace Keeps

theorem pure (a : α) : Keeps (pure a : Action α) := fun _ _ => rfl

/-- What fails at once does nothing. -/
theorem throw_bind (e : EngineError) (f : α → Action β) :
    Keeps ((throw e : Action α) >>= f) := fun _ _ => rfl

theorem outcome (x : Outcome α) : Keeps (liftM x : Action α) := fun _ _ => rfl

theorem lift (work : StoreAction α) : Keeps (ofStore work) := fun cache w => by
  rw [runIn_ofStore]

theorem bind {work : Action α} {f : α → Action β} (hwork : Keeps work)
    (hf : ∀ a, Keeps (f a)) : Keeps (work >>= f) := by
  intro cache w
  have hfirst := hwork cache w
  rw [runIn_bind]
  rcases hrun : work.runIn cache w with ⟨⟨_ | a, kept⟩, u⟩ <;> rw [hrun] at hfirst
  · exact hfirst
  · exact (hf a kept u).trans hfirst

theorem ite {p : Prop} [Decidable p] {x y : Action α} (hx : Keeps x) (hy : Keeps y) :
    Keeps (if p then x else y) := by
  split
  · exact hx
  · exact hy

end Keeps

/-- **Work that starts with a schema** and then leaves the cache alone leaves it settled. -/
theorem settled_of_schema_bind {className : String} {f : ClassSchema → Action β}
    (hf : ∀ schema, (f schema).Keeps) (hquiet : w.store.Quiet) {b : β}
    (h : (schema className >>= f).runIn cache w = ((.ok b, cache'), v)) :
    cache'.Settled className w.now.toMs := by
  obtain ⟨s, kept, u, hschema, hrest⟩ := runIn_bind_eq_ok.1 h
  obtain ⟨u', -, hread⟩ := runIn_schema hquiet className cache
  have hkept := hf s kept u
  rw [hrest] at hkept
  obtain rfl : cache' = kept := hkept
  rw [hread] at hschema
  exact SchemaCache.settled_read (Prod.mk.inj hschema).1

end Action

/-! ### Single writes -/

namespace Engine

variable {config : Config} {caller : Caller} {cache kept : SchemaCache} {w v u : World}

theorem prepareUpdate_eq_ok {className : String} {p : Predicate} {ops : UpdateMap} {many : Bool}
    {write : Write}
    (h : (prepareUpdate caller className p ops many).runIn cache w = ((.ok write, kept), v)) :
    ∃ plan, write = .update className p plan many := by
  obtain ⟨schema, _, _, -, h⟩ := Action.runIn_bind_eq_ok.1 h
  obtain ⟨plan, _, _, -, h⟩ := Action.runIn_bind_eq_ok.1 h
  obtain ⟨t, _, _, -, h⟩ := Action.runIn_bind_eq_ok.1 h
  exact ⟨_, (Except.ok.inj (Prod.mk.inj (Prod.mk.inj h).1).1).symm⟩

/-- What was written is read back with the schema that is at hand. -/
theorem after_readResult {className : String} (hsettled : kept.Settled className v.now.toMs)
    (hquiet : v.store.Quiet) (r : Record) :
    ∃ u, v.Rests u ∧ Action.after (do
      let schema ← Action.schema className
      (readDocument schema caller r : Outcome Document)) (kept, v) = (kept, u) := by
  obtain ⟨u, hu, hread⟩ := Action.runIn_schema hquiet className kept
  have hkept := hsettled.read ((Action.load className).outcomeIn v)
  refine ⟨u, hu, ?_⟩
  unfold Action.after
  rw [Action.runIn_bind, hread]
  rcases hschema : kept.read className ((Action.load className).outcomeIn v) v.now.toMs
    with ⟨_ | schema, cache'⟩
  · rw [hschema] at hkept
    rw [← hkept]
  · rw [hschema] at hkept
    rw [← hkept]
    rfl

/-- The class of an update, or of an update or insertion, is settled once it is planned. -/
theorem settled_prepareUpdate {className : String} {p : Predicate} {ops : UpdateMap} {many : Bool}
    {write : Write} (hquiet : w.store.Quiet)
    (h : (prepareUpdate caller className p ops many).runIn cache w = ((.ok write, kept), v)) :
    kept.Settled className w.now.toMs := by
  refine Action.settled_of_schema_bind (fun schema => ?_) hquiet h
  exact .bind (.outcome _) fun u => .bind (.lift _) fun t => .pure _

theorem settled_prepareUpsert {className : String} {f : Filter} {ops : UpdateMap} {write : Write}
    (hquiet : w.store.Quiet)
    (h : (prepareUpsert config caller className f ops).runIn cache w = ((.ok write, kept), v)) :
    kept.Settled className w.now.toMs := by
  refine Action.settled_of_schema_bind (fun schema => ?_) hquiet h
  refine .bind (.outcome _) fun u => ?_
  refine .ite (.throw_bind _ _) (.bind (.lift _) fun p => .bind (.lift _) fun t => .ite ?_ ?_)
  · exact .bind (.pure _) fun _ => .pure _
  · exact .bind (.lift _) fun id => .bind (.pure _) fun _ => .pure _

/-- An update or insertion is planned as one. -/
theorem prepareUpsert_eq_ok {className : String} {f : Filter} {ops : UpdateMap} {write : Write}
    (h : (prepareUpsert config caller className f ops).runIn cache w = ((.ok write, kept), v)) :
    ∃ p edit, write = .upsert className p edit := by
  have hany : Store.Stable fun _ => True := fun _ _ _ _ => trivial
  have hplanned : Action.Ensures (fun _ => True) (fun _ => True)
      (fun write => ∃ p edit, write = Write.upsert className p edit)
      (prepareUpsert config caller className f ops) := by
    refine .bind (Action.ensures_schema_any hany className) fun schema _ => ?_
    refine .bind (.outcome fun _ _ => trivial) fun u _ => .guard fun _ => ?_
    refine .bind (.lift (.of_calls (fun _ _ h => h) _)) fun p _ => ?_
    refine .bind (.lift (Action.ensures_now _)) fun t _ => .ite (fun _ => ?_) fun _ => ?_
    · exact .bind (Q := fun _ => True) (.pure trivial) fun _ _ => .pure ⟨_, _, rfl⟩
    · refine .bind (.lift (Action.ensures_newId _)) fun id _ => ?_
      exact .bind (Q := fun _ => True) (.pure trivial) fun _ _ => .pure ⟨_, _, rfl⟩
  have hresult : ∀ write, ((prepareUpsert config caller className f ops).runIn cache w).1.1 =
      .ok write → ∃ p edit, write = Write.upsert className p edit :=
    (hplanned.runIn trivial trivial).2.2
  rw [h] at hresult
  exact hresult write rfl

/-- **A single write** leaves the cache as its planning left it and the store as the planned write
left it. -/
theorem after_writeOne {op : WriteOp} {write : Write} {r : WriteResult}
    (hprepare : (prepare config caller op).runIn cache w = ((.ok write, kept), v))
    (hrun : (write.run none).run.run v = (.ok r, u)) (hquiet : w.store.Quiet)
    (hquiet' : u.store.Quiet) (hclock : v.clockMs = w.clockMs) (hepoch : v.epoch = w.epoch)
    (hepoch' : u.epoch = v.epoch) :
    ∃ x, u.Rests x ∧ (writeOne config caller op).after (cache, w) = (kept, x) := by
  have hwritten : (liftM (write.run none) : Action WriteResult).runIn kept v =
      ((.ok r, kept), u) := by
    rw [show (liftM (write.run none) : Action WriteResult) = Action.ofStore (write.run none)
      from rfl, Action.runIn_ofStore, StoreAction.outcomeIn, hrun]
  have hnow (hpunctual : (write.run none).Punctual) : u.now = w.now := by
    have hsame : u.clockMs = v.clockMs := by
      have h := hpunctual v
      rw [hrun] at h
      exact h
    simp only [World.now, hsame, hclock, hepoch, hepoch']
  cases op with
  | create className d =>
    obtain ⟨⟨write', d'⟩, _, _, hcreate, hpure⟩ := Action.runIn_bind_eq_ok.1 hprepare
    obtain ⟨⟨⟨⟩, rfl⟩, rfl⟩ : (write' = write ∧ _ = kept) ∧ _ = v := by
      have h := Prod.mk.inj hpure
      exact ⟨⟨Except.ok.inj (Prod.mk.inj h.1).1, (Prod.mk.inj h.1).2⟩, h.2⟩
    refine ⟨u, .refl u, ?_⟩
    rw [writeOne, Action.after_map, create, Action.after_guarded, Action.after_bind hcreate,
      Action.after_bind hwritten]
    rfl
  | update className objectId ops =>
    obtain ⟨plan, rfl⟩ := prepareUpdate_eq_ok hprepare
    have hsettled := settled_prepareUpdate hquiet hprepare
    have hsame := hnow (Write.punctual_update className (Predicate.prompt_byId_both _ _ _) _ _ _)
    rw [← hsame] at hsettled
    rw [writeOne, Action.after_map, update, Action.after_guarded, Action.after_bind hprepare,
      Action.after_bind hwritten]
    split
    · exact after_readResult hsettled hquiet' _
    · exact ⟨u, .refl u, rfl⟩
  | updateMany className f ops =>
    refine ⟨u, .refl u, ?_⟩
    rw [writeOne, Action.after_map, updateMany, Action.after_guarded, Action.after_bind hprepare,
      Action.after_bind hwritten]
    split <;> rfl
  | upsert className f ops =>
    change (prepareUpsert config caller className f ops).runIn cache w = _ at hprepare
    obtain ⟨p, edit, rfl⟩ := prepareUpsert_eq_ok hprepare
    have hsettled := settled_prepareUpsert hquiet hprepare
    have hsame := hnow (Write.punctual_upsert className _ _ _)
    rw [← hsame] at hsettled
    rw [writeOne, Action.after_map, upsert, Action.after_guarded, Action.after_bind hprepare,
      Action.after_bind hwritten]
    split
    · exact after_readResult hsettled hquiet' _
    · exact ⟨u, .refl u, rfl⟩
  | delete className f =>
    refine ⟨u, .refl u, ?_⟩
    rw [writeOne, Action.after_map, delete, Action.after_guarded, Action.after_bind hprepare,
      Action.after_bind hwritten]
    split
    · split <;> rfl
    · rfl

end Engine

end ObjectEngine
