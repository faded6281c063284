import ObjectEngine.Proofs.Engine.Issuing

/-!
# A batch beside its writes one by one

What is planned for a write depends on little of the store: on the schemas, and on the edges that
the look-ups of its filter find. So a write is planned alike in two worlds that have the same
schemas and the same time (`World.Alike`) and in which the look-ups come to the same
(`Engine.couples_prepare`). While a write is planned both worlds stay at rest, and make up the same
ids for new objects (`World.Planning`).

A batch in a transaction is planned as a whole before any of its writes runs. Issued one by one
(`Engine.issueAll`), a write is planned when those before it have run. What a plan depends on of
the store are the schemas, which no write changes, and what the look-ups of relations find. So if
every look-up finds, when its write is due, what it found before the batch
(`Engine.Undisturbed`), a batch that commits leaves the records that its writes leave one by one
(`Engine.executeBatch_eq_issueAll`).

The condition is needed: a batch that adds an edge and then updates the owners of such edges finds
no owner (`Engine.not_executeBatch_eq_joining`), since the owners were looked up before the edge
was there.

A batch may be tried again, after a transient error. Where no fault is due there is none: the
first attempt is the only one (`Batch.run_transaction`).
-/

namespace ObjectEngine

section

variable {α β : Type}

/-! ### Planning in two worlds -/

/-- **Two worlds where writes are planned alike**: no fault is due, and they have the same schemas
and the same time. -/
structure World.Alike (w v : World) : Prop where
  quiet : w.store.Quiet
  quiet' : v.store.Quiet
  schemas : v.store.collection Catalog.collection = w.store.collection Catalog.collection
  clockMs : v.clockMs = w.clockMs
  epoch : v.epoch = w.epoch

/-- **Two worlds while writes are planned**: each is at rest since it was `w₀` or `v₀`, and they
have made up the same ids. -/
structure World.Planning (w₀ v₀ w v : World) : Prop where
  left : Store.Rests w₀.store w.store
  right : Store.Rests v₀.store v.store
  clockMs : w.clockMs = w₀.clockMs ∧ v.clockMs = v₀.clockMs
  epoch : w.epoch = w₀.epoch ∧ v.epoch = v₀.epoch
  nextObject : v.nextObject = w.nextObject

namespace World

variable {w₀ v₀ w v w' v' : World}

theorem Planning.rests (h : Planning w₀ v₀ w v) (hw : w.Rests w') (hv : v.Rests v') :
    Planning w₀ v₀ w' v' where
  left := h.left.trans hw.store
  right := h.right.trans hv.store
  clockMs := ⟨hw.clockMs.trans h.clockMs.1, hv.clockMs.trans h.clockMs.2⟩
  epoch := ⟨hw.epoch.trans h.epoch.1, hv.epoch.trans h.epoch.2⟩
  nextObject := by rw [hv.nextObject, hw.nextObject, h.nextObject]

theorem Alike.now (halike : Alike w₀ v₀) (h : Planning w₀ v₀ w v) : v.now = w.now := by
  simp only [World.now, h.clockMs.1, h.clockMs.2, h.epoch.1, h.epoch.2, halike.clockMs,
    halike.epoch]

end World

section

variable {w₀ v₀ : World} (halike : World.Alike w₀ v₀)

include halike

/-- Work that reads goes on alike if it comes to the same in the worlds at the beginning. -/
theorem StoreAction.Reads.couples {P : String → Prop} {work : StoreAction α} (hwork : work.Reads P)
    (hsame : work.outcomeIn w₀ = work.outcomeIn v₀) :
    StoreAction.Couples (World.Planning w₀ v₀) (fun _ => True) work work := by
  intro w v h
  have hleft := hwork w₀ w ⟨fun name _ => h.left.collection name, halike.quiet,
    halike.quiet.rests h.left⟩
  have hright := hwork v₀ v ⟨fun name _ => h.right.collection name, halike.quiet',
    halike.quiet'.rests h.right⟩
  refine ⟨?_, fun _ _ => trivial, h.rests hleft.2.2 hright.2.2⟩
  exact (hleft.1.symm.trans hsame).trans hright.1

/-- **Schemas are read alike**, and a faithful cache gives those of the class. -/
theorem Action.couples_schema (className : String) :
    Action.Couples (World.Planning w₀ v₀) SchemaCache.Faithful
      (fun schema => schema.className = className) (schema className) (schema className) := by
  intro cache hcache w v h
  have hensures : ((schema className).runIn cache w).1.2.Faithful ∧
      ∀ found, ((schema className).runIn cache w).1.1 = .ok found →
        found.className = className ∧ isClassName className = true :=
    ((ensures_schema (I := fun _ => True) (fun _ _ _ _ => trivial) className).runIn hcache
      trivial).2
  obtain ⟨w', hw, hleft⟩ := runIn_schema (halike.quiet.rests h.left) className cache
  obtain ⟨v', hv, hright⟩ := runIn_schema (halike.quiet'.rests h.right) className cache
  have hagree : Store.Agree (· = Catalog.collection) w.store v.store := by
    refine ⟨?_, halike.quiet.rests h.left, halike.quiet'.rests h.right⟩
    rintro name rfl
    rw [h.right.collection, h.left.collection, halike.schemas]
  have hload : (load className).outcomeIn w = (load className).outcomeIn v :=
    (Catalog.reads_require className w v hagree).1
  change (schema className).runIn cache v = _ at hright
  rw [← hload, halike.now h] at hright
  have hresult : ((schema className).runIn cache w).1 = ((schema className).runIn cache v).1 := by
    rw [hleft, hright]
  refine ⟨hresult, ⟨hensures.1, fun found hfound => (hensures.2 found hfound).1⟩, ?_⟩
  change World.Planning w₀ v₀ ((schema className).runIn cache w).2
    ((schema className).runIn cache v).2
  rw [hleft, hright]
  exact h.rests hw hv

theorem Action.couples_now :
    StoreAction.Couples (World.Planning w₀ v₀) (fun _ => True) Action.now Action.now := by
  intro w v h
  have hnow : Except.ok w.now = (Except.ok v.now : Outcome Instant) := by rw [halike.now h]
  exact ⟨hnow, fun _ _ => trivial, h⟩

omit halike in
theorem Action.couples_newId :
    StoreAction.Couples (World.Planning w₀ v₀) (fun _ => True) Action.newId Action.newId := by
  intro w v h
  have hid : Except.ok (World.objectId w.nextObject) =
      (Except.ok (World.objectId v.nextObject) : Outcome String) := by rw [h.nextObject]
  refine ⟨hid, fun _ _ => trivial, h.left, h.right, h.clockMs, h.epoch, ?_⟩
  exact congrArg (· + 1) h.nextObject

end

/-! ### Planning a write -/

/-- The filter of a write that has one. -/
def WriteOp.filter? : WriteOp → Option Filter
  | .updateMany _ f _ | .upsert _ f _ | .delete _ f => some f
  | _ => none

/-- **The look-ups that a write needs**, if its class has a schema. -/
def WriteOp.Needs (op : WriteOp) (l : Engine.RelationLookup) : Prop :=
  ∃ f schema, op.filter? = some f ∧ l ∈ Engine.lookups schema f

namespace Engine

variable {config : Config} {caller : Caller} {w₀ v₀ : World} (halike : World.Alike w₀ v₀)

/-- **A look-up of a class finds the same** in two worlds. -/
def SameFinding (className : String) (w v : World) (l : RelationLookup) : Prop :=
  (lookUp className l).outcomeIn w = (lookUp className l).outcomeIn v

include halike

theorem couples_scopedFilter {schema : ClassSchema} {f : Filter} (permKey : String)
    (hsame : ∀ l ∈ lookups schema f, SameFinding schema.className w₀ v₀ l) :
    StoreAction.Couples (World.Planning w₀ v₀) (fun _ => True)
      (scopedFilter config caller schema permKey f)
      (scopedFilter config caller schema permKey f) := by
  refine .bind (.bind (.mapM fun l hl => ?_) fun found => .pure _) fun reduced => ?_
  · have hneeded : l ∈ lookups schema f := List.mem_eraseDups.1 hl
    exact .bind ((reads_lookUp schema.className l).couples halike (hsame l hneeded))
      fun ids => .pure _
  · exact .bind (.outcome fun _ _ => trivial) fun planned => .pure _

theorem couples_prepareCreate (className : String) (d : Document) :
    Action.Couples (World.Planning w₀ v₀) SchemaCache.Faithful (fun _ => True)
      (prepareCreate caller className d) (prepareCreate caller className d) := by
  refine .bind (Action.couples_schema halike className) fun schema _ => ?_
  have hrest : ∀ work : Action (Write × Document), (work = do
        let objectId ← if d.objectId.isEmpty then Action.newId else pure d.objectId
        let t ← Action.now
        let d : Document :=
          { d with className, objectId, createdAt := d.createdAt <|> some t,
                   updatedAt := d.updatedAt <|> some t }
        let record ← (Stored.encodeDocument schema d : Outcome Record)
        return (Write.insert className record, d)) →
      Action.Couples (World.Planning w₀ v₀) SchemaCache.Faithful (fun _ => True) work work := by
    rintro _ rfl
    refine .ite_bind (Q := fun _ => True) (.lift Action.couples_newId) (.pure trivial)
      fun objectId _ => ?_
    refine .bind (.lift (Action.couples_now halike)) fun t _ => ?_
    exact .bind (.outcome _) fun record _ => .pure trivial
  refine .ite ?_ (hrest _ rfl)
  split
  · exact .bind (Q := fun _ => False) .throw nofun
  · exact hrest _ rfl

theorem couples_prepareUpdate (className : String) (p : Predicate) (ops : UpdateMap)
    (many : Bool) :
    Action.Couples (World.Planning w₀ v₀) SchemaCache.Faithful (fun _ => True)
      (prepareUpdate caller className p ops many) (prepareUpdate caller className p ops many) := by
  refine .bind (Action.couples_schema halike className) fun schema _ => ?_
  refine .bind (.outcome _) fun u _ => ?_
  exact .bind (.lift (Action.couples_now halike)) fun t _ => .pure trivial

theorem couples_prepareUpsert {className : String} {f : Filter}
    (hsame : ∀ schema l, l ∈ lookups schema f → SameFinding className w₀ v₀ l) (ops : UpdateMap) :
    Action.Couples (World.Planning w₀ v₀) SchemaCache.Faithful (fun _ => True)
      (prepareUpsert config caller className f ops)
      (prepareUpsert config caller className f ops) := by
  refine .bind (Action.couples_schema halike className) fun schema hschema => ?_
  subst hschema
  refine .bind (.outcome _) fun u _ => ?_
  refine .ite (.bind (Q := fun _ => False) .throw nofun) ?_
  refine .bind (.lift (couples_scopedFilter halike _ (hsame schema))) fun p _ => ?_
  refine .bind (.lift (Action.couples_now halike)) fun t _ => .ite ?_ ?_
  · exact .bind (Q := fun _ => True) (.pure trivial) fun _ _ => .pure trivial
  · refine .bind (.lift Action.couples_newId) fun id _ => ?_
    exact .bind (Q := fun _ => True) (.pure trivial) fun _ _ => .pure trivial

/-- **A write is planned alike** in two worlds if the look-ups it needs come to the same. -/
theorem couples_prepare {op : WriteOp}
    (hsame : ∀ l, op.Needs l → SameFinding op.className w₀ v₀ l) :
    Action.Couples (World.Planning w₀ v₀) SchemaCache.Faithful (fun _ => True)
      (prepare config caller op) (prepare config caller op) := by
  cases op with
  | create className d =>
    exact .bind (couples_prepareCreate halike className d) fun _ _ => .pure trivial
  | update className objectId ops => exact couples_prepareUpdate halike className _ ops false
  | updateMany className f ops =>
    refine .bind (Action.couples_schema halike className) fun schema hschema => ?_
    subst hschema
    refine .bind (.lift (couples_scopedFilter halike _ fun l hl => hsame l ⟨f, schema, rfl, hl⟩))
      fun p _ => ?_
    exact couples_prepareUpdate halike schema.className p ops true
  | upsert className f ops =>
    exact couples_prepareUpsert halike (fun schema l hl => hsame l ⟨f, schema, rfl, hl⟩) ops
  | delete className f =>
    refine .bind (Action.couples_schema halike className) fun schema hschema => ?_
    subst hschema
    refine .bind (.lift (couples_scopedFilter halike _ fun l hl => hsame l ⟨f, schema, rfl, hl⟩))
      fun p _ => .pure trivial

end Engine

end

/-! ### The only attempt -/

namespace Batch

/-- **What a transaction comes to** without faults: it fails with an error that lasts, or has run
all writes on its session and leaves what they left, in a store with `Q`. -/
def Transacts (id : SessionId) (writes : List Write) (s : Store) (Q : Store → Prop)
    (out : Outcome (List WriteResult) × World) : Prop :=
  (∃ e, out.1 = .error e ∧ e.Lasts) ∨
    ∃ begun results, s.Rests begun.store ∧ (begun.store.session? id).isSome ∧
      ((writes.mapM (Write.run (some id))).run.run begun).1 = .ok results ∧
      out.1 = .ok results ∧ out.2.store.Quiet ∧ Q out.2.store ∧
      Store.Rests ((writes.mapM (Write.run (some id))).run.run begun).2.store out.2.store

section

variable {w : World} {writes : List Write}
  (hclasses : ∀ write ∈ writes, isClassName write.collection = true)

include hclasses

/-- A transaction on a session that is active. -/
theorem transacts_runOn {id : SessionId} (hquiet : w.store.Quiet)
    (hactive : (w.store.session? id).isSome) :
    Transacts id writes w.store (fun t => t.session? id = some {})
      ((runOn id writes).run.run w) := by
  obtain ⟨hlasting, hstarted, hsession⟩ := hquiet.run_startTransaction hactive
  refine run_bind_cases (fun e v hrun => ?_) fun _ begun hrun => ?_
  · exact .inl ⟨e, rfl, hlasting e (store_of_run_call hrun).1⟩
  · obtain ⟨-, hbegun⟩ := store_of_run_call hrun
    rw [hbegun] at hstarted hsession
    -- beside itself, the session is as good as none
    have habreast : World.Abreast id begun begun begun :=
      ⟨⟨fun _ => rfl, rfl, hsession, hquiet.rests hstarted, hquiet.rests hstarted⟩, rfl, rfl, rfl⟩
    have hwrites : StoreAction.Couples (World.Abreast id begun) EngineError.Lasts
        (writes.mapM (Write.run (some id))) (writes.mapM (Write.run none)) :=
      .mapM fun write hmem => Write.couples_run (hclasses write hmem)
    obtain ⟨-, hlasting', hafter⟩ := hwrites begun begun habreast
    refine run_outcomeOf_cases fun r written hrun => ?_
    rw [hrun] at hlasting' hafter
    cases r with
    | error e => exact run_outcomeOf_cases fun _ _ _ => .inl ⟨e, rfl, hlasting' e rfl⟩
    | ok results =>
      obtain ⟨hcommit, hrests, hclosed⟩ := hafter.store.quiet.run_commit hafter.store.active
      refine run_outcomeOf_cases fun r committed hrun' => ?_
      obtain ⟨houtcome, hstore⟩ := store_of_run_call hrun'
      obtain rfl : r = .ok () := houtcome.symm.trans hcommit
      rw [hstore] at hrests hclosed
      have hquiet' := hafter.store.quiet.rests hrests
      refine .inr ⟨begun, results, hstarted, hsession, ?_, rfl, hquiet', hclosed, ?_⟩
      · rw [hrun]
      · rw [hrun]
        exact hrests

/-- **An attempt** is a transaction on a session of its own. -/
theorem transacts_attempt (hquiet : w.store.Quiet) :
    ∃ id, Transacts id writes w.store (fun _ => True) ((attempt writes).run.run w) := by
  obtain ⟨hid, hstarted, hsession⟩ := hquiet.run_startSession
  refine ⟨⟨w.store.nextSession⟩, run_bind_cases (fun e v hrun => ?_) fun id opened hrun => ?_⟩
  · exact absurd ((store_of_run_call hrun).1.symm.trans hid) (by simp)
  · obtain ⟨houtcome, hopened⟩ := store_of_run_call hrun
    obtain rfl : id = ⟨w.store.nextSession⟩ := Except.ok.inj (houtcome.symm.trans hid)
    rw [hopened] at hstarted hsession
    have htransacts := transacts_runOn hclasses (hquiet.rests hstarted) hsession
    refine run_outcomeOf_cases fun r done hdone => ?_
    rw [hdone] at htransacts
    refine run_outcomeOf_cases fun _ ended hended => ?_
    obtain ⟨-, hstore⟩ := store_of_run_call hended
    rcases htransacts with
      ⟨e, rfl, hlasts⟩ | ⟨begun, results, hbegun, hactive, hrun, rfl, hq, hclosed, hrests⟩
    · exact .inl ⟨e, rfl, hlasts⟩
    · have hend := hq.run_endSession hclosed
      rw [hstore] at hend
      exact .inr ⟨begun, results, hstarted.trans hbegun, hactive, hrun, rfl, hq.rests hend, trivial,
        hrests.trans hend⟩

/-- **There is one attempt** where no fault is due: if it fails, its error lasts. -/
theorem run_transaction (hquiet : w.store.Quiet) (retries number : Nat) :
    (transaction writes retries number).run.run w = (attempt writes).run.run w := by
  cases retries with
  | zero => rfl
  | succ retries =>
    refine run_outcomeOf_cases (P := fun out => out = (attempt writes).run.run w)
      fun r v hrun => ?_
    obtain ⟨id, htransacts⟩ := transacts_attempt hclasses hquiet
    rw [hrun] at htransacts ⊢
    rcases htransacts with ⟨e, rfl, hlasts⟩ | ⟨_, results', _, _, _, rfl, _, _, _⟩
    · simp only [hlasts, Bool.false_eq_true, if_false]
      rfl
    · rfl

end

end Batch

/-! ### Writes one by one -/

namespace Engine

section

variable (config : Config) (caller : Caller)

/-- Issues a single write, and puts the clock back to the time of the call: how long a write waits
does not show in the times that the next one stores. -/
def issue (state : SchemaCache × World) (op : WriteOp) : SchemaCache × World :=
  let (cache, w) := (writeOne config caller op).after state
  (cache, { w with clockMs := state.2.clockMs })

/-- **Issues writes one after another.** -/
def issueAll (writes : List WriteOp) (state : SchemaCache × World) : SchemaCache × World :=
  writes.foldl (issue config caller) state

/-- **No look-up is disturbed**: what a write needs to look up is found, when the write is due, as
it was found in the world `w`. -/
def Undisturbed (w : World) (writes : List WriteOp) (state : SchemaCache × World) : Prop :=
  ∀ before op after, writes = before ++ op :: after → ∀ l, op.Needs l →
    SameFinding op.className w (issueAll config caller before state).2 l

variable {config caller}

theorem Undisturbed.head {w : World} {op : WriteOp} {rest : List WriteOp}
    {state : SchemaCache × World} (h : Undisturbed config caller w (op :: rest) state)
    {l : RelationLookup} (hl : op.Needs l) : SameFinding op.className w state.2 l :=
  h [] op rest rfl l hl

theorem Undisturbed.tail {w : World} {op : WriteOp} {rest : List WriteOp}
    {state : SchemaCache × World} (h : Undisturbed config caller w (op :: rest) state) :
    Undisturbed config caller w rest (issue config caller state op) := by
  rintro before op' after rfl l hl
  exact h (op :: before) op' after rfl l hl

/-- Writes that need no look-up are not disturbed. -/
theorem undisturbed_of_plain {w : World} {writes : List WriteOp} {state : SchemaCache × World}
    (h : ∀ op ∈ writes, ∀ l, ¬op.Needs l) : Undisturbed config caller w writes state := by
  rintro before op after rfl l hl
  exact absurd hl (h op (by simp) l)

end

/-! ### Side by side -/

/-- **A batch on its way** beside its writes one by one. Planning began in the world `origin` and
has come to `planned`; the store `s` is written through the session, and the single writes have
come to the world `v`. -/
structure Following (session : SessionId) (origin planned : World) (s : Store) (v : World) :
    Prop where
  alike : World.Alike origin v
  planning : World.Planning origin v planned v
  abreast : Store.Abreast session s v.store

variable {config : Config} {caller : Caller} {session : SessionId} {origin : World}

/-- **One write further**: planned, run on the session, and issued by itself. -/
theorem Following.step {planned planned' begun begun' v : World} {cache kept : SchemaCache}
    {op : WriteOp} {write : Write} {r : WriteResult}
    (h : Following session origin planned begun.store v) (hcache : cache.Faithful)
    (hsame : ∀ l, op.Needs l → SameFinding op.className origin v l)
    (hprepare : (prepare config caller op).runIn cache planned = ((.ok write, kept), planned'))
    (hrun : (write.run (some session)).run.run begun = (.ok r, begun')) :
    ∃ v', issue config caller (cache, v) op = (kept, v') ∧ kept.Faithful ∧
      Following session origin planned' begun'.store v' := by
  have hplanned : ((prepare config caller op).runIn cache planned).1.2.Faithful ∧
      ∀ write, ((prepare config caller op).runIn cache planned).1.1 = .ok write →
        write.Authorized caller ∧ write.collection = op.className :=
    ((ensures_prepare (I := fun _ => True) (fun _ _ _ _ => trivial) config op).runIn hcache
      trivial).2
  obtain ⟨hresult, -, hplanning⟩ :=
    couples_prepare h.alike hsame cache hcache planned v h.planning
  change ((prepare config caller op).runIn cache planned).1 =
    ((prepare config caller op).runIn cache v).1 at hresult
  change World.Planning origin v ((prepare config caller op).runIn cache planned).2
    ((prepare config caller op).runIn cache v).2 at hplanning
  rw [hprepare] at hplanned hresult hplanning
  rcases hissued : (prepare config caller op).runIn cache v with ⟨out, v₁⟩
  rw [hissued] at hresult hplanning
  obtain rfl : ((.ok write, kept) : Outcome Write × SchemaCache) = out := hresult
  -- on the session and on none the write comes to the same
  have hclass := (hplanned.2 write rfl).1.isClassName
  have hbefore : World.Abreast session v₁ begun v₁ :=
    ⟨h.abreast.rests (.refl _) hplanning.right h.abreast.active, rfl, rfl, rfl⟩
  obtain ⟨hboth, -, hafter⟩ := Write.couples_run hclass begun v₁ hbefore
  rw [hrun] at hboth hafter
  rcases halone : (write.run none).run.run v₁ with ⟨out, v₂⟩
  rw [halone] at hboth hafter
  obtain rfl : (.ok r : Outcome WriteResult) = out := hboth
  obtain ⟨v₃, hrests, hleft⟩ := after_writeOne hissued halone h.alike.quiet' hafter.store.quiet'
    hplanning.clockMs.2 hplanning.epoch.2 hafter.epoch
  refine ⟨{ v₃ with clockMs := v.clockMs }, ?_, hplanned.1, ⟨h.alike.quiet, ?_, ?_, ?_, ?_⟩,
    ⟨hplanning.left, .refl _, ⟨hplanning.clockMs.1, rfl⟩, ⟨hplanning.epoch.1, rfl⟩, ?_⟩,
    hafter.store.rests (.refl _) hrests.store hafter.store.active⟩
  · rw [issue, hleft]
  · exact hafter.store.quiet'.rests hrests.store
  · change v₃.store.collection Catalog.collection = _
    rw [hrests.store.collection, hafter.schemas, hplanning.right.collection, h.alike.schemas]
  · exact h.alike.clockMs
  · change v₃.epoch = _
    rw [hrests.epoch, hafter.epoch, hplanning.epoch.2, h.alike.epoch]
  · change v₃.nextObject = _
    rw [hrests.nextObject, hafter.nextObject, hplanning.nextObject]

/-- **All the way**: the stores have the same records at the end. -/
theorem Following.run {writes : List WriteOp} {planned planned' begun begun' v : World}
    {cache cache' : SchemaCache} {prepared : List (Outcome Write)} {ready : List Write}
    {results : List WriteResult} (h : Following session origin planned begun.store v)
    (hcache : cache.Faithful) (hundisturbed : Undisturbed config caller origin writes (cache, v))
    (hplan : (prepareAll config caller writes).runIn cache planned =
      ((.ok prepared, cache'), planned'))
    (hready : (prepared.mapM id : Outcome (List Write)) = .ok ready)
    (hrun : (ready.mapM (Write.run (some session))).run.run begun = (.ok results, begun'))
    (name : String) :
    begun'.store.collection name =
      (issueAll config caller writes (cache, v)).2.store.collection name := by
  induction writes generalizing planned begun v cache prepared ready results with
  | nil =>
    obtain rfl : [] = prepared := Except.ok.inj (Prod.mk.inj (Prod.mk.inj hplan).1).1
    obtain rfl : [] = ready := Except.ok.inj hready
    obtain rfl : begun = begun' := (Prod.mk.inj hrun).2
    exact (h.abreast.collection name).symm
  | cons op rest ih =>
    rw [prepareAll, List.mapM_cons] at hplan
    obtain ⟨outcome, kept, planned₁, hfirst, hplan⟩ := Action.runIn_bind_eq_ok.1 hplan
    obtain ⟨prepared', kept', planned₂, hrest, hplan⟩ := Action.runIn_bind_eq_ok.1 hplan
    obtain ⟨hprepared, rfl⟩ := Prod.mk.inj hplan
    obtain ⟨⟨⟩, rfl⟩ := Prod.mk.inj hprepared
    rw [List.mapM_cons] at hready
    obtain ⟨write, hplanned, htail⟩ := Outcome.bind_eq_ok.1 hready
    obtain rfl : outcome = .ok write := hplanned
    obtain ⟨ready', hready', hcons⟩ := Outcome.bind_eq_ok.1 htail
    obtain rfl : write :: ready' = ready := Except.ok.inj hcons
    rw [List.mapM_cons] at hrun
    obtain ⟨r, begun₁, hwrite, hrun⟩ := StoreAction.run_bind_eq_ok.1 hrun
    obtain ⟨results', begun₂, hwrites, hrun⟩ := StoreAction.run_bind_eq_ok.1 hrun
    obtain ⟨-, rfl⟩ := Prod.mk.inj hrun
    have hprepare : (prepare config caller op).runIn cache planned =
        ((.ok write, kept), planned₁) := by
      rw [Action.runIn_outcomeOf] at hfirst
      obtain ⟨hout, hworld⟩ := Prod.mk.inj hfirst
      obtain ⟨houtcome, hkept⟩ := Prod.mk.inj hout
      exact Prod.ext (Prod.ext (Except.ok.inj houtcome) hkept) hworld
    obtain ⟨v', hissue, hkept, hnext⟩ :=
      h.step hcache (fun l hl => hundisturbed.head hl) hprepare hwrite
    have hundisturbed' := hundisturbed.tail
    rw [hissue] at hundisturbed'
    rw [ih hnext hkept hundisturbed' hrest hready' hwrites, issueAll, issueAll, List.foldl_cons,
      hissue]

/-- Planning a batch leaves the world at rest. -/
theorem rests_prepareAll {w w' : World} {writes : List WriteOp} {cache cache' : SchemaCache}
    {prepared : Outcome (List (Outcome Write))} (hquiet : w.store.Quiet)
    (hcache : cache.Faithful)
    (hplan : (prepareAll config caller writes).runIn cache w = ((prepared, cache'), w')) :
    Store.Rests w.store w'.store := by
  have halike : World.Alike w w := ⟨hquiet, hquiet, rfl, rfl, rfl⟩
  have hcouples : Action.Couples (World.Planning w w) SchemaCache.Faithful (fun _ => True)
      (prepareAll config caller writes) (prepareAll config caller writes) :=
    .mapM fun op _ => .outcomeOf (couples_prepare halike fun l _ => rfl)
  have hplanning : World.Planning w w ((prepareAll config caller writes).runIn cache w).2
      ((prepareAll config caller writes).runIn cache w).2 :=
    (hcouples cache hcache w w ⟨.refl _, .refl _, ⟨rfl, rfl⟩, ⟨rfl, rfl⟩, rfl⟩).2.2
  rw [hplan] at hplanning
  exact hplanning.left

/-- What is planned for a batch are writes of classes. -/
theorem isClassName_of_prepareAll {w w' : World} {writes : List WriteOp}
    {cache cache' : SchemaCache} {prepared : List (Outcome Write)} {ready : List Write}
    (hcache : cache.Faithful)
    (hplan : (prepareAll config caller writes).runIn cache w = ((.ok prepared, cache'), w'))
    (hready : (prepared.mapM id : Outcome (List Write)) = .ok ready) :
    ∀ write ∈ ready, isClassName write.collection = true := by
  have hensures : ∀ prepared, ((prepareAll config caller writes).runIn cache w).1.1 =
      .ok prepared → List.Forall₂ (fun op outcome => ∀ write, outcome = .ok write →
        Write.Authorized caller write ∧ write.collection = op.className) writes prepared :=
    ((ensures_prepareAll (I := fun _ => True) (fun _ _ _ _ => trivial) config caller writes).runIn
      hcache trivial).2.2
  rw [hplan] at hensures
  intro write hmem
  obtain ⟨outcome, hmem, houtcome⟩ :=
    Outcome.exists_of_forall₂ (Outcome.forall₂_of_mapM hready) hmem
  obtain ⟨op, -, hplanned⟩ := Outcome.exists_of_forall₂ (hensures prepared rfl) hmem
  exact (hplanned write houtcome).1.isClassName

/-- **How a batch commits**: all of its writes are planned, and then run on one session. -/
theorem exists_of_executeBatch {writes : List WriteOp} {cache : SchemaCache} {w : World}
    {outcomes : List (Outcome WriteResult)} (hcache : cache.Faithful) (hquiet : w.store.Quiet)
    (hrun : (executeBatch config caller writes true cache w).1.1 = .ok outcomes) :
    ∃ prepared cache' w' ready session begun results begun',
      (prepareAll config caller writes).runIn cache w = ((.ok prepared, cache'), w') ∧
      (prepared.mapM id : Outcome (List Write)) = .ok ready ∧
      Store.Rests w.store begun.store ∧ (begun.store.session? session).isSome ∧
      (ready.mapM (Write.run (some session))).run.run begun = (.ok results, begun') ∧
      Store.Rests begun'.store (executeBatch config caller writes true cache w).2.store := by
  unfold executeBatch at hrun ⊢
  rcases hplan : (prepareAll config caller writes).runIn cache w with ⟨⟨prepared, cache'⟩, w'⟩
  have hrests := rests_prepareAll hquiet hcache hplan
  rw [hplan] at hrun
  cases prepared with
  | error e => simp at hrun
  | ok prepared =>
    simp only [if_true] at hrun ⊢
    cases hready : (prepared.mapM id : Outcome (List Write)) with
    | error e => simp [hready] at hrun
    | ok ready =>
      rw [hready] at hrun
      have hclasses := isClassName_of_prepareAll hcache hplan hready
      have hquiet' := hquiet.rests hrests
      -- the transaction has committed, so its only attempt has
      rcases hdone : (Batch.transaction ready config.transactionRetryLimit 1).run.run w' with
        ⟨out, w''⟩
      have hexecute : Batch.execute config.transactionRetryLimit ready true w' =
          (out.map fun outcomes => outcomes.map .ok, w'') := by
        simp only [Batch.execute, if_true, hdone]
      simp only [hexecute] at hrun ⊢
      obtain ⟨results, rfl, -⟩ := Outcome.map_eq_ok.1 (Outcome.mapError_eq_ok.1 hrun)
      have hattempt := Batch.run_transaction hclasses hquiet' config.transactionRetryLimit 1
      obtain ⟨session, htransacts⟩ := Batch.transacts_attempt hclasses hquiet'
      rw [← hattempt, hdone] at htransacts
      rcases htransacts with
        ⟨e, herror, -⟩ | ⟨begun, results', hbegun, hactive, hwrites, -, -, -, hended⟩
      · simp at herror
      · exact ⟨prepared, cache', w', ready, session, begun, results', _, rfl, hready,
          hrests.trans hbegun, hactive, Prod.ext hwrites rfl, hended⟩

/-- **A batch that commits equals its writes one by one**, if no look-up is disturbed: all
collections have the same records and indexes afterwards. -/
theorem executeBatch_eq_issueAll {writes : List WriteOp} {cache : SchemaCache} {w : World}
    {results : List (Outcome WriteResult)} (hcache : cache.Faithful) (hquiet : w.store.Quiet)
    (hundisturbed : Undisturbed config caller w writes (cache, w))
    (hrun : (executeBatch config caller writes true cache w).1.1 = .ok results) (name : String) :
    (executeBatch config caller writes true cache w).2.store.collection name =
      (issueAll config caller writes (cache, w)).2.store.collection name := by
  obtain ⟨prepared, cache', w', ready, session, begun, results', begun', hplan, hready, hrests,
    hactive, hwrites, hended⟩ := exists_of_executeBatch hcache hquiet hrun
  have hfollowing : Following session w w begun.store w :=
    { alike := ⟨hquiet, hquiet, rfl, rfl, rfl⟩
      planning := ⟨.refl _, .refl _, ⟨rfl, rfl⟩, ⟨rfl, rfl⟩, rfl⟩
      abreast := ⟨fun n => (hrests.collection n).symm, hrests.nextId.symm, hactive,
        hquiet.rests hrests, hquiet⟩ }
  rw [hended.collection]
  exact hfollowing.run hcache hundisturbed hplan hready hwrites name

/-! ### Batches that look up edges -/

/-- A world with an object whose relation has some edges. -/
def owning (edges : Members Record) : World where
  store := { collections := [
    ("N", { records := [("a", [("_id", .string "a")])] }),
    ("_Join:rel:N", { records := edges }),
    ("_SCHEMA", { records := [("N", [("_id", .string "N"), ("n", .string "number"),
      ("rel", .string "relation<T>")])] })] }

/-- The edge from the object to another one. -/
def edge : Members Record :=
  [("e", [("_id", .string "e"), ("owningId", .string "a"), ("relatedId", .string "t")])]

/-- A caller who may do everything. -/
def master : Caller := { privileged := true }

/-- Sets the number of the object. -/
def markObject : WriteOp := .update "N" "a" [("n", .set (.int 1))]

/-- Adds the edge. -/
def joinObject : WriteOp := .update "N" "a" [("rel", .addRelation [⟨"T", "t"⟩])]

/-- Sets the number of the owners of such edges. -/
def markOwners : WriteOp :=
  .updateMany "N" (.field "rel" (.relationContains ⟨"T", "t"⟩)) [("n", .set (.int 2))]

/-- To set a number disturbs no look-up of edges. -/
theorem undisturbed_marking :
    Undisturbed {} master (owning edge) [markObject, markOwners]
      ({ ttlMs := 5000 }, owning edge) := by
  intro before op after hwrites l hl
  rcases before with _ | ⟨first, _ | ⟨second, before⟩⟩
  · rfl
  · obtain ⟨rfl, rfl, -⟩ : markObject = first ∧ markOwners = op ∧ [] = after := by
      simpa using hwrites
    obtain ⟨f, schema, hf, hl⟩ := hl
    obtain rfl : Filter.field "rel" (.relationContains ⟨"T", "t"⟩) = f := Option.some.inj hf
    obtain rfl : l = .containing "rel" "t" := by
      have hmem := (List.mem_filter.1 hl).1
      simpa [lookupOf?] using hmem
    have hsame : (lookUp "N" (.containing "rel" "t")).outcomeIn (owning edge) =
        (lookUp "N" (.containing "rel" "t")).outcomeIn
          (issueAll {} master [markObject] ({ ttlMs := 5000 }, owning edge)).2 := by
      decide +kernel
    exact hsame
  · simp at hwrites

theorem executeBatch_eq_issueAll_marking :
    SchemaCache.Faithful { ttlMs := 5000 } ∧ (owning edge).store.Quiet ∧
      Undisturbed {} master (owning edge) [markObject, markOwners]
        ({ ttlMs := 5000 }, owning edge) ∧
      ∃ results,
        (executeBatch {} master [markObject, markOwners] true { ttlMs := 5000 }
          (owning edge)).1.1 = .ok results ∧
        ∀ name, (executeBatch {} master [markObject, markOwners] true { ttlMs := 5000 }
            (owning edge)).2.store.collection name =
          (issueAll {} master [markObject, markOwners]
            ({ ttlMs := 5000 }, owning edge)).2.store.collection name := by
  have hsome : (executeBatch {} master [markObject, markOwners] true { ttlMs := 5000 }
      (owning edge)).1.1.toOption.isSome = true := by decide +kernel
  obtain ⟨results, hresults⟩ := Option.isSome_iff_exists.1 hsome
  have hrun := Outcome.toOption_eq_some.1 hresults
  have hcache := SchemaCache.faithful_empty 5000
  have hquiet : (owning edge).store.Quiet := Store.quiet_of_nil rfl
  exact ⟨hcache, hquiet, undisturbed_marking, results, hrun,
    executeBatch_eq_issueAll hcache hquiet undisturbed_marking hrun⟩

/-- The members of records that may hold an id or a time made up by the engine. -/
def madeUp : List String :=
  [Record.idKey, Stored.createdAtKey, Stored.updatedAtKey, Join.owningKey, Join.relatedKey]

/-- The values that the records of a collection have at a key. -/
def valuesAt (key : String) (c : Collection) : List Datum :=
  (Members.values c.records).filterMap fun r => r.lookup key

/-- **A disturbed look-up shows.** A batch adds an edge and sets a number of the owners of such
edges. The owners were looked up before there was one, so the batch sets no number, and the writes
one by one set one. -/
theorem not_executeBatch_eq_joining :
    ¬∀ (caller : Caller) (writes : List WriteOp) (cache : SchemaCache) (w : World)
      (results : List (Outcome WriteResult)), cache.Faithful → w.store.Quiet →
      (executeBatch {} caller writes true cache w).1.1 = .ok results →
      ∀ name key, key ∉ madeUp →
        (valuesAt key ((executeBatch {} caller writes true cache w).2.store.collection name)).Perm
          (valuesAt key ((issueAll {} caller writes (cache, w)).2.store.collection name)) := by
  intro h
  have hsome : (executeBatch {} master [joinObject, markOwners] true { ttlMs := 5000 }
      (owning [])).1.1.toOption.isSome = true := by decide +kernel
  obtain ⟨results, hresults⟩ := Option.isSome_iff_exists.1 hsome
  have hrun := Outcome.toOption_eq_some.1 hresults
  have hperm := h master [joinObject, markOwners] _ (owning []) results
    (SchemaCache.faithful_empty 5000) (Store.quiet_of_nil rfl) hrun "N" "n" (by decide)
  have hbatch : (valuesAt "n" ((executeBatch {} master [joinObject, markOwners] true
      { ttlMs := 5000 } (owning [])).2.store.collection "N")).length = 0 := by decide +kernel
  have hissued : (valuesAt "n" ((issueAll {} master [joinObject, markOwners]
      ({ ttlMs := 5000 }, owning [])).2.store.collection "N")).length = 1 := by decide +kernel
  have hlength := hperm.length_eq
  omega

end Engine

end ObjectEngine
