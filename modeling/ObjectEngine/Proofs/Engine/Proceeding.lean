import ObjectEngine.Proofs.Engine.Suiting
import ObjectEngine.Proofs.Engine.Together
import ObjectEngine.Proofs.Engine.Undoing

/-!
# Relations while writes are carried out

The writes that were planned for a call are carried out in one of three ways. Each does to the
relations of a class what its writes do one after another (`Engine.actsInOrder`): a write by itself
(`Engine.proceeds_carryOut`), a transaction that commits (`Batch.proceeds_transaction`), and a batch
of independent writes none of which waits (`Batch.proceeds_independent`). A transaction that fails
does nothing to them.
-/

namespace ObjectEngine

open Plan (UpdatePlan)

/-! ### Relations on their way -/

/-- **The relations of a class take a course**, while the schemas stay as they are. -/
structure Store.Proceeds (C : String) (fields : List String) (acts : String → List RelationAct)
    (s t : Store) : Prop extends Tracks C fields acts s t where
  advances : Advances s t
  still : Catalog.Still s t

namespace Store.Proceeds

variable {s t u : Store} {C : String} {fields : List String}
  {acts acts' : String → List RelationAct}

theorem trans (h : Proceeds C fields acts s t) (h' : Proceeds C fields acts' t u) :
    Proceeds C fields (fun f => acts f ++ acts' f) s u :=
  ⟨h.toTracks.trans h'.toTracks, h.advances.trans h'.advances, h.still.trans h'.still⟩

/-- Nothing happens while all collections stay as they are. -/
theorem of_collection (h : ∀ f ∈ fields, s.Bound C f) (hadvances : Advances s t)
    (hcollection : ∀ name, t.collection name = s.collection name) :
    Proceeds C fields (fun _ => []) s t :=
  ⟨.of_collection h hadvances hcollection, hadvances, by rw [Catalog.Still, hcollection]⟩

theorem rests (h : Proceeds C fields acts s t) (hadvances : Advances t u)
    (hcollection : ∀ name, u.collection name = t.collection name) :
    Proceeds C fields acts s u := by
  have hboth := h.trans (.of_collection h.bound hadvances hcollection)
  simpa only [List.append_nil] using hboth

end Store.Proceeds

variable {C : String} {fields : List String}

/-- **A planned write** does to relations what it does. -/
theorem Write.proceeds_run {w : World} {write : Write}
    {edits : String → List (List String × List String)} (h : w.store.Tended C fields)
    (hC : isClassName C = true) (hsuits : write.Suits C fields edits) :
    Store.Proceeds C fields (fun f => write.acts C (edits f) w.store
      ((write.run none).run.run w).1) w.store ((write.run none).run.run w).2.store := by
  refine ⟨tracks_run h hC hsuits, h.quiet.advances_run _, ?_⟩
  rw [Catalog.Still, write.collection_run (Catalog.collection_ne_of_isClassName hsuits.onClass)
    (fun field => Join.collection_ne_schemas field _) w]

namespace Engine

/-! ### Writes one after another -/

/-- **What writes do to a relation**, one after another, as they were planned: one that was not
planned does nothing. -/
def actsInOrder (C f : String) : List WriteOp → List (Outcome Write) → World → List RelationAct
  | op :: ops, .ok write :: planned, w =>
    let (outcome, v) := (write.run none).run.run w
    write.acts C (op.edits f) w.store outcome ++ actsInOrder C f ops planned v
  | _ :: ops, .error _ :: planned, w => actsInOrder C f ops planned w
  | _, _, _ => []

/-- Each planned write suits the relations of a class. -/
abbrev AllSuit (C : String) (fields : List String) : List WriteOp → List (Outcome Write) → Prop :=
  List.Forall₂ fun op outcome => ∀ write, outcome = .ok write →
    Write.Suits C fields (fun f => op.edits f) write

/-- The world when the planned writes have run, one after another. -/
def inOrder (planned : List (Outcome Write)) (w : World) : World :=
  (w.runInOrder ((planned.filterMap Except.toOption).map fun write => (write.run none).run)).2

/-- **The run**: writes one after another. -/
theorem proceeds_inOrder {ops : List WriteOp} {planned : List (Outcome Write)}
    (hsuit : AllSuit C fields ops planned) (hC : isClassName C = true) {w : World}
    (h : w.store.Tended C fields) :
    Store.Proceeds C fields (fun f => actsInOrder C f ops planned w) w.store
      (inOrder planned w).store := by
  induction hsuit generalizing w with
  | nil => exact .of_collection h.bound (.refl _) fun _ => rfl
  | @cons op outcome ops planned hfirst _ ih =>
    cases outcome with
    | error e => exact ih h
    | ok write =>
      have hsuits := hfirst write rfl
      exact (Write.proceeds_run h hC hsuits).trans (ih (Write.tended_run h hC hsuits))

end Engine

/-! ### Batches -/

namespace Batch

open Engine (AllSuit inOrder actsInOrder)

variable {w v : World} {ops : List WriteOp} {planned : List (Outcome Write)}

/-- **Independent writes** run one after another if there is but one, or if none of them waits. -/
theorem independent_eq {writes : List Write}
    (h : writes.length ≤ 1 ∨ (independent writes w).2.clockMs = w.clockMs) :
    independent writes w = w.runInOrder (writes.map fun write => (write.run none).run) := by
  rcases h with hlength | hclock
  · cases writes with
    | nil => rfl
    | cons write rest =>
      obtain rfl : rest = [] :=
        List.length_eq_zero_iff.1 (Nat.le_zero.1 (Nat.le_of_succ_le_succ hlength))
      exact World.runTogether_singleton _ _ _
  · exact World.runTogether_eq_of_clockMs hclock

/-- Planned writes that all were planned are the writes to run. -/
theorem filterMap_of_mapM {ready : List Write}
    (h : (planned.mapM id : Outcome (List Write)) = .ok ready) :
    planned.filterMap Except.toOption = ready := by
  have hready := Outcome.forall₂_of_mapM h
  clear h
  induction hready with
  | nil => rfl
  | @cons outcome write _ _ hfirst _ ih =>
    obtain rfl : outcome = .ok write := hfirst
    exact congrArg (write :: ·) ih

/-- Writes that succeed one after another. -/
theorem runInOrder_of_mapM {writes : List Write} {results : List WriteResult}
    (h : (writes.mapM (Write.run none)).run.run w = (.ok results, v)) :
    (w.runInOrder (writes.map fun write => (write.run none).run)).2 = v := by
  induction writes generalizing w results with
  | nil => exact (Prod.mk.inj h).2
  | cons write rest ih =>
    rw [List.mapM_cons] at h
    obtain ⟨r, u, hrun, h⟩ := StoreAction.run_bind_eq_ok.1 h
    obtain ⟨results', u', hrest, h⟩ := StoreAction.run_bind_eq_ok.1 h
    obtain ⟨-, rfl⟩ := Prod.mk.inj h
    have hfirst : (write.run none).run.run w = (.ok r, u) := hrun
    simp only [List.map_cons, World.runInOrder, World.mapTasks, hfirst]
    exact ih hrest

/-- **A transaction that commits** leaves what its writes leave one after another. -/
theorem exists_of_transaction_ok {writes : List Write}
    (hclasses : ∀ write ∈ writes, isClassName write.collection = true) (hquiet : w.store.Quiet)
    {retries number : Nat} {results : List WriteResult}
    (hrun : (transaction writes retries number).run.run w = (.ok results, v)) :
    ∃ u, (w.runInOrder (writes.map fun write => (write.run none).run)).2 = u ∧
      Store.Advances u.store v.store ∧
      ∀ name, v.store.collection name = u.store.collection name := by
  have hadvances := hquiet.advances_run (transaction writes retries number).run
  rw [hrun] at hadvances
  rw [run_transaction hclasses hquiet] at hrun
  obtain ⟨id, htransacts⟩ := transacts_attempt hclasses hquiet
  rw [hrun] at htransacts
  rcases htransacts with
    ⟨e, herror, -⟩ | ⟨begun, results', hbegun, hactive, hwrites, -, -, -, hended⟩
  · exact absurd herror (by simp)
  · -- beside the transaction, the writes one after another
    have habreast : World.Abreast id w begun w :=
      ⟨⟨fun name => (hbegun.collection name).symm, hbegun.nextId.symm, hactive,
        hquiet.rests hbegun, hquiet⟩, rfl, rfl, rfl⟩
    have hcouples : StoreAction.Couples (World.Abreast id w) EngineError.Lasts
        (writes.mapM (Write.run (some id))) (writes.mapM (Write.run none)) :=
      .mapM fun write hmem => Write.couples_run (hclasses write hmem)
    obtain ⟨hsame, -, hafter⟩ := hcouples begun w habreast
    have hadvances' := hquiet.advances_run (writes.mapM (Write.run none)).run
    rcases hplain : (writes.mapM (Write.run none)).run.run w with ⟨r, u⟩
    rw [hplain] at hsame hafter hadvances'
    obtain rfl : r = .ok results' := hsame.symm.trans hwrites
    refine ⟨u, runInOrder_of_mapM hplain, ⟨?_, ?_⟩, fun name => ?_⟩
    · rw [hadvances.faults, hadvances'.faults]
    · rw [hended.nextId, hafter.store.nextId]
    · rw [hended.collection, hafter.store.collection]

/-- **A transaction** does to relations what its writes do one after another, if it commits, and
nothing if it fails. -/
theorem proceeds_transaction (hC : isClassName C = true) (h : w.store.Tended C fields)
    (hsuit : AllSuit C fields ops planned) {ready : List Write}
    (hready : (planned.mapM id : Outcome (List Write)) = .ok ready) (retries number : Nat) :
    Store.Proceeds C fields (fun f =>
      if ((transaction ready retries number).run.run w).1.isOk then actsInOrder C f ops planned w
      else []) w.store ((transaction ready retries number).run.run w).2.store := by
  have hclasses : ∀ write ∈ ready, isClassName write.collection = true := by
    intro write hmem
    obtain ⟨outcome, hmem, houtcome⟩ :=
      Outcome.exists_of_forall₂ (Outcome.forall₂_of_mapM hready) hmem
    obtain ⟨op, -, hsuits⟩ := Outcome.exists_of_forall₂ hsuit hmem
    exact (hsuits write houtcome).onClass
  have hadvances := h.quiet.advances_run (transaction ready retries number).run
  rcases hrun : (transaction ready retries number).run.run w with ⟨e | results, v⟩ <;>
    rw [hrun] at hadvances
  · exact ⟨tracks_transaction_error hclasses h hrun, hadvances,
      (returned_transaction hclasses h.quiet h.wellFormed hrun).schemas⟩
  · obtain ⟨u, rfl, hadvances, hcollection⟩ := exists_of_transaction_ok hclasses h.quiet hrun
    have hproceeds := Engine.proceeds_inOrder hsuit hC h
    rw [inOrder, filterMap_of_mapM hready] at hproceeds
    exact hproceeds.rests hadvances hcollection

/-- **Independent writes** do to relations what they do one after another, if there is but one or
none of them waits. -/
theorem proceeds_independent (hC : isClassName C = true) (h : w.store.Tended C fields)
    (hsuit : AllSuit C fields ops planned) (hwaits : ops.length ≤ 1 ∨
      (independent (planned.filterMap Except.toOption) w).2.clockMs = w.clockMs) :
    Store.Proceeds C fields (fun f => actsInOrder C f ops planned w) w.store
      (independent (planned.filterMap Except.toOption) w).2.store := by
  rw [independent_eq (hwaits.imp_left fun hlength => ?_)]
  · exact Engine.proceeds_inOrder hsuit hC h
  · exact Nat.le_trans (List.length_filterMap_le _ _) (hsuit.length_eq ▸ hlength)

end Batch

/-! ### Single writes -/

namespace Engine

variable {config : Config} {caller : Caller} {op : WriteOp}

/-- What is done after a single write: the record that it answers is read. -/
def readBack (caller : Caller) : WriteOp → WriteResult → Action Unit
  | .update className .., .updated _ (some record) | .upsert className .., .upserted _ _ record => do
    let schema ← Action.schema className
    let _ ← (readDocument schema caller record : Outcome Document)
  | _, _ => pure ()

/-- Plans a single write, runs it, and reads what it answers. -/
def carryOut (config : Config) (caller : Caller) (op : WriteOp) : Action Unit := do
  let write ← prepare config caller op
  let result ← (write.run none : StoreAction WriteResult)
  readBack caller op result

/-- Work that is followed by work that leaves the same. -/
theorem after_bind_congr {α β γ : Type} {work : Action α} {f : α → Action β} {g : α → Action γ}
    (h : ∀ a state, (f a).after state = (g a).after state) (state : SchemaCache × World) :
    (work >>= f).after state = (work >>= g).after state := by
  unfold Action.after
  rw [Action.runIn_bind, Action.runIn_bind]
  rcases work.runIn state.1 state.2 with ⟨⟨e | a, cache⟩, w⟩
  · rfl
  · exact h a (cache, w)

/-- A record that is answered is read under the schema of its class. -/
theorem after_readAnswer (className : String) (r : Record) (state : SchemaCache × World) :
    Action.after (do
        let schema ← Action.schema className
        (readDocument schema caller r : Outcome Document)) state =
      Action.after (do
        let schema ← Action.schema className
        let _ ← (readDocument schema caller r : Outcome Document)) state := by
  refine after_bind_congr (fun schema state => ?_) state
  cases readDocument schema caller r <;> rfl

/-- **A single write** is planned, run and read back. -/
theorem after_writeOne_eq (op : WriteOp) (state : SchemaCache × World) :
    (writeOne config caller op).after state = (carryOut config caller op).after state := by
  cases op with
  | create className d =>
    rw [writeOne, Action.after_map, create, Action.after_guarded]
    unfold Action.after carryOut prepare
    rw [Action.runIn_bind, Action.runIn_bind, Action.runIn_bind]
    rcases (prepareCreate caller className d).runIn state.1 state.2 with
      ⟨⟨e | ⟨write, d'⟩, cache⟩, w⟩
    · rfl
    · have hrest : Action.after (do
            let _ ← (write.run none : StoreAction WriteResult)
            return visible caller d') (cache, w) = Action.after (do
              let result ← (write.run none : StoreAction WriteResult)
              readBack caller (.create className d) result) (cache, w) := by
        refine after_bind_congr (fun _ _ => ?_) (cache, w)
        rfl
      exact hrest
  | update className objectId ops =>
    rw [writeOne, Action.after_map, update, Action.after_guarded]
    refine after_bind_congr (fun write _ => after_bind_congr (fun result state => ?_) _) _
    cases result with
    | updated matched record =>
      cases record with
      | none => rfl
      | some r => exact after_readAnswer _ _ state
    | _ => rfl
  | updateMany className f ops =>
    rw [writeOne, Action.after_map, updateMany, Action.after_guarded]
    refine after_bind_congr (fun write _ => after_bind_congr (fun result state => ?_) _) _
    split <;> rfl
  | upsert className f ops =>
    rw [writeOne, Action.after_map, upsert, Action.after_guarded]
    refine after_bind_congr (fun write _ => after_bind_congr (fun result state => ?_) _) _
    cases result with
    | upserted matched id r => exact after_readAnswer _ _ state
    | _ => rfl
  | delete className f =>
    rw [writeOne, Action.after_map, delete, Action.after_guarded]
    refine after_bind_congr (fun write _ => after_bind_congr (fun result state => ?_) _) _
    split
    · split <;> rfl
    · rfl

/-- What is read back keeps what a read of a schema keeps. -/
theorem ensures_readBack {I : Store → Prop} {J : SchemaCache → Prop}
    (hschema : ∀ className, (Action.schema className).Ensures I J fun _ => True) (op : WriteOp)
    (result : WriteResult) : (readBack caller op result).Ensures I J fun _ => True := by
  unfold readBack
  split
  · exact .bind (hschema _) fun _ _ => .bind (.outcome fun _ _ => trivial) fun _ _ => .pure trivial
  · exact .bind (hschema _) fun _ _ => .bind (.outcome fun _ _ => trivial) fun _ _ => .pure trivial
  · exact .pure trivial

/-- **A single write** does to relations what the write does that is planned for it. -/
theorem proceeds_carryOut {cache cache' : SchemaCache} {w v : World} {planned : Outcome Write}
    (hplan : (prepare config caller op).runIn cache w = ((planned, cache'), v))
    (hsuit : AllSuit C fields [op] [planned]) (hC : isClassName C = true)
    (h : v.store.Tended C fields) :
    Store.Proceeds C fields (fun f => actsInOrder C f [op] [planned] v) v.store
      ((carryOut config caller op).after (cache, w)).2.store := by
  unfold Action.after carryOut
  rw [Action.runIn_bind, hplan]
  cases planned with
  | error e => exact .of_collection h.bound (.refl _) fun _ => rfl
  | ok write =>
    have hone := proceeds_inOrder hsuit hC h
    have hworld : inOrder [.ok write] v = ((write.run none).run.run v).2 := rfl
    rw [hworld] at hone
    simp only
    rw [show (liftM (write.run none) : Action WriteResult) = Action.ofStore (write.run none)
      from rfl, Action.runIn_bind, Action.runIn_ofStore, StoreAction.outcomeIn]
    rcases hrun : (write.run none).run.run v with ⟨e | result, u⟩
    · rw [hrun] at hone
      exact hone
    · rw [hrun] at hone
      have hquiet := h.quiet.advances hone.advances
      have hstable : Store.Stable fun t => ∀ name, t.collection name = u.store.collection name :=
        fun _ _ hsame h name => (hsame.collection name).trans (h name)
      have hread : (readBack caller op result).Ensures
          (fun t => ∀ name, t.collection name = u.store.collection name) (fun _ => True)
          fun _ => True :=
        ensures_readBack (fun className => Action.ensures_schema_any hstable className) op result
      exact hone.rests (hquiet.advances_run ((readBack caller op result).run.run cache'))
        (hread.runIn trivial fun _ => rfl).1

/-- A single write leaves a cache that is current, and the schemas as they are. -/
theorem ensures_carryOut {s : Store} {schema : ClassSchema} (hs : Catalog.Keyed s)
    (hloaded : Catalog.loaded s C = .ok (some schema)) (hop : op.SparesIds) :
    (carryOut config caller op).Ensures (Catalog.Still s) (SchemaCache.Current · C s)
      fun _ => True := by
  have hread (className : String) : (Action.schema className).Ensures (Catalog.Still s)
      (SchemaCache.Current · C s) fun _ => True :=
    .mono (fun _ _ => trivial) (Action.ensures_schema_current hs C className)
  refine .bind (ensures_suits hs hloaded hop) fun write hsuits => ?_
  refine .bind (.lift (write.ensures_run_of_issues fun c hc t ht => ?_)) fun result _ =>
    ensures_readBack hread op result
  refine ht.trans ?_
  rw [Catalog.Still, hc.collection_run (Catalog.collection_ne_of_isClassName hsuits.onClass)
    fun field => Join.collection_ne_schemas field _]

end Engine

end ObjectEngine
