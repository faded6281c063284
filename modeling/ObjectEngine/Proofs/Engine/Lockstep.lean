import ObjectEngine.Proofs.Engine.Calls
import ObjectEngine.Proofs.Engine.Writes
import ObjectEngine.Proofs.Store.Lockstep

/-!
# Two programs side by side

`Program.Couples R Q p q` says that two programs, run in worlds that stand in the relation `R`,
come to the same result, which satisfies `Q`, and leave their worlds in the relation. Work that
may fail is coupled where the outcomes are the same and the errors are of one kind
(`StoreAction.Couples`), and work with a schema cache where both start with the same cache and
end with the same (`Action.Couples`). The rules follow the ways in which work is put together.

The first use is for planned writes. On a session a write does what it does on none
(`Write.couples_run`), as long as the transaction of the session is open: the stores are abreast
(`World.Abreast`), and besides the stores a write has nothing to change.

The second is for reading. Where no fault is due, work that only queries leaves everything but the
books of the store as it was (`World.Rests`), and what it comes to is given by the records of the
collections it asks for (`StoreAction.Reads`). So it comes to the same however often it is done, and
in any two worlds that agree on these collections. A load of a schema reads the schemas
(`Catalog.reads_require`), and a look-up of a relation reads edges (`Engine.reads_lookUp`).
-/

namespace ObjectEngine

section

variable {α β : Type}

/-! ### Programs -/

namespace Program

/-- **Two programs side by side.** -/
def Couples (R : World → World → Prop) (Q : α → Prop) (p q : Program α) : Prop :=
  ∀ w v, R w v → (p.run w).1 = (q.run v).1 ∧ Q (p.run w).1 ∧ R (p.run w).2 (q.run v).2

namespace Couples

variable {R : World → World → Prop} {Q : α → Prop} {S : β → Prop}

theorem pure {a : α} (h : Q a) : Couples R Q (Pure.pure a) (Pure.pure a) :=
  fun _ _ hR => ⟨rfl, h, hR⟩

theorem bind {p q : Program α} {f g : α → Program β} (hp : Couples R Q p q)
    (hf : ∀ a, Q a → Couples R S (f a) (g a)) : Couples R S (p >>= f) (q >>= g) := by
  intro w v hR
  obtain ⟨hresult, hQ, hafter⟩ := hp w v hR
  rw [run_bind, run_bind, ← hresult]
  exact hf _ hQ _ _ hafter

end Couples

end Program

/-! ### Work that may fail -/

namespace StoreAction

variable {R : World → World → Prop} {E : EngineError → Prop}

/-- **Work side by side**: the outcomes are the same, and an error satisfies `E`. -/
def Couples (R : World → World → Prop) (E : EngineError → Prop) (x y : StoreAction α) : Prop :=
  Program.Couples R (fun outcome => ∀ e, outcome = .error e → E e) x.run y.run

namespace Couples

theorem pure (a : α) : Couples R E (pure a : StoreAction α) (Pure.pure a) :=
  Program.Couples.pure (Q := fun outcome : Outcome α => ∀ e, outcome = .error e → E e) nofun

theorem throw {e : EngineError} (h : E e) :
    Couples R E (throw e : StoreAction α) (MonadExcept.throw e) :=
  Program.Couples.pure (Q := fun outcome : Outcome α => ∀ e, outcome = .error e → E e)
    fun _ he => Except.error.inj he ▸ h

theorem bind {x y : StoreAction α} {f g : α → StoreAction β} (hx : Couples R E x y)
    (hf : ∀ a, Couples R E (f a) (g a)) : Couples R E (x >>= f) (y >>= g) := by
  refine Program.Couples.bind hx fun outcome houtcome => ?_
  cases outcome with
  | ok a => exact hf a
  | error e => exact throw (houtcome e rfl)

theorem ite {p : Prop} [Decidable p] {x y x' y' : StoreAction α} (hx : Couples R E x y)
    (hx' : Couples R E x' y') : Couples R E (if p then x else x') (if p then y else y') := by
  split
  · exact hx
  · exact hx'

/-- A choice whose branches go on in the same way. -/
theorem ite_bind {p : Prop} [Decidable p] {x y x' y' : StoreAction α} {f g : α → StoreAction β}
    (hx : Couples R E x y) (hx' : Couples R E x' y') (hf : ∀ a, Couples R E (f a) (g a)) :
    Couples R E (if p then x >>= f else x' >>= f) (if p then y >>= g else y' >>= g) :=
  ite (hx.bind hf) (hx'.bind hf)

theorem outcome {x : Outcome α} (h : ∀ e, x = .error e → E e) :
    Couples R E (liftM x : StoreAction α) (liftM x) :=
  Program.Couples.pure (Q := fun outcome : Outcome α => ∀ e, outcome = .error e → E e) h

theorem forIn {f g : α → PUnit → StoreAction (ForInStep PUnit)} {xs : List α}
    (h : ∀ a, Couples R E (f a ⟨⟩) (g a ⟨⟩)) :
    Couples R E (forIn xs PUnit.unit f) (ForIn.forIn xs PUnit.unit g) := by
  induction xs with
  | nil => exact pure _
  | cons a rest ih =>
    rw [List.forIn_cons, List.forIn_cons]
    refine bind (h a) fun step => ?_
    cases step with
    | done u => exact pure _
    | yield u => exact ih

theorem mapM {f g : α → StoreAction β} {xs : List α} (h : ∀ a ∈ xs, Couples R E (f a) (g a)) :
    Couples R E (xs.mapM f) (xs.mapM g) := by
  induction xs with
  | nil => exact pure _
  | cons a rest ih =>
    rw [List.mapM_cons, List.mapM_cons]
    refine bind (h a List.mem_cons_self) fun b => ?_
    exact bind (ih fun a ha => h a (List.mem_cons_of_mem _ ha)) fun bs => pure _

end Couples

end StoreAction

/-! ### Work with a schema cache -/

namespace Action

variable {R : World → World → Prop} {J : SchemaCache → Prop} {Q : α → Prop} {S : β → Prop}

/-- **Work with a cache side by side**: with the same cache, which satisfies `J`, it comes to the
same and leaves the same cache, and a result satisfies `Q`. -/
def Couples (R : World → World → Prop) (J : SchemaCache → Prop) (Q : α → Prop) (x y : Action α) :
    Prop :=
  ∀ cache, J cache → Program.Couples R (fun r => J r.2 ∧ ∀ a, r.1 = .ok a → Q a)
    (x.run.run cache) (y.run.run cache)

namespace Couples

theorem pure {a : α} (h : Q a) : Couples R J Q (pure a : Action α) (Pure.pure a) :=
  fun cache hcache => Program.Couples.pure (a := ((.ok a : Outcome α), cache))
    ⟨hcache, fun _ hb => Except.ok.inj hb ▸ h⟩

theorem throw {e : EngineError} : Couples R J Q (throw e : Action α) (MonadExcept.throw e) :=
  fun cache hcache => Program.Couples.pure (a := ((.error e : Outcome α), cache)) ⟨hcache, nofun⟩

theorem bind {x y : Action α} {f g : α → Action β} (hx : Couples R J Q x y)
    (hf : ∀ a, Q a → Couples R J S (f a) (g a)) : Couples R J S (x >>= f) (y >>= g) := by
  intro cache hcache
  refine Program.Couples.bind (hx cache hcache) fun r hr => ?_
  obtain ⟨_ | a, cache'⟩ := r
  · exact throw cache' hr.1
  · exact hf a (hr.2 a rfl) cache' hr.1

theorem ite {p : Prop} [Decidable p] {x y x' y' : Action α} (hx : Couples R J Q x y)
    (hx' : Couples R J Q x' y') : Couples R J Q (if p then x else x') (if p then y else y') := by
  split
  · exact hx
  · exact hx'

/-- A choice whose branches go on in the same way. -/
theorem ite_bind {p : Prop} [Decidable p] {x y x' y' : Action α} {f g : α → Action β}
    (hx : Couples R J Q x y) (hx' : Couples R J Q x' y')
    (hf : ∀ a, Q a → Couples R J S (f a) (g a)) :
    Couples R J S (if p then x >>= f else x' >>= f) (if p then y >>= g else y' >>= g) :=
  ite (hx.bind hf) (hx'.bind hf)

theorem lift {E : EngineError → Prop} {x y : StoreAction α} (h : StoreAction.Couples R E x y) :
    Couples R J (fun _ => True) (Action.ofStore x) (Action.ofStore y) :=
  fun _ hcache => Program.Couples.bind h fun _ _ =>
    Program.Couples.pure ⟨hcache, fun _ _ => trivial⟩

theorem outcome (x : Outcome α) :
    Couples R J (fun _ => True) (liftM x : Action α) (liftM x) :=
  fun cache hcache => Program.Couples.pure (a := (x, cache)) ⟨hcache, fun _ _ => trivial⟩

/-- Work whose failure is passed over. -/
theorem outcomeOf {x y : Action α} (h : Couples R J Q x y) :
    Couples R J (fun r => ∀ a, r = .ok a → Q a) (ExceptT.lift x.run) (ExceptT.lift y.run) :=
  fun cache hcache => Program.Couples.bind (h cache hcache) fun _ hr =>
    Program.Couples.pure ⟨hr.1, fun _ hb => Except.ok.inj hb ▸ hr.2⟩

theorem mapM {f g : α → Action β} {xs : List α} (h : ∀ a ∈ xs, Couples R J S (f a) (g a)) :
    Couples R J (fun _ => True) (xs.mapM f) (xs.mapM g) := by
  induction xs with
  | nil => exact pure trivial
  | cons a rest ih =>
    rw [List.mapM_cons, List.mapM_cons]
    refine bind (h a List.mem_cons_self) fun b _ => ?_
    exact bind (ih fun a ha => h a (List.mem_cons_of_mem _ ha)) fun bs _ => pure trivial

end Couples

end Action

/-! ### Worlds abreast -/

/-- A call keeps the collections that it does not concern. -/
theorem Store.run_collection_of_ne {s : Store} {c : Store.Call} {name : String}
    (hafter : s.collectionAfter c name = s.collection name) :
    (s.run c).store.collection name = s.collection name := by
  cases houtcome : (s.run c).outcome with
  | error e => exact (Store.run_error houtcome).collection name
  | ok a => exact ((Store.run_ok houtcome).collection name).trans hafter

/-- **Two worlds abreast**: their stores are, and the second has the schemas, the time of its
start and the supply of object ids that it began with. -/
structure World.Abreast (id : SessionId) (origin w v : World) : Prop where
  store : Store.Abreast id w.store v.store
  schemas : v.store.collection Catalog.collection = origin.store.collection Catalog.collection
  epoch : v.epoch = origin.epoch
  nextObject : v.nextObject = origin.nextObject

/-- The errors of a write without faults. -/
abbrev EngineError.Lasts (e : EngineError) : Prop := e.isTransient = false

namespace StoreAction.Couples

variable {id : SessionId} {origin : World} {name : String}

/-- The worlds after a call. -/
theorem served {c c' : Store.Call} {w v : World} (h : World.Abreast id origin w v)
    (hstore : Store.Abreast id (w.store.run c).store (v.store.run c').store)
    (hschemas : v.store.collectionAfter c' Catalog.collection =
      v.store.collection Catalog.collection) :
    World.Abreast id origin ((Program.request (.store c)).run w).2
      ((Program.request (.store c')).run v).2 :=
  ⟨hstore, (Store.run_collection_of_ne hschemas).trans h.schemas, h.epoch, h.nextObject⟩

variable (hname : Catalog.collection ≠ name)

include hname

theorem find (sel : Selection) :
    Couples (α := List Record) (World.Abreast id origin) EngineError.Lasts
      (Program.call (.find name sel (some id))) (Program.call (.find name sel none)) := by
  intro w v h
  obtain ⟨houtcome, hlasting, hstore⟩ := Store.Lockstep.find name sel _ _ h.store
  exact ⟨houtcome, hlasting, served h hstore (if_neg hname)⟩

theorem count (p : Predicate) (limit : Option Nat) :
    Couples (α := Nat) (World.Abreast id origin) EngineError.Lasts
      (Program.call (.count name p limit (some id))) (Program.call (.count name p limit none)) := by
  intro w v h
  obtain ⟨houtcome, hlasting, hstore⟩ := Store.Lockstep.count name p limit _ _ h.store
  exact ⟨houtcome, hlasting, served h hstore (if_neg hname)⟩

theorem insert (record : Record) :
    Couples (α := Unit) (World.Abreast id origin) EngineError.Lasts
      (Program.call (.insert name record (some id))) (Program.call (.insert name record none)) := by
  intro w v h
  obtain ⟨houtcome, hlasting, hstore⟩ := Store.Lockstep.insert name record _ _ h.store
  exact ⟨houtcome, hlasting, served h hstore (if_neg hname)⟩

theorem update (p : Predicate) (edit : Edit) :
    Couples (α := Nat) (World.Abreast id origin) EngineError.Lasts
      (Program.call (.update name p edit (some id))) (Program.call (.update name p edit none)) := by
  intro w v h
  obtain ⟨houtcome, hlasting, hstore⟩ := Store.Lockstep.update name p edit _ _ h.store
  exact ⟨houtcome, hlasting, served h hstore (if_neg hname)⟩

theorem findAndUpdate (p : Predicate) (edit : Edit) :
    Couples (α := Option Record) (World.Abreast id origin) EngineError.Lasts
      (Program.call (.findAndUpdate name p edit (some id)))
      (Program.call (.findAndUpdate name p edit none)) := by
  intro w v h
  obtain ⟨houtcome, hlasting, hstore⟩ := Store.Lockstep.findAndUpdate name p edit _ _ h.store
  exact ⟨houtcome, hlasting, served h hstore (if_neg hname)⟩

theorem upsert (p : Predicate) (edit : Edit) :
    Couples (α := Store.Upserted) (World.Abreast id origin) EngineError.Lasts
      (Program.call (.upsert name p edit (some id))) (Program.call (.upsert name p edit none)) := by
  intro w v h
  obtain ⟨houtcome, hlasting, hstore⟩ := Store.Lockstep.upsert name p edit _ _ h.store
  exact ⟨houtcome, hlasting, served h hstore (if_neg hname)⟩

theorem delete (p : Predicate) :
    Couples (α := Nat) (World.Abreast id origin) EngineError.Lasts
      (Program.call (.delete name p (some id))) (Program.call (.delete name p none)) := by
  intro w v h
  obtain ⟨houtcome, hlasting, hstore⟩ := Store.Lockstep.delete name p _ _ h.store
  exact ⟨houtcome, hlasting, served h hstore (if_neg hname)⟩

end StoreAction.Couples

/-! ### Planned writes -/

/-- The schemas are not the edges of a relation. -/
theorem Join.collection_ne_schemas (field className : String) :
    Catalog.collection ≠ Join.collection field className := by
  intro h
  have hchars := congrArg String.toList h
  simp [Catalog.collection, Join.collection, toString] at hchars

/-- The schemas are not a class. -/
theorem Catalog.collection_ne_of_isClassName {className : String}
    (h : isClassName className = true) : Catalog.collection ≠ className := by
  rintro rfl
  exact absurd h (by decide)

section

variable {id : SessionId} {origin : World}

open StoreAction (Couples)

theorem Join.couples_apply (className ownerId : String) (e : Plan.RelationEdit) :
    Couples (World.Abreast id origin) EngineError.Lasts
      (Join.apply className ownerId e (some id)) (Join.apply className ownerId e none) := by
  have hname := Join.collection_ne_schemas e.field className
  refine .bind (.forIn fun related => .bind (.upsert hname _ _) fun _ => .pure _) fun _ => ?_
  exact .ite (.bind (.delete hname _) fun _ => .pure _) (.pure _)

theorem Join.couples_removeOwners (className field : String) (owners : List String) :
    Couples (World.Abreast id origin) EngineError.Lasts
      (Join.removeOwners className field owners (some id))
      (Join.removeOwners className field owners none) :=
  .ite (.pure _) (.delete (Join.collection_ne_schemas field className) _)

namespace Write

theorem couples_matchingIds {name : String} (hname : Catalog.collection ≠ name)
    (filter : Predicate) (limit : Option Nat) :
    Couples (World.Abreast id origin) EngineError.Lasts
      (matchingIds name filter limit (some id)) (matchingIds name filter limit none) :=
  .bind (.find hname _) fun _ => .pure _

theorem couples_updateRecords {name : String} (hname : Catalog.collection ≠ name)
    (filter : Predicate) (edit : Edit) (many : Bool) :
    Couples (World.Abreast id origin) EngineError.Lasts
      (updateRecords name filter edit many (some id))
      (updateRecords name filter edit many none) := by
  refine .ite (.bind (.count hname _ _) fun _ => .pure _) (.ite ?_ ?_)
  · exact .bind (.update hname _ _) fun _ => .pure _
  · exact .bind (.findAndUpdate hname _ _) fun _ => .pure _

/-- **A write on a session does what it does on none**, to a class. -/
theorem couples_run {write : Write} (hclass : isClassName write.collection = true) :
    Couples (World.Abreast id origin) EngineError.Lasts
      (write.run (some id)) (write.run none) := by
  have hname := Catalog.collection_ne_of_isClassName hclass
  cases write with
  | insert name record => exact .bind (.insert hname _) fun _ => .pure _
  | update name filter plan many =>
    refine .ite_bind (.pure _) (couples_matchingIds hname _ _) fun owners => ?_
    refine .bind (couples_updateRecords hname _ _ _) fun out => ?_
    refine .bind (.forIn fun owner => ?_) fun _ => .pure _
    refine .bind (.forIn fun e => ?_) fun _ => .pure _
    exact .bind (Join.couples_apply name owner e) fun _ => .pure _
  | upsert name filter edit => exact .bind (.upsert hname _ _) fun _ => .pure _
  | delete name filter relationFields =>
    refine .ite_bind (.pure _) (couples_matchingIds hname _ _) fun owners => ?_
    refine .bind (.delete hname _) fun count => ?_
    refine .bind (.forIn fun field => ?_) fun _ => .pure _
    exact .bind (Join.couples_removeOwners name field owners) fun _ => .pure _

end Write

end

end

variable {α β : Type}

/-! ### Worlds at rest -/

/-- **Nothing but the books of the store** differs. -/
structure World.Rests (w v : World) : Prop where
  store : Store.Rests w.store v.store
  clockMs : v.clockMs = w.clockMs
  epoch : v.epoch = w.epoch
  nextObject : v.nextObject = w.nextObject

namespace World

theorem Rests.refl (w : World) : Rests w w := ⟨.refl _, rfl, rfl, rfl⟩

theorem Rests.trans {u v w : World} (h : Rests u v) (h' : Rests v w) : Rests u w :=
  ⟨h.store.trans h'.store, h'.clockMs.trans h.clockMs, h'.epoch.trans h.epoch,
    h'.nextObject.trans h.nextObject⟩

theorem Rests.now {w v : World} (h : Rests w v) : v.now = w.now := by
  simp only [World.now, h.clockMs, h.epoch]

end World

/-- **Two quiet stores agree** on some collections. -/
structure Store.Agree (P : String → Prop) (s t : Store) : Prop where
  collection (name : String) : P name → t.collection name = s.collection name
  quiet : s.Quiet
  quiet' : t.Quiet

theorem Store.Agree.rests {P : String → Prop} {s t s' t' : Store} (h : Store.Agree P s t)
    (hs : Store.Rests s s') (ht : Store.Rests t t') : Store.Agree P s' t' where
  collection name hname := by rw [ht.collection, hs.collection, h.collection name hname]
  quiet := h.quiet.rests hs
  quiet' := h.quiet'.rests ht

theorem Store.Quiet.agree {s : Store} (h : s.Quiet) (P : String → Prop) : Store.Agree P s s :=
  ⟨fun _ _ => rfl, h, h⟩

/-! ### Work that reads -/

namespace StoreAction

/-- What work comes to in a world. -/
def outcomeIn (work : StoreAction α) (w : World) : Outcome α := (work.run.run w).1

/-- **Work that reads** some collections: in worlds that agree on these it comes to the same, and
leaves both at rest. -/
def Reads (P : String → Prop) (work : StoreAction α) : Prop :=
  ∀ w v, Store.Agree P w.store v.store →
    work.outcomeIn w = work.outcomeIn v ∧ w.Rests (work.run.run w).2 ∧ v.Rests (work.run.run v).2

namespace Reads

variable {P : String → Prop}

theorem pure (a : α) : Reads P (pure a : StoreAction α) :=
  fun w v _ => ⟨rfl, .refl w, .refl v⟩

theorem throw (e : EngineError) : Reads P (throw e : StoreAction α) :=
  fun w v _ => ⟨rfl, .refl w, .refl v⟩

theorem outcome (x : Outcome α) : Reads P (liftM x : StoreAction α) :=
  fun w v _ => ⟨rfl, .refl w, .refl v⟩

theorem bind {work : StoreAction α} {f : α → StoreAction β} (hwork : Reads P work)
    (hf : ∀ a, Reads P (f a)) : Reads P (work >>= f) := by
  intro w v h
  obtain ⟨houtcome, hw, hv⟩ := hwork w v h
  unfold outcomeIn at houtcome ⊢
  rw [StoreAction.run_bind, StoreAction.run_bind]
  rcases hleft : work.run.run w with ⟨_ | a, w'⟩ <;>
    rcases hright : work.run.run v with ⟨_ | a', v'⟩ <;>
    simp only [hleft, hright] at houtcome hw hv ⊢
  · exact ⟨by rw [Except.error.inj houtcome], hw, hv⟩
  · exact absurd houtcome (by simp)
  · exact absurd houtcome (by simp)
  · obtain rfl := Except.ok.inj houtcome
    obtain ⟨houtcome', hw', hv'⟩ := hf a w' v' (h.rests hw.store hv.store)
    exact ⟨houtcome', hw.trans hw', hv.trans hv'⟩

/-- **A query** without scripts reads its collection. -/
theorem find {name : String} (hname : P name) {sel : Selection} (hprompt : sel.filter.Prompt)
    (session : Option SessionId) :
    Reads (α := List Record) P (Program.call (.find name sel session)) := by
  have hserved {w : World} (h : w.store.Quiet) :
      w.Rests ((Program.request (.store (.find name sel session))).run w).2 := by
    refine ⟨(h.run_find name sel session).2, ?_, rfl, rfl⟩
    change w.clockMs + (w.store.run (.find name sel session)).waitMs = w.clockMs
    rw [h.run_waitMs, Store.waitMs_find w.store name hprompt session, Nat.add_zero]
  intro w v h
  refine ⟨?_, hserved h.quiet, hserved h.quiet'⟩
  change (w.store.run _).outcome = (v.store.run _).outcome
  rw [(h.quiet.run_find name sel session).1, (h.quiet'.run_find name sel session).1,
    Store.query_congr (h.collection name hname)]

end Reads

end StoreAction

open StoreAction (Reads)

/-- A load reads the schemas. -/
theorem Catalog.reads_require (className : String) :
    Reads (· = Catalog.collection) (Catalog.require className) := by
  refine .bind (.bind (.find ?_ (Predicate.prompt_field _ _) none) fun rs => ?_) fun found => ?_
  · rfl
  · cases rs with
    | nil => exact .pure _
    | cons r rest => exact .bind (.outcome _) fun _ => .pure _
  · cases found with
    | none => exact .throw _
    | some schema => exact .pure _

/-- A look-up reads a collection of edges. -/
theorem Engine.reads_lookUp (className : String) (l : RelationLookup) :
    Reads (fun _ => True) (Engine.lookUp className l) := by
  cases l with
  | containing field relatedId =>
    exact .bind (.find trivial (Predicate.prompt_field _ _) none) fun _ => .pure _
  | members owner key =>
    exact .bind (.bind (.find trivial (Predicate.prompt_field _ _) none) fun _ => .pure _)
      fun _ => .pure _

end ObjectEngine
