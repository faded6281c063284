import ObjectEngine.Plan.Selection
import ObjectEngine.Proofs.Store.Query

/-!
# Conjunctions flattened

Two filters are joined into one conjunction of all their parts, and two predicates as well, but
not in the same way: a filter extends a conjunction on either side, a predicate only one on the
left. So a filter that was joined and a conjunction of the two filters are planned as predicates
of different shapes.

The shape makes no difference. `Plan.flattened_alike` says that joined predicates are evaluated one
after the other, with all failures and delays, and that the plans of joined filters and of their
conjunction are refused alike, or have one collation and are evaluated alike. A whole query is
planned around them, with the permission as one more part, and it comes to the same in every store
(`Plan.selection_both`).
-/

namespace ObjectEngine

/-- Predicates that are evaluated alike select the same records. -/
theorem Store.filterRecords_congr {c : Option Collation} {p q : Predicate}
    (h : ∀ r, p.eval c r = q.eval c r) (records : List Record) :
    filterRecords c p records = filterRecords c q records := by
  induction records with
  | nil => rfl
  | cons r rest ih => rw [filterRecords, filterRecords, h, ih]

/-- **Queries alike** get one reply: the same records or failure, after the same wait, and the
same store after it. -/
theorem Store.run_find_congr {name : String} {sel sel' : Selection}
    (hquery : ∀ s : Store, s.query name sel = s.query name sel')
    (hlimit : sel.maxTimeMs = sel'.maxTimeMs) (s : Store) (session : Option SessionId) :
    (s.run (.find name sel session)).outcome = (s.run (.find name sel' session)).outcome ∧
      (s.run (.find name sel session)).waitMs = (s.run (.find name sel' session)).waitMs ∧
      (s.run (.find name sel session)).store = (s.run (.find name sel' session)).store := by
  have hperform : perform (.find name sel session) = perform (.find name sel' session) := by
    simp only [perform, hquery, hlimit]
    rfl
  have hanswer : answer (.find name sel session) = answer (.find name sel' session) :=
    congrArg (begin "find" name session >>= fun _ => ·) hperform
  have hwait : s.waitMs (.find name sel session) = s.waitMs (.find name sel' session) := by
    simp only [waitMs, hquery, hlimit]
  refine ⟨?_, ?_, ?_⟩
  · exact congrArg (fun work : Work (List Record) => (work.run s).1) hanswer
  · exact congrArg (fun ms => if (dueFault? "find" s.faults).isSome then 0 else ms) hwait
  · exact congrArg (fun work : Work (List Record) => (work.run s).2) hanswer

/-! ### Joined filters -/

namespace Filter

/-- The parts of a filter as a conjunction. -/
def conjuncts : Filter → List Filter
  | .all => []
  | .and parts => parts
  | f => [f]

/-- **Joined filters** have the parts of both. -/
theorem conjuncts_both (f g : Filter) : (f.both g).conjuncts = f.conjuncts ++ g.conjuncts := by
  cases f <;> cases g <;> simp [both, conjuncts]

end Filter

namespace Plan

variable {schema : ClassSchema} {policy : Policy}

/-! ### Joined plans -/

namespace FilterPlan

/-- The plan of a filter that asks for nothing. -/
def all : FilterPlan := ⟨.all, none⟩

/-- **Joined plans**: both predicates at once, under the last collation that was asked for. -/
def both (p q : FilterPlan) : FilterPlan := ⟨p.filter.both q.filter, q.collation <|> p.collation⟩

@[simp] theorem all_both (p : FilterPlan) : all.both p = p := by
  rcases p with ⟨filter, _ | collation⟩ <;> rfl

@[simp] theorem both_all (p : FilterPlan) : p.both all = p := by
  rw [both, all, Predicate.both_all]
  rfl

/-- **Plans alike**: they ask for the same collation, and on every record, from every delay, they
have the same answer or failure after the same delay. -/
structure Alike (p q : FilterPlan) : Prop where
  collation : p.collation = q.collation
  evaluated (c : Option Collation) (r : Record) (delayMs : Nat) :
    p.filter.evalFrom c r delayMs = q.filter.evalFrom c r delayMs

namespace Alike

variable {p q s : FilterPlan}

theorem refl (p : FilterPlan) : Alike p p := ⟨rfl, fun _ _ _ => rfl⟩

theorem trans (hpq : Alike p q) (hqs : Alike q s) : Alike p s :=
  ⟨hpq.collation.trans hqs.collation,
    fun c r delayMs => (hpq.evaluated c r delayMs).trans (hqs.evaluated c r delayMs)⟩

theorem evalFrom_eq (h : Alike p q) (c : Option Collation) (r : Record) :
    p.filter.evalFrom c r = q.filter.evalFrom c r := funext (h.evaluated c r)

theorem eval_eq (h : Alike p q) (c : Option Collation) (r : Record) :
    p.filter.eval c r = q.filter.eval c r := by
  rw [← Predicate.evalFrom_zero, ← Predicate.evalFrom_zero, h.evaluated]

/-- Plans alike are joined to plans alike. -/
theorem both {p' q' : FilterPlan} (h : Alike p q) (h' : Alike p' q') :
    Alike (p.both p') (q.both q') where
  collation := by rw [FilterPlan.both, FilterPlan.both, h.collation, h'.collation]
  evaluated c r delayMs := by
    rw [FilterPlan.both, FilterPlan.both, Predicate.evalFrom_both, Predicate.evalFrom_both,
      h.evalFrom_eq, h'.evalFrom_eq]

/-- Queries planned around them come to the same. -/
theorem query_eq (h : Alike p q) (sel : Selection) (other : Predicate) (s : Store)
    (name : String) :
    s.query name { sel with filter := p.filter.both other, collation := p.collation } =
      s.query name { sel with filter := q.filter.both other, collation := q.collation } := by
  have hboth (c : Option Collation) (r : Record) :
      (p.filter.both other).eval c r = (q.filter.both other).eval c r :=
    (h.both (.refl ⟨other, none⟩)).eval_eq c r
  simp only [Store.query, h.collation, Store.filterRecords_congr (hboth _)]

/-- It makes no difference which plans are joined first. -/
theorem both_assoc (p q s : FilterPlan) : Alike ((p.both q).both s) (p.both (q.both s)) where
  collation := by
    simp only [FilterPlan.both]
    cases s.collation <;> rfl
  evaluated c r delayMs := by
    simp only [FilterPlan.both, Predicate.evalFrom_both, Predicate.andThen_assoc]

end Alike

end FilterPlan

/-! ### Plans of conjunctions -/

theorem conjunction_cons (acc : FilterPlan) (f : Filter) (rest : List Filter) :
    conjunction schema policy acc (f :: rest) =
      filter schema policy f >>= fun p => conjunction schema policy (acc.both p) rest := by
  rw [conjunction]
  rfl

theorem conjunction_append (acc : FilterPlan) (fs gs : List Filter) :
    conjunction schema policy acc (fs ++ gs) =
      conjunction schema policy acc fs >>= fun p => conjunction schema policy p gs := by
  induction fs generalizing acc with
  | nil => rfl
  | cons f rest ih =>
    rw [List.cons_append, conjunction_cons, conjunction_cons]
    cases filter schema policy f with
    | error e => rfl
    | ok p => exact ih (acc.both p)

/-- **A filter is planned part by part.** -/
theorem filter_eq_conjunction (f : Filter) :
    filter schema policy f = conjunction schema policy .all f.conjuncts := by
  have hsingle (g : Filter) : filter schema policy g = conjunction schema policy .all [g] := by
    rw [conjunction_cons]
    cases filter schema policy g with
    | error e => rfl
    | ok p => exact congrArg Except.ok p.all_both.symm
  cases f with
  | all | and parts => rfl
  | _ => exact hsingle _

/-- **A plan in front of a conjunction** may be joined to the first plan or to that of the whole. -/
theorem related_conjunction {front p joined : FilterPlan} (h : joined.Alike (front.both p))
    (fs : List Filter) :
    Outcome.Related FilterPlan.Alike (conjunction schema policy joined fs)
      ((conjunction schema policy p fs).map front.both) := by
  -- part by part, `joined` stays alike to `front` joined to what `p` has grown to
  induction fs generalizing p joined with
  | nil => exact .ok h
  | cons f rest ih =>
    rw [conjunction_cons, conjunction_cons]
    cases filter schema policy f with
    | error e => exact .error e
    | ok q => exact ih ((h.both (.refl q)).trans (.both_assoc front p q))

/-- The plan of two filters side by side. -/
theorem filter_and_pair (f g : Filter) :
    filter schema policy (.and [f, g]) =
      filter schema policy f >>= fun p => (filter schema policy g).map p.both := by
  change conjunction schema policy .all [f, g] = _
  rw [conjunction_cons]
  cases filter schema policy f with
  | error e => rfl
  | ok p =>
    change conjunction schema policy (FilterPlan.all.both p) [g] = _
    rw [FilterPlan.all_both, conjunction_cons]
    cases filter schema policy g <;> rfl

/-- **Joined filters and their conjunction** are refused alike or have plans alike. -/
theorem related_both (f g : Filter) :
    Outcome.Related FilterPlan.Alike (filter schema policy (f.both g))
      (filter schema policy (.and [f, g])) := by
  rw [filter_and_pair, filter_eq_conjunction (f.both g), Filter.conjuncts_both,
    conjunction_append, ← filter_eq_conjunction f, filter_eq_conjunction g]
  refine .bind (.refl (fun _ => rfl) (filter schema policy f)) fun p _ hp => ?_
  obtain rfl := hp
  refine related_conjunction ?_ g.conjuncts
  rw [FilterPlan.both_all]
  exact .refl p

/-! ### Evaluated alike -/

/-- **A find with joined filters** is one with their conjunction: with the permission of the caller
beside them both are refused for the same reason, or get the same reply from every store. -/
theorem selection_both (f g : Filter) (options : FindOptions) :
    Outcome.Related
      (fun sel sel' => ∀ (s : Store) (name : String) (session : Option SessionId),
        (s.run (.find name sel session)).outcome = (s.run (.find name sel' session)).outcome ∧
          (s.run (.find name sel session)).waitMs = (s.run (.find name sel' session)).waitMs ∧
          (s.run (.find name sel session)).store = (s.run (.find name sel' session)).store)
      (selection schema policy (f.both g) options)
      (selection schema policy (.and [f, g]) options) := by
  unfold selection
  refine (related_both f g).bind fun p q h => ?_
  refine .bind (.refl (fun _ => rfl) _) fun sort _ hsort => ?_
  obtain rfl := hsort
  have hquery (keys : Option (List String)) (name : String) (s : Store) := h.query_eq
    { sort, skip := options.skip.getD 0, limit := options.limit, projection := keys,
      maxTimeMs := options.maxTimeMs <|> policy.maxTimeMs }
    (permission Stored.readPermKey policy.caller) s name
  cases options.keys with
  | none => exact .ok fun s name => Store.run_find_congr (hquery none name) rfl s
  | some fields =>
    refine .bind (.refl (fun _ => rfl) _) fun keys _ hkeys => ?_
    obtain rfl := hkeys
    exact .ok fun s name => Store.run_find_congr (hquery keys name) rfl s

/-- **Flattened conjunctions are evaluated alike.** Joined predicates are evaluated one after the
other, the second from the delay of the first and only where that holds. The plans of joined
filters and of the conjunction of the two fail for the same reason, or have one collation and are
evaluated alike on every record. -/
theorem flattened_alike :
    (∀ (a b : Predicate) (c : Option Collation) (r : Record) (delayMs : Nat),
      (a.both b).evalFrom c r delayMs = match a.evalFrom c r delayMs with
        | (.ok true, delayMs) => b.evalFrom c r delayMs
        | stopped => stopped) ∧
    ∀ (schema : ClassSchema) (policy : Policy) (f g : Filter),
      Outcome.Related FilterPlan.Alike (filter schema policy (f.both g))
        (filter schema policy (.and [f, g])) :=
  ⟨fun a b _ _ delayMs => congrFun (Predicate.evalFrom_both a b) delayMs,
    fun _ _ f g => related_both f g⟩

/-- Three parts in one predicate and two in the other, of which one is a conjunction. -/
example :
    let policy : Policy := { caller := {}, allowScripts := true }
    let rest : Filter := .and [.raw "sleep(5)", .raw "false"]
    (filter ⟨"N", [], []⟩ policy ((Filter.raw "true").both rest)).map FilterPlan.filter =
        .ok (.and [.script "true", .script "sleep(5)", .script "false"]) ∧
      (filter ⟨"N", [], []⟩ policy (.and [.raw "true", rest])).map FilterPlan.filter =
        .ok (.and [.script "true", .and [.script "sleep(5)", .script "false"]]) :=
  ⟨rfl, rfl⟩

end Plan

end ObjectEngine
