import ObjectEngine.Proofs.Engine.Counting

/-!
# What the plan of a filter decides

A filter is a tree of constraints under conjunctions and disjunctions, and it says of an object
what follows from what its constraints say (`Filter.Holds`). The plan of a filter evaluates its
parts from left to right until the answer is known, and a part that fails before that makes the
whole fail. So a plan need not answer; but if it does, the answer is what the filter says
(`Plan.decides_filter`), also when the constraints that need a look-up have been replaced.
-/

namespace ObjectEngine

/-! ### Filters as trees of constraints -/

namespace Filter

mutual

/-- **What a filter says**, if its constraints say what `means` takes them to say. -/
def Holds (means : Filter → Prop) : Filter → Prop
  | .and parts => AllHold means parts
  | .or parts => AnyHolds means parts
  | f => means f

/-- All of some filters hold. -/
def AllHold (means : Filter → Prop) : List Filter → Prop
  | [] => True
  | f :: rest => Holds means f ∧ AllHold means rest

/-- One of some filters holds. -/
def AnyHolds (means : Filter → Prop) : List Filter → Prop
  | [] => False
  | f :: rest => Holds means f ∨ AnyHolds means rest

end

mutual

/-- The constraints of a filter, at any depth. -/
def leaves : Filter → List Filter
  | .and parts => leavesOf parts
  | .or parts => leavesOf parts
  | f => [f]

/-- The constraints of some filters. -/
def leavesOf : List Filter → List Filter
  | [] => []
  | f :: rest => leaves f ++ leavesOf rest

end

/-- Whether a filter is a single constraint. -/
def isConstraint : Filter → Bool
  | .and _ | .or _ => false
  | _ => true

variable {means means' : Filter → Prop} {schema : ClassSchema}

mutual

/-- The leaves of a filter are constraints. -/
theorem isConstraint_of_mem_leaves {f l : Filter} (h : l ∈ f.leaves) : l.isConstraint = true := by
  cases f with
  | and parts => exact isConstraint_of_mem_leavesOf h
  | or parts => exact isConstraint_of_mem_leavesOf h
  | _ => exact List.mem_singleton.1 h ▸ rfl

theorem isConstraint_of_mem_leavesOf {parts : List Filter} {l : Filter} (h : l ∈ leavesOf parts) :
    l.isConstraint = true := by
  cases parts with
  | nil => exact absurd h List.not_mem_nil
  | cons f rest =>
    exact (List.mem_append.1 h).elim isConstraint_of_mem_leaves isConstraint_of_mem_leavesOf

end

mutual

/-- The constraints of a filter that minds case do so. -/
theorem folds_of_mem_leaves {f l : Filter} (hf : f.folds schema = false) (h : l ∈ f.leaves) :
    l.folds schema = false := by
  cases f with
  | and parts => exact folds_of_mem_leavesOf hf h
  | or parts => exact folds_of_mem_leavesOf hf h
  | _ => exact List.mem_singleton.1 h ▸ hf

theorem folds_of_mem_leavesOf {parts : List Filter} {l : Filter}
    (hparts : anyFolds schema parts = false) (h : l ∈ leavesOf parts) :
    l.folds schema = false := by
  cases parts with
  | nil => exact absurd h List.not_mem_nil
  | cons f rest =>
    obtain ⟨hf, hrest⟩ := Bool.or_eq_false_iff.1 hparts
    exact (List.mem_append.1 h).elim (folds_of_mem_leaves hf) (folds_of_mem_leavesOf hrest)

end

mutual

/-- **A filter says no less** if its constraints do: no constraint is negated. -/
theorem Holds.mono {f : Filter} (hmeans : ∀ l ∈ f.leaves, means l → means' l)
    (h : f.Holds means) : f.Holds means' := by
  cases f with
  | and parts => exact AllHold.mono hmeans h
  | or parts => exact AnyHolds.mono hmeans h
  | _ => exact hmeans _ List.mem_cons_self h

theorem AllHold.mono {parts : List Filter} (hmeans : ∀ l ∈ leavesOf parts, means l → means' l)
    (h : AllHold means parts) : AllHold means' parts := by
  cases parts with
  | nil => trivial
  | cons f rest =>
    obtain ⟨hfirst, hrest⟩ := List.forall_mem_append.1 hmeans
    exact ⟨Holds.mono hfirst h.1, AllHold.mono hrest h.2⟩

theorem AnyHolds.mono {parts : List Filter} (hmeans : ∀ l ∈ leavesOf parts, means l → means' l)
    (h : AnyHolds means parts) : AnyHolds means' parts := by
  cases parts with
  | nil => exact h
  | cons f rest =>
    obtain ⟨hfirst, hrest⟩ := List.forall_mem_append.1 hmeans
    exact h.imp (Holds.mono hfirst) (AnyHolds.mono hrest)

end

end Filter

/-! ### Predicates that decide -/

namespace Predicate

variable {c : Option Collation} {r : Record} {p q : Predicate} {P Q : Prop}

/-- **A predicate decides** a statement about a record: its answer, if it has one, is whether the
statement holds. -/
def Decides (c : Option Collation) (r : Record) (p : Predicate) (P : Prop) : Prop :=
  ∀ b, (p.eval c r).1 = .ok b → (b = true ↔ P)

/-- Some predicates decide whether one of some statements holds. -/
def AnyDecides (c : Option Collation) (r : Record) (ps : List Predicate) (P : Prop) : Prop :=
  ∀ b, (evalUntil c r true ps).1 = .ok b → (b = true ↔ P)

/-- A predicate decides whether it holds. -/
theorem decides_self (c : Option Collation) (r : Record) (p : Predicate) :
    p.Decides c r ((p.eval c r).1 = .ok true) := by
  intro b hb
  rw [hb, Except.ok.injEq]

theorem decides_all : (Predicate.all).Decides c r True := fun _ hb => by simp_all [eval]

/-- What is decided by a predicate that answers. -/
theorem Decides.selects_iff (h : p.Decides c r P) {b : Bool} (hb : (p.eval c r).1 = .ok b) :
    p.selects c r = true ↔ P := by
  rw [← h b hb, selects, hb]

theorem Decides.both (hp : p.Decides c r P) (hq : q.Decides c r Q) :
    (p.both q).Decides c r (P ∧ Q) := by
  intro b hb
  rw [eval_both_eq] at hb
  obtain ⟨a, ha, hb⟩ := Outcome.bind_eq_ok.1 hb
  cases a with
  | true => rw [hq b hb, ← hp true ha, and_iff_right rfl]
  | false =>
    obtain rfl : false = b := Except.ok.inj hb
    rw [← hp false ha]
    simp

theorem anyDecides_nil : AnyDecides c r [] False := by
  intro b hb
  obtain rfl : false = b := Except.ok.inj hb
  simp

theorem AnyDecides.cons {ps : List Predicate} (hp : p.Decides c r P)
    (hps : AnyDecides c r ps Q) : AnyDecides c r (p :: ps) (P ∨ Q) := by
  intro b hb
  rw [evalUntil] at hb
  rcases hfirst : p.eval c r with ⟨_ | a, delay⟩
  · simp [hfirst] at hb
  · have hdecided := hp a (by rw [hfirst])
    cases a with
    | true =>
      obtain rfl : true = b := by simpa [hfirst] using hb
      exact ⟨fun _ => .inl (hdecided.1 rfl), fun _ => rfl⟩
    | false =>
      have hrest : (evalUntil c r true ps).1 = .ok b := by simpa [hfirst] using hb
      have hnot : ¬P := fun hP => absurd (hdecided.2 hP) (by simp)
      rw [hps b hrest, or_iff_right hnot]

end Predicate

/-! ### Plans -/

theorem Filter.substitute_of_isConstraint {found : List (Engine.RelationLookup × List String)}
    {l : Filter} (hl : l.isConstraint = true) :
    Engine.substitute found l = match (Engine.lookupOf? l).bind fun k => found.lookup k with
      | some ids => .field "objectId" (.isIn (ids.map .string))
      | none => l := by
  cases l with
  | and parts => exact absurd hl Bool.false_ne_true
  | or parts => exact absurd hl Bool.false_ne_true
  | _ => rfl

namespace Plan

open Engine (RelationLookup substitute substituteAll)
open Filter (AllHold AnyHolds leavesOf)

variable {schema : ClassSchema} {policy : Policy} {c : Option Collation} {r : Record}
  {found : List (RelationLookup × List String)} {means : Filter → Prop}

/-- **A constraint that minds case** is planned in the same way without indexes. -/
theorem filter_withoutIndexes {l : Filter} (hl : l.isConstraint = true)
    (hfolds : l.folds schema = false) :
    filter schema.withoutIndexes policy l = filter schema policy l := by
  cases l with
  | field path c =>
    have hcondition (target : Target) :
        condition schema.withoutIndexes path target c = condition schema path target c := by
      cases c with
      | equalsIgnoreCase text =>
        have hindex : (schema.caseInsensitiveIndex? path).isSome = false := hfolds
        have hnone : (schema.withoutIndexes.caseInsensitiveIndex? path).isSome = false := rfl
        rw [condition, condition, hindex, hnone]
      | _ => rfl
    change fieldFilter schema.withoutIndexes policy path c = fieldFilter schema policy path c
    unfold fieldFilter
    simp only [hcondition]
    rfl
  | and parts => exact absurd hl Bool.false_ne_true
  | or parts => exact absurd hl Bool.false_ne_true
  | _ => rfl

/-- What the plan of a constraint decides, once it is looked up. -/
abbrev DecidesLeaf (schema : ClassSchema) (policy : Policy) (c : Option Collation) (r : Record)
    (found : List (RelationLookup × List String)) (means : Filter → Prop) (l : Filter) : Prop :=
  ∀ plan, filter schema policy (substitute found l) = .ok plan → plan.filter.Decides c r (means l)

mutual

/-- **The plan of a filter decides** what the filter says, if the plans of its constraints do. -/
theorem decides_filter {f : Filter}
    (hleaves : ∀ l ∈ f.leaves, DecidesLeaf schema policy c r found means l) {plan : FilterPlan}
    (h : filter schema policy (substitute found f) = .ok plan) :
    plan.filter.Decides c r (f.Holds means) := by
  cases f with
  | and parts =>
    rw [substitute, filter] at h
    have hdecides := decides_conjunction hleaves Predicate.decides_all h
    intro b hb
    rw [hdecides b hb, true_and, Filter.Holds]
  | or parts =>
    rw [substitute, filter] at h
    split at h
    · exact absurd h (by simp)
    · obtain ⟨⟨ps, collation⟩, hps, h⟩ := Outcome.bind_eq_ok.1 h
      obtain rfl := Except.ok.inj h
      intro b hb
      rw [Predicate.eval] at hb
      rw [decides_alternatives hleaves hps b hb, Filter.Holds]
  | _ => exact hleaves _ List.mem_cons_self plan h

theorem decides_conjunction {parts : List Filter} {acc plan : FilterPlan} {P : Prop}
    (hleaves : ∀ l ∈ leavesOf parts, DecidesLeaf schema policy c r found means l)
    (hacc : acc.filter.Decides c r P)
    (h : conjunction schema policy acc (substituteAll found parts) = .ok plan) :
    plan.filter.Decides c r (P ∧ AllHold means parts) := by
  cases parts with
  | nil =>
    obtain rfl := Except.ok.inj h
    rwa [AllHold, and_true]
  | cons f rest =>
    obtain ⟨hfirst, hrest⟩ := List.forall_mem_append.1 hleaves
    obtain ⟨p, hp, h⟩ := Outcome.bind_eq_ok.1 h
    have hdecides := decides_conjunction hrest (hacc.both (decides_filter hfirst hp)) h
    rwa [and_assoc] at hdecides

theorem decides_alternatives {parts : List Filter} {ps : List Predicate}
    {collation : Option Collation}
    (hleaves : ∀ l ∈ leavesOf parts, DecidesLeaf schema policy c r found means l)
    (h : alternatives schema policy (substituteAll found parts) = .ok (ps, collation)) :
    Predicate.AnyDecides c r ps (AnyHolds means parts) := by
  cases parts with
  | nil =>
    obtain ⟨rfl, -⟩ := Prod.mk.inj (Except.ok.inj h)
    exact Predicate.anyDecides_nil
  | cons f rest =>
    obtain ⟨hfirst, hrest⟩ := List.forall_mem_append.1 hleaves
    obtain ⟨p, hp, h⟩ := Outcome.bind_eq_ok.1 h
    obtain ⟨⟨qs, collation'⟩, hqs, h⟩ := Outcome.bind_eq_ok.1 h
    obtain ⟨rfl, -⟩ := Prod.mk.inj (Except.ok.inj h)
    exact .cons (decides_filter hfirst hp) (decides_alternatives hrest hqs)

end

end Plan

end ObjectEngine
