import ObjectEngine.Plan.Selection
import ObjectEngine.Proofs.Outcome
import ObjectEngine.Proofs.Store.Query

/-!
# Permission lists

`Record.Admits` is what the lists of readers and writers of a record are for: a record without
the list admits everyone, and one with a list the callers that act as one of its subjects.
`Plan.permission` asks the store for it. The store decides it under the collation of the query
(`Predicate.eval_permission`), so it decides `Record.Admits` itself only where the collation
tells the cases of letters apart (`Record.grants_none_iff`).

A query gets a collation from its filter: `Filter.folds` says when, and
`Plan.filter_collation` that the plan does what it says.
-/

namespace ObjectEngine

/-! ### Lists of subjects -/

/-- A value that is a text or an array with it. -/
def Datum.Lists (s : String) : Datum → Prop
  | .string t => t = s
  | .array items => .string s ∈ items
  | _ => False

theorem Datum.names_none_iff {s : String} {d : Datum} : d.Names none s ↔ d.Lists s := by
  cases d with
  | array items => simp [Names, Lists, Collation.fold]
  | _ => simp [Names, Lists, Collation.fold]

/-- A value lists a text under every collation. -/
theorem Datum.Lists.names {s : String} {d : Datum} (h : d.Lists s) (c : Option Collation) :
    d.Names c s := by
  cases d with
  | string t => exact congrArg (Collation.fold c) h
  | array items => exact ⟨s, h, rfl⟩
  | _ => exact h

namespace Record

variable {key : String} {caller : Caller} {r : Record}

/-- **Permission**: the record has no list under `key`, or the list has a subject of the
caller. Callers that no list binds have it always. -/
def Admits (key : String) (caller : Caller) (r : Record) : Prop :=
  ∀ subjects, caller.subjects? = some subjects →
    ∀ d, r.lookup key = some d → ∃ s ∈ subjects, d.Lists s

/-- Permission as a query with a collation decides it. -/
def Grants (c : Option Collation) (key : String) (caller : Caller) (r : Record) : Prop :=
  ∀ subjects, caller.subjects? = some subjects →
    ∀ d, r.lookup key = some d → ∃ s ∈ subjects, d.Names c s

theorem grants_none_iff : r.Grants none key caller ↔ r.Admits key caller := by
  simp only [Grants, Admits, Datum.names_none_iff]

theorem Admits.grants (h : r.Admits key caller) (c : Option Collation) :
    r.Grants c key caller := by
  intro subjects hsubjects d hd
  obtain ⟨s, hs, hlists⟩ := h subjects hsubjects d hd
  exact ⟨s, hs, hlists.names c⟩

/-- A list of texts admits no one who acts as none of them. -/
theorem not_admits_of_array {subjects names : List String}
    (hcaller : caller.subjects? = some subjects)
    (hlist : r.lookup key = some (.array (names.map .string)))
    (h : ∀ s ∈ subjects, s ∉ names) : ¬r.Admits key caller := by
  intro hadmits
  obtain ⟨s, hs, hmem⟩ := hadmits subjects hcaller _ hlist
  obtain ⟨t, ht, heq⟩ := List.mem_map.1 hmem
  obtain rfl : t = s := Datum.string.inj heq
  exact h t hs ht

end Record

theorem Predicate.eval_key_absent {key : String} (hkey : Text.split '.' key = [key])
    {c : Option Collation} {r : Record} :
    ((Predicate.field key (.isPresent false)).eval c r).1 = .ok true ↔ r.lookup key = none := by
  rw [Predicate.eval, Condition.holds, Record.values_key hkey]
  cases r.lookup key <;> simp

/-- **The permission predicate decides permission**, under the collation of the query. -/
theorem Predicate.eval_permission {key : String} (hkey : Text.split '.' key = [key])
    {c : Option Collation} {caller : Caller} {r : Record} :
    ((Plan.permission key caller).eval c r).1 = .ok true ↔ r.Grants c key caller := by
  unfold Plan.permission Record.Grants
  cases caller.subjects? with
  | none => simp [eval_all]
  | some subjects =>
    simp only [Option.some.injEq, forall_eq']
    rw [eval]
    constructor
    · intro h d hd
      obtain ⟨p, hp, hholds⟩ := exists_of_evalUntil_true h
      rcases List.mem_cons.1 hp with rfl | hp
      · exact absurd ((eval_key_absent hkey).1 hholds) (by simp [hd])
      · obtain rfl := List.mem_singleton.1 hp
        obtain ⟨d', hd', hnames⟩ := (eval_key_isIn hkey).1 hholds
        exact Option.some.inj (hd.symm.trans hd') ▸ hnames
    · intro h
      have habsent : ((Predicate.field key (.isPresent false)).eval c r).1 =
          .ok (r.lookup key).isNone := by
        rw [eval, Condition.holds, Record.values_key hkey]
        cases r.lookup key <;> rfl
      have hlisted (d : Datum) (hd : r.lookup key = some d) :
          ((Predicate.field key (.isIn (subjects.map .string))).eval c r).1 = .ok true :=
        (eval_key_isIn hkey).2 ⟨d, hd, h d hd⟩
      -- the alternatives are decided one after another, up to the first that holds
      rw [evalUntil]
      rcases hfirst : (Predicate.field key (.isPresent false)).eval c r with ⟨b, delay⟩
      rw [hfirst] at habsent
      obtain rfl : b = .ok (r.lookup key).isNone := habsent
      cases hd : r.lookup key with
      | none => simp
      | some d =>
        rcases hsecond : (Predicate.field key (.isIn (subjects.map .string))).eval c r with
          ⟨b, delay⟩
        have htrue := hlisted d hd
        rw [hsecond] at htrue
        obtain rfl : b = .ok true := htrue
        simp [evalUntil, hsecond]

/-- A query without a collation beside the permission finds only records that admit the caller. -/
theorem Predicate.admits_of_eval_both {key : String} (hkey : Text.split '.' key = [key])
    {caller : Caller} {p : Predicate} {r : Record}
    (h : ((p.both (Plan.permission key caller)).eval none r).1 = .ok true) :
    r.Admits key caller :=
  Record.grants_none_iff.1 ((eval_permission hkey).1 ((eval_both _ _).1 h).2)

/-- The lists of readers and writers are plain keys. -/
theorem split_readPermKey : Text.split '.' Stored.readPermKey = [Stored.readPermKey] := rfl

theorem split_writePermKey : Text.split '.' Stored.writePermKey = [Stored.writePermKey] := rfl

/-! ### The collation of a filter -/

mutual

/-- **Whether the query of a filter ignores case**: the filter asks for an equality up to case
that an index serves. -/
def Filter.folds (schema : ClassSchema) : Filter → Bool
  | .and parts => Filter.anyFolds schema parts
  | .or parts => Filter.anyFolds schema parts
  | .field path (.equalsIgnoreCase _) => (schema.caseInsensitiveIndex? path).isSome
  | _ => false

/-- Whether one of some filters ignores case. -/
def Filter.anyFolds (schema : ClassSchema) : List Filter → Bool
  | [] => false
  | f :: rest => f.folds schema || Filter.anyFolds schema rest

end

namespace Plan

/-- The collation of queries that ignore case or not. -/
def collationOf (folds : Bool) : Option Collation :=
  if folds then some Collation.caseInsensitive else none

variable {schema : ClassSchema} {policy : Policy}

theorem condition_collation {path : String} {target : Target} {c : Constraint}
    {cond : Condition} {collation : Option Collation}
    (h : condition schema path target c = .ok (cond, collation)) :
    collation = collationOf ((Filter.field path c).folds schema) := by
  cases c with
  | equalsIgnoreCase text =>
    obtain ⟨_, -, h⟩ := Outcome.bind_eq_ok.1 h
    cases hindex : (schema.caseInsensitiveIndex? path).isSome with
    | true =>
      simp only [hindex, if_true] at h
      obtain ⟨-, rfl⟩ := Prod.mk.inj (Except.ok.inj h)
      rw [Filter.folds, hindex]
      rfl
    | false =>
      simp only [hindex, Bool.false_eq_true, if_false] at h
      obtain ⟨-, rfl⟩ := Prod.mk.inj (Except.ok.inj h)
      rw [Filter.folds, hindex]
      rfl
  | equals _ | notEqual _ | compare _ _ | isIn _ | notIn _ | regex _ _ =>
    obtain ⟨_, -, h⟩ := Outcome.bind_eq_ok.1 h
    obtain ⟨-, rfl⟩ := Prod.mk.inj (Except.ok.inj h)
    rfl
  | containsAll _ | geoWithin _ =>
    obtain ⟨_, -, h⟩ := Outcome.bind_eq_ok.1 h
    obtain ⟨_, -, h⟩ := Outcome.bind_eq_ok.1 h
    obtain ⟨-, rfl⟩ := Prod.mk.inj (Except.ok.inj h)
    rfl
  | isPresent _ =>
    obtain ⟨-, rfl⟩ := Prod.mk.inj (Except.ok.inj h)
    rfl
  | relationContains _ => exact absurd h (by simp [condition])

/-- What is planned for a constraint on a field. -/
theorem exists_of_fieldFilter {path : String} {c : Constraint} {plan : FilterPlan}
    (h : fieldFilter schema policy path c = .ok plan) :
    ∃ target, resolve schema policy.caller path = .ok target ∧
      ∃ cond, condition schema path target c = .ok (cond, plan.collation) ∧
        plan.filter = .field (Stored.keyPath schema path) cond := by
  obtain ⟨target, htarget, h⟩ := Outcome.bind_eq_ok.1 h
  refine ⟨target, htarget, ?_⟩
  have hplan : (condition schema path target c >>= fun out =>
      (pure ⟨.field (Stored.keyPath schema path) out.1, out.2⟩ : Outcome FilterPlan)) =
        .ok plan := by
    cases target with
    | free => exact (Outcome.guard_eq_ok.1 h).2
    | declared ty dotted =>
      cases dotted with
      | false => exact (Outcome.guard_eq_ok.1 h).2
      | true => exact (Outcome.guard_eq_ok.1 (Outcome.guard_eq_ok.1 h).2).2
  obtain ⟨⟨cond, collation⟩, hcond, hok⟩ := Outcome.bind_eq_ok.1 hplan
  obtain rfl := Except.ok.inj hok
  exact ⟨cond, hcond, rfl⟩

/-- No constraint on a relation is planned. -/
theorem not_isRelation_of_fieldFilter {path : String} {c : Constraint} {plan : FilterPlan}
    (h : fieldFilter schema policy path c = .ok plan) {target : Target}
    (htarget : resolve schema policy.caller path = .ok target) : target.isRelation = false := by
  obtain ⟨target', htarget', h⟩ := Outcome.bind_eq_ok.1 h
  obtain rfl : target' = target := Except.ok.inj (htarget'.symm.trans htarget)
  cases target' with
  | free => rfl
  | declared ty dotted =>
    have hrelation : ¬(Target.declared ty dotted).isRelation = true := by
      cases dotted with
      | false => exact (Outcome.guard_eq_ok.1 h).1
      | true => exact (Outcome.guard_eq_ok.1 (Outcome.guard_eq_ok.1 h).2).1
    simpa using hrelation

theorem fieldFilter_collation {path : String} {c : Constraint} {planned : FilterPlan}
    (h : fieldFilter schema policy path c = .ok planned) :
    planned.collation = collationOf ((Filter.field path c).folds schema) := by
  obtain ⟨target, -, cond, hcond, -⟩ := exists_of_fieldFilter h
  exact condition_collation hcond

mutual

/-- **The plan of a filter ignores case exactly if the filter does.** -/
theorem filter_collation {f : Filter} {planned : FilterPlan}
    (h : filter schema policy f = .ok planned) :
    planned.collation = collationOf (f.folds schema) := by
  cases f with
  | all =>
    obtain rfl := Except.ok.inj h
    rfl
  | and parts =>
    rw [conjunction_collation h, Filter.folds]
    cases Filter.anyFolds schema parts <;> rfl
  | or parts =>
    rw [filter] at h
    split at h
    · exact absurd h (by simp)
    · obtain ⟨⟨ps, collation⟩, hparts, h⟩ := Outcome.bind_eq_ok.1 h
      obtain rfl := Except.ok.inj h
      exact alternatives_collation hparts
  | field path c => exact fieldFilter_collation h
  | relatedTo owner key => exact absurd h (by simp [filter])
  | raw script =>
    rw [filter] at h
    split at h
    · obtain rfl := Except.ok.inj h
      rfl
    · exact absurd h (by simp)

theorem conjunction_collation {acc planned : FilterPlan} {parts : List Filter}
    (h : conjunction schema policy acc parts = .ok planned) :
    planned.collation = (collationOf (Filter.anyFolds schema parts) <|> acc.collation) := by
  cases parts with
  | nil =>
    obtain rfl := Except.ok.inj h
    rfl
  | cons part rest =>
    obtain ⟨p, hp, h⟩ := Outcome.bind_eq_ok.1 h
    rw [conjunction_collation h, filter_collation hp, Filter.anyFolds]
    cases part.folds schema <;> cases Filter.anyFolds schema rest <;> rfl

theorem alternatives_collation {parts : List Filter} {ps : List Predicate}
    {collation : Option Collation}
    (h : alternatives schema policy parts = .ok (ps, collation)) :
    collation = collationOf (Filter.anyFolds schema parts) := by
  cases parts with
  | nil =>
    obtain ⟨-, rfl⟩ := Prod.mk.inj (Except.ok.inj h)
    rfl
  | cons part rest =>
    obtain ⟨p, hp, h⟩ := Outcome.bind_eq_ok.1 h
    obtain ⟨⟨ps', collation'⟩, hrest, h⟩ := Outcome.bind_eq_ok.1 h
    obtain ⟨-, rfl⟩ := Prod.mk.inj (Except.ok.inj h)
    rw [alternatives_collation hrest, filter_collation hp, Filter.anyFolds]
    cases part.folds schema <;> cases Filter.anyFolds schema rest <;> rfl

end

/-! ### Queries -/

/-- **The query of a find**, part by part. -/
theorem parts_of_selection {f : Filter} {options : FindOptions} {sel : Selection}
    (h : selection schema policy f options = .ok sel) :
    ∃ planned sort keys, filter schema policy f = .ok planned ∧
      options.sort.mapM (sortKey schema policy.caller) = .ok sort ∧
      options.keys.mapM (projection schema policy.caller) = .ok keys ∧
      sel = {
        filter := planned.filter.both (permission Stored.readPermKey policy.caller)
        sort
        skip := options.skip.getD 0
        limit := options.limit
        projection := keys
        collation := planned.collation
        maxTimeMs := options.maxTimeMs <|> policy.maxTimeMs } := by
  obtain ⟨planned, hplanned, h⟩ := Outcome.bind_eq_ok.1 h
  obtain ⟨sort, hsort, h⟩ := Outcome.bind_eq_ok.1 h
  cases hkeys : options.keys with
  | none =>
    rw [hkeys] at h
    exact ⟨planned, sort, none, hplanned, hsort, rfl, (Except.ok.inj h).symm⟩
  | some fields =>
    rw [hkeys] at h
    obtain ⟨keys, hprojection, h⟩ := Outcome.bind_eq_ok.1 h
    exact ⟨planned, sort, keys, hplanned, hsort, hprojection, (Except.ok.inj h).symm⟩

end Plan

end ObjectEngine
