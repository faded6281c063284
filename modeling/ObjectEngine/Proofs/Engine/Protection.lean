import ObjectEngine.Proofs.Engine.Calls
import ObjectEngine.Proofs.Engine.Rereading
import ObjectEngine.Proofs.Engine.Updates
import ObjectEngine.Proofs.Engine.Writing

/-!
# Filters on protected fields

A caller may not filter on a field that is protected from them, at any depth of the filter.
The key policy is asked where a constraint is planned, and a constraint on a relation that was
looked up before is then a constraint on `objectId`. So what the policy is asked about is not
always the field of the constraint (`Engine.checkedField?`): it refuses every constraint on a
protected field that is not looked up, and one that is looked up only if `objectId` is protected.

`Engine.filtered_on_protected` says so for the five calls that take a filter. A filter with a
field that the policy refuses makes each of them fail and changes nothing; any other is
treated as if nothing were protected. `Engine.not_refused_handedOver` is a world where a caller
learns of a protected relation that way.
-/

namespace ObjectEngine

/-! ### Constraints -/

namespace Filter

mutual

/-- The constraints of a filter, at any depth. -/
def constraints : Filter → List Filter
  | .and parts => constraintsOf parts
  | .or parts => constraintsOf parts
  | f => [f]

/-- The constraints of some filters. -/
def constraintsOf : List Filter → List Filter
  | [] => []
  | f :: rest => constraints f ++ constraintsOf rest

end

/-- The field that a constraint is on, whatever subpath it names. -/
def root? : Filter → Option String
  | .field path _ => some (Text.root path)
  | .relatedTo _ key => some key
  | _ => none

/-- The constraint is on a field that is protected from the caller. -/
def OnProtected (caller : Caller) (c : Filter) : Prop :=
  ∃ field, c.root? = some field ∧ caller.isProtected field = true

end Filter

/-- The caller, with nothing protected from them. -/
def Caller.unrestricted (caller : Caller) : Caller := { caller with protectedFields := [] }

theorem Caller.isProtected_unrestricted (caller : Caller) (field : String) :
    caller.unrestricted.isProtected field = false := by
  simp [isProtected, unrestricted]

/-! ### What the key policy is asked -/

namespace Plan

variable {schema : ClassSchema} {caller : Caller} {policy : Policy}

/-- A path that the key policy accepts starts with a field that is not protected. -/
theorem not_isProtected_of_resolve {path : String} {target : Target}
    (h : resolve schema caller path = .ok target) :
    caller.isProtected (Text.root path) = false := by
  rw [Text.root_eq]
  unfold resolve at h
  cases hsplit : Text.splitFirst '.' path with
  | none =>
    simp only [hsplit, pure_bind] at h
    obtain ⟨-, h⟩ := Outcome.guard_eq_ok.1 h
    exact Bool.eq_false_iff.2 (Outcome.guard_eq_ok.1 h).1
  | some parts =>
    simp only [hsplit, pure_bind] at h
    obtain ⟨-, h⟩ := Outcome.guard_eq_ok.1 h
    obtain ⟨-, h⟩ := Outcome.guard_eq_ok.1 h
    exact Bool.eq_false_iff.2 (Outcome.guard_eq_ok.1 h).1

/-- Where the field is not protected, the key policy is that of a caller from whom nothing
is. -/
theorem resolve_unrestricted {path : String} (h : caller.isProtected (Text.root path) = false) :
    resolve schema caller.unrestricted path = resolve schema caller path := by
  rw [Text.root_eq] at h
  unfold resolve
  cases hsplit : Text.splitFirst '.' path with
  | none =>
    rw [hsplit] at h
    simp only [pure_bind, Caller.isProtected_unrestricted,
      show caller.isProtected path = false from h]
    rfl
  | some parts =>
    rw [hsplit] at h
    simp only [pure_bind, Caller.isProtected_unrestricted,
      show caller.isProtected parts.1 = false from h]
    rfl

mutual

/-- **A filter that is planned** has no constraint on a protected field. -/
theorem not_isProtected_of_filter {f : Filter} {planned : FilterPlan}
    (h : filter schema policy f = .ok planned) :
    ∀ c ∈ f.constraints, ∀ field, c.root? = some field →
      policy.caller.isProtected field = false := by
  intro c hc field hfield
  cases f with
  | and parts => exact not_isProtected_of_conjunction h c hc field hfield
  | or parts =>
    rw [filter] at h
    split at h
    · exact absurd h (by simp)
    · obtain ⟨out, hparts, -⟩ := Outcome.bind_eq_ok.1 h
      exact not_isProtected_of_alternatives hparts c hc field hfield
  | field path constraint =>
    obtain rfl := List.mem_singleton.1 hc
    obtain rfl := Option.some.inj hfield
    obtain ⟨target, htarget, -⟩ := Outcome.bind_eq_ok.1 h
    exact not_isProtected_of_resolve htarget
  | relatedTo owner key => exact absurd h (by simp [filter])
  | all =>
    obtain rfl := List.mem_singleton.1 hc
    exact absurd hfield (by simp [Filter.root?])
  | raw script =>
    obtain rfl := List.mem_singleton.1 hc
    exact absurd hfield (by simp [Filter.root?])

theorem not_isProtected_of_conjunction {acc planned : FilterPlan} {parts : List Filter}
    (h : conjunction schema policy acc parts = .ok planned) :
    ∀ c ∈ Filter.constraintsOf parts, ∀ field, c.root? = some field →
      policy.caller.isProtected field = false := by
  intro c hc field hfield
  cases parts with
  | nil => exact absurd hc List.not_mem_nil
  | cons part rest =>
    obtain ⟨p, hp, h⟩ := Outcome.bind_eq_ok.1 h
    rcases List.mem_append.1 hc with hc | hc
    · exact not_isProtected_of_filter hp c hc field hfield
    · exact not_isProtected_of_conjunction h c hc field hfield

theorem not_isProtected_of_alternatives {parts : List Filter}
    {out : List Predicate × Option Collation} (h : alternatives schema policy parts = .ok out) :
    ∀ c ∈ Filter.constraintsOf parts, ∀ field, c.root? = some field →
      policy.caller.isProtected field = false := by
  intro c hc field hfield
  cases parts with
  | nil => exact absurd hc List.not_mem_nil
  | cons part rest =>
    obtain ⟨p, hp, h⟩ := Outcome.bind_eq_ok.1 h
    obtain ⟨out', hrest, -⟩ := Outcome.bind_eq_ok.1 h
    rcases List.mem_append.1 hc with hc | hc
    · exact not_isProtected_of_filter hp c hc field hfield
    · exact not_isProtected_of_alternatives hrest c hc field hfield

end

/-- The policy, for a caller from whom nothing is protected. -/
def Policy.unrestricted (policy : Policy) : Policy :=
  { policy with caller := policy.caller.unrestricted }

mutual

/-- **A filter without constraints on protected fields** is planned as if nothing were
protected. -/
theorem filter_unrestricted {f : Filter} (h : ∀ c ∈ f.constraints, ∀ field,
    c.root? = some field → policy.caller.isProtected field = false) :
    filter schema policy.unrestricted f = filter schema policy f := by
  cases f with
  | and parts => exact conjunction_unrestricted h _
  | or parts =>
    rw [filter, filter, alternatives_unrestricted h]
  | field path c =>
    have hresolve : resolve schema policy.caller.unrestricted path =
        resolve schema policy.caller path :=
      resolve_unrestricted (h _ (List.mem_singleton.2 rfl) _ rfl)
    rw [filter, filter, fieldFilter, fieldFilter]
    exact congrArg (· >>= _) hresolve
  | _ => rfl

theorem conjunction_unrestricted {parts : List Filter}
    (h : ∀ c ∈ Filter.constraintsOf parts, ∀ field,
      c.root? = some field → policy.caller.isProtected field = false) (acc : FilterPlan) :
    conjunction schema policy.unrestricted acc parts = conjunction schema policy acc parts := by
  cases parts with
  | nil => rfl
  | cons part rest =>
    have hrest (acc : FilterPlan) :
        conjunction schema policy.unrestricted acc rest = conjunction schema policy acc rest :=
      conjunction_unrestricted (fun c hc => h c (List.mem_append_right _ hc)) acc
    rw [conjunction, conjunction, filter_unrestricted fun c hc => h c (List.mem_append_left _ hc)]
    simp only [hrest]

theorem alternatives_unrestricted {parts : List Filter}
    (h : ∀ c ∈ Filter.constraintsOf parts, ∀ field,
      c.root? = some field → policy.caller.isProtected field = false) :
    alternatives schema policy.unrestricted parts = alternatives schema policy parts := by
  cases parts with
  | nil => rfl
  | cons part rest =>
    rw [alternatives, alternatives,
      filter_unrestricted fun c hc => h c (List.mem_append_left _ hc),
      alternatives_unrestricted fun c hc => h c (List.mem_append_right _ hc)]

end

end Plan

namespace Engine

/-! ### Constraints that are looked up -/

variable {schema : ClassSchema} {caller : Caller} {config : Config}

/-- Whether a constraint is looked up before its filter is planned. -/
def isLookedUp (schema : ClassSchema) (c : Filter) : Bool := (lookupOf? c).any (canLookUp schema)

/-- The field that the key policy is asked about for a constraint: the field it is on, or
`objectId` if it is looked up. -/
def checkedField? (schema : ClassSchema) (c : Filter) : Option String :=
  if isLookedUp schema c then some "objectId" else c.root?

/-- **The filter meets the protection** of the caller: the key policy is asked about a field that
is protected. -/
def MeetsProtection (schema : ClassSchema) (caller : Caller) (f : Filter) : Prop :=
  ∃ c ∈ f.constraints, ∃ field, checkedField? schema c = some field ∧
    caller.isProtected field = true

/-- A filter meets the protection by a constraint on a protected field that is not looked up, or
by one that is looked up if `objectId` is protected. -/
theorem meetsProtection_iff {f : Filter} : MeetsProtection schema caller f ↔
    (∃ c ∈ f.constraints, c.OnProtected caller ∧ isLookedUp schema c = false) ∨
      (caller.isProtected "objectId" = true ∧ ∃ c ∈ f.constraints, isLookedUp schema c = true) := by
  constructor
  · rintro ⟨c, hc, field, hfield, hprotected⟩
    cases hlooked : isLookedUp schema c with
    | false =>
      rw [checkedField?, hlooked, if_neg Bool.false_ne_true] at hfield
      exact .inl ⟨c, hc, ⟨field, hfield, hprotected⟩, hlooked⟩
    | true =>
      rw [checkedField?, hlooked, if_pos rfl] at hfield
      exact .inr ⟨Option.some.inj hfield ▸ hprotected, c, hc, hlooked⟩
  · rintro (⟨c, hc, ⟨field, hfield, hprotected⟩, hlooked⟩ | ⟨hprotected, c, hc, hlooked⟩)
    · exact ⟨c, hc, field, by rw [checkedField?, hlooked, if_neg Bool.false_ne_true, hfield],
        hprotected⟩
    · exact ⟨c, hc, _, by rw [checkedField?, hlooked, if_pos rfl], hprotected⟩

/-- Look-ups whose results are at hand are those that a filter needs. -/
def Answers (schema : ClassSchema) (f : Filter) (found : List (RelationLookup × List String)) :
    Prop :=
  ∀ l, (found.lookup l).isSome = true ↔ l ∈ lookups schema f

mutual

theorem mem_lookups {f : Filter} {l : RelationLookup} :
    l ∈ lookups schema f ↔
      ∃ c ∈ f.constraints, lookupOf? c = some l ∧ canLookUp schema l = true := by
  cases f with
  | and parts => exact mem_lookupsOf
  | or parts => exact mem_lookupsOf
  | _ => simp [lookups, Filter.constraints]

theorem mem_lookupsOf {parts : List Filter} {l : RelationLookup} :
    l ∈ lookupsOf schema parts ↔
      ∃ c ∈ Filter.constraintsOf parts, lookupOf? c = some l ∧ canLookUp schema l = true := by
  cases parts with
  | nil => simp [lookupsOf, Filter.constraintsOf]
  | cons part rest =>
    rw [lookupsOf, List.mem_append, mem_lookups, mem_lookupsOf, Filter.constraintsOf]
    simp only [List.mem_append, or_and_right, exists_or]

end

mutual

theorem constraints_substitute (found : List (RelationLookup × List String)) (f : Filter) :
    (substitute found f).constraints = f.constraints.map (substitute found) := by
  cases f with
  | and parts => exact constraintsOf_substituteAll found parts
  | or parts => exact constraintsOf_substituteAll found parts
  | all | raw script => rfl
  | field path c | relatedTo owner key =>
    change (substitute found _).constraints = [substitute found _]
    rw [substitute.eq_def]
    simp only
    split <;> rfl

theorem constraintsOf_substituteAll (found : List (RelationLookup × List String))
    (parts : List Filter) :
    Filter.constraintsOf (substituteAll found parts) =
      (Filter.constraintsOf parts).map (substitute found) := by
  cases parts with
  | nil => rfl
  | cons f rest =>
    rw [substituteAll, Filter.constraintsOf, Filter.constraintsOf, List.map_append,
      constraints_substitute found f, constraintsOf_substituteAll found rest]

end

/-- The field of what takes the place of a constraint. -/
theorem root?_substitute (found : List (RelationLookup × List String)) (c : Filter) :
    (substitute found c).root? =
      if (lookupOf? c).any fun l => (found.lookup l).isSome then some "objectId"
      else c.root? := by
  cases c with
  | and parts | or parts | all | raw script => rfl
  | field path constraint | relatedTo owner key =>
    rw [substitute.eq_def]
    simp only
    split
    · rename_i ids hids
      obtain ⟨l, hl, hids⟩ := Option.bind_eq_some_iff.1 hids
      simp only [hl, Option.any_some, hids, Option.isSome_some, if_true, Filter.root?,
        show Text.root "objectId" = "objectId" by decide]
    · rename_i hnone
      cases hl : lookupOf? _ with
      | none => rfl
      | some l =>
        rw [hl, Option.bind_some] at hnone
        simp [hnone]

/-- **What the key policy is asked about a reduced filter** are the checked fields of the
filter. -/
theorem exists_root_substitute {f : Filter} {found : List (RelationLookup × List String)}
    (hfound : Answers schema f found) {field : String} :
    (∃ c ∈ (substitute found f).constraints, c.root? = some field) ↔
      ∃ c ∈ f.constraints, checkedField? schema c = some field := by
  rw [constraints_substitute]
  simp only [List.mem_map, exists_exists_and_eq_and, root?_substitute]
  refine exists_congr fun c => and_congr_right fun hc => ?_
  suffices hlooked : ((lookupOf? c).any fun l => (found.lookup l).isSome) = isLookedUp schema c by
    rw [hlooked, checkedField?]
  unfold isLookedUp
  cases hl : lookupOf? c with
  | none => rfl
  | some l =>
    rw [Option.any_some, Option.any_some, Bool.eq_iff_iff, hfound l, mem_lookups]
    constructor
    · rintro ⟨c', -, -, hcan⟩
      exact hcan
    · exact fun hcan => ⟨c, hc, hl, hcan⟩

/-! ### Reduced filters -/

section

variable {I : Store → Prop}

/-- **Reduction** answers all look-ups that the filter needs. -/
theorem ensures_reduceRelations_answers (hI : Store.Stable I) (schema : ClassSchema) (f : Filter) :
    (reduceRelations schema f).Ensures I fun reduced =>
      ∃ found, Answers schema f found ∧ reduced = substitute found f := by
  have hfound : StoreAction.Ensures I
      (List.Forall₂ (fun l entry => entry.1 = l) (lookups schema f).eraseDups)
      ((lookups schema f).eraseDups.mapM fun l => do
        return (l, ← lookUp schema.className l)) :=
    (StoreAction.judgement I).forall₂_mapM fun l _ =>
      .bind (ensures_lookUp hI.keptByFinds _ l) fun _ _ => .pure rfl
  refine .bind hfound fun found hfound => .pure ⟨found, fun l => ?_, rfl⟩
  rw [← List.mem_eraseDups]
  generalize (lookups schema f).eraseDups = ls at hfound
  induction hfound with
  | nil => simp
  | @cons asked entry rest found hentry _ ih =>
    obtain ⟨answered, ids⟩ := entry
    obtain rfl : answered = asked := hentry
    rw [List.lookup_cons, List.mem_cons, ← ih]
    by_cases hl : l = answered
    · simp [hl]
    · simp [hl, beq_eq_false_iff_ne.2 hl]

/-- The plan of a filter, made after its look-ups. -/
def planned (config : Config) (caller : Caller) (schema schema' : ClassSchema) (f : Filter) :
    StoreAction Plan.FilterPlan := do
  let reduced ← reduceRelations schema f
  (Plan.filter schema' (policy config caller) reduced : Outcome Plan.FilterPlan)

/-- A filter that meets the protection has no plan. -/
theorem MeetsProtection.not_planned {f : Filter} (h : MeetsProtection schema caller f)
    {found : List (RelationLookup × List String)} (hfound : Answers schema f found)
    {schema' : ClassSchema} {plan : Plan.FilterPlan} :
    Plan.filter schema' (policy config caller) (substitute found f) ≠ .ok plan := by
  intro hplan
  obtain ⟨c, hc, field, hfield, hprotected⟩ := h
  obtain ⟨c', hc', hroot⟩ := (exists_root_substitute hfound).2 ⟨c, hc, hfield⟩
  have hopen : caller.isProtected field = false :=
    Plan.not_isProtected_of_filter hplan c' hc' field hroot
  rw [hopen] at hprotected
  exact Bool.false_ne_true hprotected

theorem ensures_planned (hI : Store.Stable I) (schema' : ClassSchema) {f : Filter}
    (h : MeetsProtection schema caller f) :
    (planned config caller schema schema' f).Ensures I fun _ => False := by
  refine .bind (ensures_reduceRelations_answers hI schema f) fun reduced hreduced => ?_
  obtain ⟨found, hfound, rfl⟩ := hreduced
  exact .outcome fun _ hplan => h.not_planned hfound hplan

/-- **Any other filter** is planned as if nothing were protected. -/
theorem run_planned_unrestricted {f : Filter} (h : ¬MeetsProtection schema caller f)
    (schema' : ClassSchema) (w : World) :
    (planned config caller.unrestricted schema schema' f).run.run w =
      (planned config caller schema schema' f).run.run w := by
  have hreduced := (ensures_reduceRelations_answers (I := fun _ => True) (fun _ _ _ h => h)
    schema f).run (w := w) trivial
  unfold planned
  rw [StoreAction.run_bind, StoreAction.run_bind]
  rcases hrun : (reduceRelations schema f).run.run w with ⟨_ | reduced, v⟩
  · rfl
  · rw [hrun] at hreduced
    obtain ⟨found, hfound, rfl⟩ := hreduced.2 reduced rfl
    have hopen : ∀ c ∈ (substitute found f).constraints, ∀ field, c.root? = some field →
        caller.isProtected field = false := by
      intro c hc field hroot
      obtain ⟨c', hc', hfield⟩ := (exists_root_substitute hfound).1 ⟨c, hc, hroot⟩
      exact Bool.eq_false_iff.2 fun hprotected => h ⟨c', hc', field, hfield, hprotected⟩
    have hplan := @Plan.filter_unrestricted schema' (policy config caller) _ hopen
    simp only
    rw [← hplan]
    rfl

/-- The predicate of a filter is its plan beside the permission. -/
theorem scopedFilter_eq (permKey : String) (f : Filter) :
    scopedFilter config caller schema permKey f =
      planned config caller schema { schema with indexes := [] } f >>= fun plan =>
        pure (plan.filter.both (Plan.permission permKey caller)) := by
  rw [planned, bind_assoc]
  rfl

theorem ensures_scopedFilter_of_meets (hI : Store.Stable I) (permKey : String) {f : Filter}
    (h : MeetsProtection schema caller f) :
    (scopedFilter config caller schema permKey f).Ensures I fun _ => False := by
  rw [scopedFilter_eq]
  exact .bind (ensures_planned hI _ h) nofun

theorem run_scopedFilter_unrestricted {f : Filter} (h : ¬MeetsProtection schema caller f)
    (permKey : String) (w : World) :
    (scopedFilter config caller.unrestricted schema permKey f).run.run w =
      (scopedFilter config caller schema permKey f).run.run w := by
  rw [scopedFilter_eq, scopedFilter_eq, StoreAction.run_bind, StoreAction.run_bind,
    run_planned_unrestricted h]
  rfl

end

/-! ### Refused calls -/

/-- A call that fails and leaves the records and indexes of the store as they are. -/
structure Refused {α : Type} (w : World) (result : (Outcome α × SchemaCache) × World) :
    Prop where
  fails (a : α) : result.1.1 ≠ .ok a
  keeps : w.store.Keeps result.2.store

namespace Refused

variable {α β : Type} {w : World} {cache : SchemaCache}

theorem bind {work : Action α} (h : Refused w (work.runIn cache w)) (f : α → Action β) :
    Refused w ((work >>= f).runIn cache w) := by
  rw [Action.runIn_bind]
  rcases hwork : work.runIn cache w with ⟨⟨e | a, cache'⟩, w'⟩
  · rw [hwork] at h
    exact ⟨nofun, h.keeps⟩
  · rw [hwork] at h
    exact absurd rfl (h.fails a)

theorem guarded {work : Action α} (h : Refused w (work.runIn cache w)) (config : Config) :
    Refused w ((Engine.guarded config work).runIn cache w) := by
  rw [Action.runIn_guarded]
  rcases hwork : work.runIn cache w with ⟨⟨e | a, cache'⟩, w'⟩
  · rw [hwork] at h
    exact ⟨nofun, h.keeps⟩
  · rw [hwork] at h
    exact absurd rfl (h.fails a)

/-- Work that is refused whatever schema it reads. -/
theorem of_schema {className : String} {work : ClassSchema → Action α}
    (h : ∀ schema, ((Action.schema className).runIn cache w).1.1 = .ok schema →
      (work schema).Ensures w.store.Keeps (fun _ => True) fun _ => False) :
    Refused w ((Action.schema className >>= work).runIn cache w) := by
  have hkept : w.store.Keeps ((Action.schema className).runIn cache w).2.store :=
    ((Action.ensures_schema_any (Store.stable_keeps _) className).runIn trivial fun _ => rfl).1
  rw [Action.runIn_bind]
  rcases hschema : (Action.schema className).runIn cache w with ⟨⟨e | schema, cache'⟩, w'⟩
  · rw [hschema] at hkept
    exact ⟨nofun, hkept⟩
  · rw [hschema] at hkept
    have hwork := Program.Ensures.run (h schema (by rw [hschema]) cache' trivial) hkept
    exact ⟨fun a ha => hwork.2.2 a ha, hwork.1⟩

end Refused

/-! ### Equal runs -/

section

variable {α β : Type} {cache : SchemaCache} {w : World}

theorem runIn_guarded_congr {work work' : Action α}
    (h : work.runIn cache w = work'.runIn cache w) :
    (guarded config work).runIn cache w = (guarded config work').runIn cache w := by
  rw [Action.runIn_guarded, Action.runIn_guarded, h]

theorem runIn_bind_congr {work work' : Action α} (h : work.runIn cache w = work'.runIn cache w)
    (f : α → Action β) : (work >>= f).runIn cache w = (work' >>= f).runIn cache w := by
  rw [Action.runIn_bind, Action.runIn_bind, h]

theorem runIn_lift_bind_congr {work work' : StoreAction α}
    (h : ∀ v, work.run.run v = work'.run.run v) (f : α → Action β) :
    (Action.ofStore work >>= f).runIn cache w = (Action.ofStore work' >>= f).runIn cache w :=
  runIn_bind_congr (by
    rw [Action.runIn_ofStore, Action.runIn_ofStore, StoreAction.outcomeIn, StoreAction.outcomeIn,
      h]) f

theorem runIn_schema_bind_congr {className : String} {work work' : ClassSchema → Action α}
    (h : ∀ schema, ((Action.schema className).runIn cache w).1.1 = .ok schema →
      ∀ cache' w', (work schema).runIn cache' w' = (work' schema).runIn cache' w') :
    (Action.schema className >>= work).runIn cache w =
      (Action.schema className >>= work').runIn cache w := by
  rw [Action.runIn_bind, Action.runIn_bind]
  rcases hschema : (Action.schema className).runIn cache w with ⟨⟨e | schema, cache'⟩, w'⟩
  · rfl
  · exact h schema (by rw [hschema]) cache' w'

end

/-! ### Calls with a filter -/

/-- A call that takes a filter. -/
inductive FilteredCall
  | find (options : FindOptions)
  | count
  | updateMany (ops : UpdateMap)
  | upsert (ops : UpdateMap)
  | delete

/-- What a call with a filter answers. -/
inductive FilteredAnswer
  | documents (ds : List Document)
  | count (n : Nat)

/-- Runs a call with a filter. -/
def filtered (config : Config) (caller : Caller) (className : String) (f : Filter) :
    FilteredCall → Action FilteredAnswer
  | .find options => do return .documents (← find config caller className f options)
  | .count => do return .count (← count config caller className f)
  | .updateMany ops => do return .count (← updateMany config caller className f ops)
  | .upsert ops => do return .documents [← upsert config caller className f ops]
  | .delete => do return .count (← delete config caller className f)

section

variable {className : String} {f : Filter} {cache : SchemaCache} {w : World}

/-- **A filter that meets the protection** makes every call fail before it does anything. -/
theorem refused_of_meets (h : ∀ schema, ((Action.schema className).runIn cache w).1.1 = .ok schema →
      MeetsProtection schema caller f) (call : FilteredCall) :
    Refused w ((filtered config caller className f call).runIn cache w) := by
  have hstable := Store.stable_keeps w.store
  cases call with
  | find options =>
    refine .bind (.guarded (.of_schema fun schema hschema => ?_) config) _
    refine .bind (.lift (ensures_reduceRelations_answers hstable schema f))
      fun reduced hreduced => ?_
    obtain ⟨found, hfound, rfl⟩ := hreduced
    refine .bind (Q := fun _ => False) (.outcome fun sel hsel => ?_) nofun
    obtain ⟨plan, hplan, -⟩ := Outcome.bind_eq_ok.1 hsel
    exact (h schema hschema).not_planned hfound hplan
  | count =>
    refine .bind (.guarded (.of_schema fun schema hschema => ?_) config) _
    exact .bind (.lift (ensures_scopedFilter_of_meets hstable _ (h schema hschema))) nofun
  | updateMany ops =>
    refine .bind (.guarded (.bind (.of_schema fun schema hschema => ?_) _) config) _
    exact .bind (.lift (ensures_scopedFilter_of_meets hstable _ (h schema hschema))) nofun
  | upsert ops =>
    refine .bind (.guarded (.bind (.of_schema fun schema hschema => ?_) _) config) _
    refine .bind (Q := fun _ => True) (.outcome fun _ _ => trivial) fun u _ => .guard fun _ => ?_
    exact .bind (.lift (ensures_scopedFilter_of_meets hstable _ (h schema hschema))) nofun
  | delete =>
    refine .bind (.guarded (.bind (.of_schema fun schema hschema => ?_) _) config) _
    exact .bind (.lift (ensures_scopedFilter_of_meets hstable _ (h schema hschema))) nofun

/-- **Any other filter** counts as if nothing were protected. -/
theorem runIn_count_unrestricted (h : ∀ schema,
      ((Action.schema className).runIn cache w).1.1 = .ok schema →
        ¬MeetsProtection schema caller f) :
    (count config caller.unrestricted className f).runIn cache w =
      (count config caller className f).runIn cache w := by
  refine runIn_guarded_congr (runIn_schema_bind_congr fun schema hschema cache' w' => ?_)
  exact runIn_lift_bind_congr (run_scopedFilter_unrestricted (h schema hschema) _) _

theorem runIn_delete_unrestricted (h : ∀ schema,
      ((Action.schema className).runIn cache w).1.1 = .ok schema →
        ¬MeetsProtection schema caller f) :
    (delete config caller.unrestricted className f).runIn cache w =
      (delete config caller className f).runIn cache w := by
  refine runIn_guarded_congr (runIn_bind_congr ?_ _)
  refine runIn_schema_bind_congr fun schema hschema cache' w' => ?_
  exact runIn_lift_bind_congr (run_scopedFilter_unrestricted (h schema hschema) _) _

end

/-- **Filters and protected fields.** A filter that meets the protection of the caller makes each
of the five calls fail, and changes nothing. Any other filter is planned as if nothing were
protected, so it counts and deletes what it does for a caller from whom nothing is. -/
theorem filtered_on_protected (config : Config) (caller : Caller) (className : String)
    (f : Filter) (cache : SchemaCache) (w : World) :
    ((∀ schema, ((Action.schema className).runIn cache w).1.1 = .ok schema →
        MeetsProtection schema caller f) →
      ∀ call, Refused w ((filtered config caller className f call).runIn cache w)) ∧
    ((∀ schema, ((Action.schema className).runIn cache w).1.1 = .ok schema →
        ¬MeetsProtection schema caller f) →
      (count config caller.unrestricted className f).runIn cache w =
          (count config caller className f).runIn cache w ∧
        (delete config caller.unrestricted className f).runIn cache w =
          (delete config caller className f).runIn cache w ∧
        ∀ schema, ((Action.schema className).runIn cache w).1.1 = .ok schema →
          ∀ schema' v, (planned config caller.unrestricted schema schema' f).run.run v =
            (planned config caller schema schema' f).run.run v) :=
  ⟨refused_of_meets, fun h => ⟨runIn_count_unrestricted h, runIn_delete_unrestricted h,
    fun schema hschema schema' v => run_planned_unrestricted (h schema hschema) schema' v⟩⟩

/-- The user `alice`, from whom the relation `rel` is protected. -/
def restricted : Caller := { principal := some ⟨"alice", []⟩, protectedFields := ["rel"] }

/-- The objects related to one object. -/
def relatedToOne : Filter := .field "rel" (.relationContains ⟨"T", "t"⟩)

/-- The objects with a name, and those whose relation has a member. -/
def namedOrRelated : Filter :=
  .or [.field "name" (.isPresent true), .field "rel.owner" (.isPresent true)]

theorem filtered_on_protected_handedOver :
    (∀ call, Refused handedOver
        ((filtered {} restricted "N" namedOrRelated call).runIn { ttlMs := 5000 } handedOver)) ∧
      (count {} restricted.unrestricted "N" relatedToOne).runIn { ttlMs := 5000 } handedOver =
        (count {} restricted "N" relatedToOne).runIn { ttlMs := 5000 } handedOver := by
  refine ⟨(filtered_on_protected {} restricted "N" namedOrRelated _ _).1 fun schema _ => ?_,
    ((filtered_on_protected {} restricted "N" relatedToOne _ _).2 fun schema hschema hmeets =>
      ?_).1⟩
  · exact meetsProtection_iff.2 (.inl ⟨_, List.mem_cons_of_mem _ List.mem_cons_self,
      ⟨"rel", by decide, by decide⟩, rfl⟩)
  · -- the class declares the relation, so the constraint is one on `objectId`
    have hlooked : ((Action.schema "N").runIn { ttlMs := 5000 } handedOver).1.1.toOption.map
        (isLookedUp · relatedToOne) = some true := by decide +kernel
    rw [hschema] at hlooked
    obtain ⟨c, hc, -, hnot⟩ | ⟨hid, -⟩ := meetsProtection_iff.1 hmeets
    · obtain rfl := List.mem_singleton.1 hc
      exact Bool.false_ne_true (hnot.symm.trans (Option.some.inj hlooked))
    · exact absurd hid (by decide)

/-- **A protected relation can be filtered on**: `alice` counts the objects related to one object
by a relation that is protected from her. -/
theorem not_refused_handedOver :
    ¬∀ (caller : Caller) (f : Filter) (call : FilteredCall) (cache : SchemaCache) (w : World),
      caller.privileged = false → (∃ c ∈ f.constraints, c.OnProtected caller) →
        Refused w ((filtered {} caller "N" f call).runIn cache w) := by
  intro h
  have hrefused := h restricted relatedToOne .count { ttlMs := 5000 } handedOver rfl
    ⟨_, List.mem_singleton.2 rfl, "rel", by decide, by decide⟩
  have hcounted : ((filtered {} restricted "N" relatedToOne .count).runIn { ttlMs := 5000 }
      handedOver).1.1.toOption.isSome = true := by decide +kernel
  obtain ⟨answer, hanswer⟩ := Option.isSome_iff_exists.1 hcounted
  exact hrefused.fails answer (Outcome.toOption_eq_some.1 hanswer)

end Engine

end ObjectEngine
