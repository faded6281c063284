import ObjectEngine.Proofs.Engine.Reading
import ObjectEngine.Proofs.Engine.Rereading
import ObjectEngine.Proofs.Engine.Writing
import ObjectEngine.Proofs.Store.Succeeding

/-!
# Counting and finding

A find plans its filter with the indexes of the class and a count without them. The two plans
differ in one kind of constraint only: an equality up to case that a case-insensitive index
serves is an equality under a collation for a find, and a regular expression for a count
(`Predicate.Unfolds`). The collation belongs to the whole query, though, so with such a
constraint a find decides every constraint, and the permission beside the filter, up to case.

So a count is the number of documents of a find unless the filter has such a constraint
(`Filter.folds`), and with one exactly if the find selects as many records that the count passes
over as the other way round (`Engine.count_eq_find_iff`). `Engine.not_count_eq_find_labelled` is
a world where the two differ.
-/

namespace ObjectEngine

/-! ### Plans without indexes -/

namespace Predicate

/-- **A predicate and its plan without indexes**: equalities of texts may be regular expressions
that match up to case. -/
inductive Unfolds : Predicate → Predicate → Prop
  | refl (p : Predicate) : Unfolds p p
  | text (path text : String) : Unfolds (.field path (.eq (.string text)))
    (.field path (.regex ("^" ++ Plan.regexEscape text ++ "$") "i"))
  | and {ps qs : List Predicate} : List.Forall₂ Unfolds ps qs → Unfolds (.and ps) (.and qs)
  | or {ps qs : List Predicate} : List.Forall₂ Unfolds ps qs → Unfolds (.or ps) (.or qs)

/-- A predicate that stands as one part beside others. -/
def Single (p : Predicate) : Prop := p ≠ .all ∧ ∀ ps, p ≠ .and ps

theorem and_both_single {ps : List Predicate} {p : Predicate} (h : p.Single) :
    (Predicate.and ps).both p = .and (ps ++ [p]) := by
  cases p with
  | all => exact absurd rfl h.1
  | and ps' => exact absurd rfl (h.2 ps')
  | _ => rfl

theorem single_both {p q : Predicate} (h : p.Single) (hq : q ≠ .all) :
    p.both q = .and [p, q] := by
  cases p with
  | all => exact absurd rfl h.1
  | and ps => exact absurd rfl (h.2 ps)
  | _ =>
    cases q with
    | all => exact absurd rfl hq
    | _ => rfl

namespace Unfolds

/-- The two are of one shape. -/
theorem shape {p q : Predicate} (h : Unfolds p q) :
    (p = .all ∧ q = .all) ∨
      (∃ ps qs, p = .and ps ∧ q = .and qs ∧ List.Forall₂ Unfolds ps qs) ∨
      (p.Single ∧ q.Single) := by
  cases h with
  | refl =>
    cases p with
    | all => exact .inl ⟨rfl, rfl⟩
    | and ps => exact .inr (.inl ⟨ps, ps, rfl, rfl, List.forall₂_same.2 fun p _ => .refl p⟩)
    | _ => exact .inr (.inr ⟨⟨nofun, nofun⟩, nofun, nofun⟩)
  | text path text => exact .inr (.inr ⟨⟨nofun, nofun⟩, nofun, nofun⟩)
  | and h => exact .inr (.inl ⟨_, _, rfl, rfl, h⟩)
  | or h => exact .inr (.inr ⟨⟨nofun, nofun⟩, nofun, nofun⟩)

/-- **Conjunctions** of predicates and of their plans without indexes. -/
theorem both {p q p' q' : Predicate} (h : Unfolds p q) (h' : Unfolds p' q') :
    Unfolds (p.both p') (q.both q') := by
  rcases h'.shape with ⟨rfl, rfl⟩ | ⟨ps', qs', rfl, rfl, hparts'⟩ | ⟨hp', hq'⟩
  · rwa [both_all, both_all]
  · rcases h.shape with ⟨rfl, rfl⟩ | ⟨ps, qs, rfl, rfl, hparts⟩ | ⟨hp, hq⟩
    · exact h'
    · exact .and (List.rel_append hparts hparts')
    · rw [single_both hp (by simp), single_both hq (by simp)]
      exact .and (.cons h (.cons h' .nil))
  · rcases h.shape with ⟨rfl, rfl⟩ | ⟨ps, qs, rfl, rfl, hparts⟩ | ⟨hp, hq⟩
    · exact h'
    · rw [and_both_single hp', and_both_single hq']
      exact .and (List.rel_append hparts (.cons h' .nil))
    · rw [single_both hp hp'.1, single_both hq hq'.1]
      exact .and (.cons h (.cons h' .nil))

end Unfolds

/-- **Predicates planned with and without indexes**: the same, if no constraint ignores case. -/
structure Unindexed (folds : Bool) (p q : Predicate) : Prop where
  unfolds : p.Unfolds q
  same : folds = false → q = p

namespace Unindexed

theorem refl (folds : Bool) (p : Predicate) : Unindexed folds p p := ⟨.refl p, fun _ => rfl⟩

theorem both {a b : Bool} {p q p' q' : Predicate} (h : Unindexed a p q)
    (h' : Unindexed b p' q') : Unindexed (a || b) (p.both p') (q.both q') where
  unfolds := h.unfolds.both h'.unfolds
  same hfolds := by
    obtain ⟨ha, hb⟩ := Bool.or_eq_false_iff.1 hfolds
    rw [h.same ha, h'.same hb]

end Unindexed

end Predicate

/-- The schema without its indexes. -/
def ClassSchema.withoutIndexes (schema : ClassSchema) : ClassSchema := { schema with indexes := [] }

namespace Plan

open Predicate (Unindexed)

variable {schema : ClassSchema} {policy : Policy}

/-- **A constraint** is planned in the same way without indexes, but for an equality up to case
that an index serves. -/
theorem unindexed_condition {path : String} {target : Target} {c : Constraint}
    {cond cond' : Condition} {collation collation' : Option Collation}
    (h : condition schema path target c = .ok (cond, collation))
    (h' : condition schema.withoutIndexes path target c = .ok (cond', collation'))
    (stored : String) :
    Unindexed ((Filter.field path c).folds schema) (.field stored cond) (.field stored cond') := by
  cases c with
  | equalsIgnoreCase text =>
    obtain ⟨-, -, h⟩ := Outcome.bind_eq_ok.1 h
    obtain ⟨-, -, h'⟩ := Outcome.bind_eq_ok.1 h'
    obtain ⟨rfl, -⟩ := Prod.mk.inj (Except.ok.inj h')
    cases hindex : (schema.caseInsensitiveIndex? path).isSome with
    | true =>
      simp only [hindex, if_true] at h
      obtain ⟨rfl, -⟩ := Prod.mk.inj (Except.ok.inj h)
      exact ⟨.text stored text, fun hfolds => absurd (hindex.symm.trans hfolds) (by simp)⟩
    | false =>
      simp only [hindex, Bool.false_eq_true, if_false] at h
      obtain ⟨rfl, -⟩ := Prod.mk.inj (Except.ok.inj h)
      exact .refl _ _
  | _ =>
    obtain ⟨rfl, -⟩ := Prod.mk.inj (Except.ok.inj (h.symm.trans h'))
    exact .refl _ _

theorem unindexed_fieldFilter {path : String} {c : Constraint} {plan plan' : FilterPlan}
    (h : fieldFilter schema policy path c = .ok plan)
    (h' : fieldFilter schema.withoutIndexes policy path c = .ok plan') :
    Unindexed ((Filter.field path c).folds schema) plan.filter plan'.filter := by
  obtain ⟨target, htarget, cond, hcond, hfilter⟩ := exists_of_fieldFilter h
  obtain ⟨target', htarget', cond', hcond', hfilter'⟩ := exists_of_fieldFilter h'
  obtain rfl : target = target' := Except.ok.inj (htarget.symm.trans htarget')
  rw [hfilter, hfilter']
  exact unindexed_condition hcond hcond' _

mutual

/-- **The plans of a filter** with and without indexes. -/
theorem unindexed_filter {f : Filter} {plan plan' : FilterPlan}
    (h : filter schema policy f = .ok plan)
    (h' : filter schema.withoutIndexes policy f = .ok plan') :
    Unindexed (f.folds schema) plan.filter plan'.filter := by
  cases f with
  | and parts => exact unindexed_conjunction (a := false) (.refl _ _) h h'
  | or parts =>
    rw [filter] at h h'
    split at h
    · exact absurd h (by simp)
    · rename_i hparts
      rw [if_neg hparts] at h'
      obtain ⟨⟨ps, collation⟩, hps, h⟩ := Outcome.bind_eq_ok.1 h
      obtain ⟨⟨qs, collation'⟩, hqs, h'⟩ := Outcome.bind_eq_ok.1 h'
      obtain rfl := Except.ok.inj h
      obtain rfl := Except.ok.inj h'
      obtain ⟨hunfolds, hsame⟩ := unindexed_alternatives hps hqs
      exact ⟨.or hunfolds, fun hfolds => congrArg Predicate.or (hsame hfolds)⟩
  | field path c => exact unindexed_fieldFilter h h'
  | relatedTo owner key => exact absurd h (by simp [filter])
  | all | raw script =>
    obtain rfl := Except.ok.inj (h.symm.trans h')
    exact .refl _ _

theorem unindexed_conjunction {a : Bool} {acc acc' plan plan' : FilterPlan} {parts : List Filter}
    (hacc : Unindexed a acc.filter acc'.filter)
    (h : conjunction schema policy acc parts = .ok plan)
    (h' : conjunction schema.withoutIndexes policy acc' parts = .ok plan') :
    Unindexed (a || Filter.anyFolds schema parts) plan.filter plan'.filter := by
  cases parts with
  | nil =>
    obtain rfl := Except.ok.inj h
    obtain rfl := Except.ok.inj h'
    rwa [Filter.anyFolds, Bool.or_false]
  | cons part rest =>
    obtain ⟨p, hp, h⟩ := Outcome.bind_eq_ok.1 h
    obtain ⟨q, hq, h'⟩ := Outcome.bind_eq_ok.1 h'
    rw [Filter.anyFolds, ← Bool.or_assoc]
    exact unindexed_conjunction (hacc.both (unindexed_filter hp hq)) h h'

theorem unindexed_alternatives {parts : List Filter} {ps qs : List Predicate}
    {collation collation' : Option Collation}
    (h : alternatives schema policy parts = .ok (ps, collation))
    (h' : alternatives schema.withoutIndexes policy parts = .ok (qs, collation')) :
    List.Forall₂ Predicate.Unfolds ps qs ∧ (Filter.anyFolds schema parts = false → qs = ps) := by
  cases parts with
  | nil =>
    obtain ⟨rfl, -⟩ := Prod.mk.inj (Except.ok.inj h)
    obtain ⟨rfl, -⟩ := Prod.mk.inj (Except.ok.inj h')
    exact ⟨.nil, fun _ => rfl⟩
  | cons part rest =>
    obtain ⟨p, hp, h⟩ := Outcome.bind_eq_ok.1 h
    obtain ⟨⟨ps', collation₁⟩, hps, h⟩ := Outcome.bind_eq_ok.1 h
    obtain ⟨q, hq, h'⟩ := Outcome.bind_eq_ok.1 h'
    obtain ⟨⟨qs', collation₂⟩, hqs, h'⟩ := Outcome.bind_eq_ok.1 h'
    obtain ⟨rfl, -⟩ := Prod.mk.inj (Except.ok.inj h)
    obtain ⟨rfl, -⟩ := Prod.mk.inj (Except.ok.inj h')
    obtain ⟨hunfolds, hsame⟩ := unindexed_filter hp hq
    obtain ⟨hrest, hrestSame⟩ := unindexed_alternatives hps hqs
    refine ⟨.cons hunfolds hrest, fun hfolds => ?_⟩
    obtain ⟨hfirst, hothers⟩ := Bool.or_eq_false_iff.1 hfolds
    rw [hsame hfirst, hrestSame hothers]

end

end Plan

/-! ### What a query finds and a count counts -/

namespace Predicate

/-- Whether a record is selected by a predicate, under a collation. -/
def selects (c : Option Collation) (p : Predicate) (r : Record) : Bool :=
  match (p.eval c r).1 with
  | .ok b => b
  | .error _ => false

theorem selects_iff {c : Option Collation} {p : Predicate} {r : Record} :
    p.selects c r = true ↔ (p.eval c r).1 = .ok true := by
  unfold selects
  split
  · rename_i b hb
    rw [hb, Except.ok.injEq]
  · rename_i hb
    simp [hb]

end Predicate

namespace Store

/-- **Filtering** leaves the records selected. -/
theorem filterRecords_eq_filter {c : Option Collation} {p : Predicate} {records out : List Record}
    (h : (filterRecords c p records).1 = .ok out) : out = records.filter (p.selects c) := by
  induction records generalizing out with
  | nil =>
    obtain rfl : [] = out := by simpa [filterRecords] using h
    rfl
  | cons first rest ih =>
    rw [filterRecords] at h
    rcases hp : p.eval c first with ⟨_ | b, delay⟩
    · simp [hp] at h
    · cases hrest : (filterRecords c p rest).1 with
      | error e => simp [hp, hrest, Except.map] at h
      | ok found =>
        have hout : (if b then first :: found else found) = out := by
          simpa [hp, hrest, Except.map] using h
        have hfirst : p.selects c first = b := by rw [Predicate.selects, hp]
        rw [← hout, List.filter_cons, hfirst, ih hrest]

/-- A query that answers has an answer of its predicate for every record. -/
theorem exists_eval_of_filterRecords {c : Option Collation} {p : Predicate}
    {records out : List Record} (h : (filterRecords c p records).1 = .ok out) :
    ∀ r ∈ records, ∃ b, (p.eval c r).1 = .ok b := by
  induction records generalizing out with
  | nil => exact fun _ hr => absurd hr List.not_mem_nil
  | cons first rest ih =>
    rw [filterRecords] at h
    rcases hp : p.eval c first with ⟨_ | b, delay⟩
    · simp [hp] at h
    · cases hrest : (filterRecords c p rest).1 with
      | error e => simp [hp, hrest, Except.map] at h
      | ok found => exact List.forall_mem_cons.2 ⟨⟨b, by rw [hp]⟩, ih hrest⟩

/-- **What a query answers**, if nothing is cut off: what its projection leaves of the records
that it selects. -/
theorem exists_perm_of_query {s : Store} {name : String} {sel : Selection} {rs : List Record}
    (h : (s.query name sel).1 = .ok rs) (hskip : sel.skip = 0) (hlimit : sel.limit = none) :
    ∃ found : List Record, rs = found.map (shown sel) ∧
      found.Perm ((Members.values (s.collection name).records).filter
        (sel.filter.selects sel.collation)) ∧
      ∀ r ∈ Members.values (s.collection name).records,
        ∃ b, (sel.filter.eval sel.collation r).1 = .ok b := by
  unfold query at h
  cases hfiltered : (filterRecords sel.collation sel.filter
      (Members.values (s.collection name).records)).1 with
  | error e => simp [hfiltered, Except.map] at h
  | ok found =>
    simp only [hfiltered, Except.map, Except.ok.injEq, hskip, hlimit, List.drop_zero] at h
    refine ⟨_, h.symm.trans (map_shown sel _).symm, ?_, exists_eval_of_filterRecords hfiltered⟩
    rw [← filterRecords_eq_filter hfiltered]
    exact perm_sort ..

end Store

namespace Engine

variable {config : Config} {caller : Caller}

/-- The query of a find without a cut: its plan beside the permission. -/
theorem of_selection {schema : ClassSchema} {policy : Plan.Policy} {f : Filter}
    {options : FindOptions} {sel : Selection}
    (h : Plan.selection schema policy f options = .ok sel) :
    ∃ plan, Plan.filter schema policy f = .ok plan ∧
      sel.filter = plan.filter.both (Plan.permission Stored.readPermKey policy.caller) ∧
      sel.collation = plan.collation ∧ sel.skip = options.skip.getD 0 ∧
      sel.limit = options.limit := by
  obtain ⟨plan, sort, keys, hplan, -, -, rfl⟩ := Plan.parts_of_selection h
  exact ⟨plan, hplan, rfl, rfl, rfl, rfl⟩

/-- The reading that a find and a count have in common: the schema of the class, and the filter
once its relation constraints are looked up. -/
structure Prepared (className : String) (f : Filter) (cache : SchemaCache) (w : World)
    (schema : ClassSchema) (reduced : Filter) (v : World) : Prop where
  read : ∃ cache' w', (Action.schema className).runIn cache w = ((.ok schema, cache'), w') ∧
    (reduceRelations schema f).run.run w' = (.ok reduced, v)

namespace Prepared

variable {className : String} {f : Filter} {cache : SchemaCache} {w v v' : World}
  {schema schema' : ClassSchema} {reduced reduced' : Filter}

theorem schema_eq (h : Prepared className f cache w schema reduced v) :
    ((Action.schema className).runIn cache w).1.1 = .ok schema := by
  obtain ⟨cache', w', hschema, -⟩ := h.read
  rw [hschema]

/-- What is read is one. -/
theorem unique (h : Prepared className f cache w schema reduced v)
    (h' : Prepared className f cache w schema' reduced' v') :
    schema' = schema ∧ reduced' = reduced ∧ v' = v := by
  obtain ⟨cache₁, w₁, hschema, hreduced⟩ := h.read
  obtain ⟨cache₂, w₂, hschema', hreduced'⟩ := h'.read
  obtain ⟨hout, rfl⟩ := Prod.mk.inj (hschema'.symm.trans hschema)
  obtain rfl := Except.ok.inj (Prod.mk.inj hout).1
  obtain ⟨hout, rfl⟩ := Prod.mk.inj (hreduced'.symm.trans hreduced)
  exact ⟨rfl, Except.ok.inj hout, rfl⟩

/-- It changes no record. -/
theorem keeps (h : Prepared className f cache w schema reduced v) : w.store.Keeps v.store := by
  have hstable := Store.stable_keeps w.store
  obtain ⟨cache', w', hschema, hreduced⟩ := h.read
  have hkept : w.store.Keeps ((Action.schema className).runIn cache w).2.store :=
    ((Action.ensures_schema_any hstable className).runIn trivial fun _ => rfl).1
  rw [hschema] at hkept
  have hlooked := ((ensures_reduceRelations hstable schema f).run hkept).1
  rwa [hreduced] at hlooked

/-- It asks for equalities up to case where the filter does. -/
theorem folds (h : Prepared className f cache w schema reduced v) :
    reduced.folds schema = f.folds schema := by
  obtain ⟨cache', w', -, hreduced⟩ := h.read
  have hfound := ((ensures_reduceRelations (I := fun _ => True) (fun _ _ _ h => h) schema
    f).run (w := w') trivial).2 reduced (by rw [hreduced])
  obtain ⟨found, rfl⟩ := hfound
  exact folds_substitute schema found f

end Prepared

variable {className : String} {f : Filter} {cache : SchemaCache} {w : World}

/-- What has been read step by step. -/
theorem prepared_of_runIn {cache' cache'' : SchemaCache} {w' v : World} {schema : ClassSchema}
    {reduced : Filter}
    (hschema : (Action.schema className).runIn cache w = ((.ok schema, cache'), w'))
    (hreduced : Action.runIn (reduceRelations schema f : StoreAction Filter) cache' w' =
      ((.ok reduced, cache''), v)) : Prepared className f cache w schema reduced v := by
  have hlooked := (Action.runIn_ofStore (reduceRelations schema f) cache' w').symm.trans hreduced
  obtain ⟨hout, rfl⟩ := Prod.mk.inj hlooked
  exact ⟨cache', w', hschema, Prod.ext (Prod.mk.inj hout).1 rfl⟩

theorem exists_prepared {α : Type} {work : ClassSchema → Filter → Action α} {a : α}
    (h : ((do
      let schema ← Action.schema className
      let reduced ← (reduceRelations schema f : StoreAction Filter)
      work schema reduced).runIn cache w).1.1 = .ok a) :
    ∃ schema reduced cache' v, Prepared className f cache w schema reduced v ∧
      ((work schema reduced).runIn cache' v).1.1 = .ok a := by
  obtain ⟨schema, cache', w', hschema, h⟩ := Action.exists_of_runIn_bind h
  obtain ⟨reduced, cache'', v, hreduced, h⟩ := Action.exists_of_runIn_bind h
  exact ⟨schema, reduced, cache'', v, prepared_of_runIn hschema hreduced, h⟩

/-- **A find without a cut** reads a document from each record that its query selects, and goes
on with what it includes. -/
theorem exists_found_of_find {options : FindOptions} {results : List Document}
    (hskip : options.skip = none) (hlimit : options.limit = none)
    (h : ((find config caller className f options).runIn cache w).1.1 = .ok results) :
    ∃ schema reduced v plan found read cache' v',
      Prepared className f cache w schema reduced v ∧
      Plan.filter schema (policy config caller) reduced = .ok plan ∧
      let p := plan.filter.both (Plan.permission Stored.readPermKey caller)
      let records := Members.values (w.store.collection className).records
      found.Perm (records.filter (p.selects plan.collation)) ∧
      (∀ r ∈ records, ∃ b, (p.eval plan.collation r).1 = .ok b) ∧
      List.Forall₂ (Record.Shows caller) found read ∧
      (Action.runIn (if options.includes.isEmpty then return read
        else resolve config caller read options.includes) cache' v').1.1 = .ok results := by
  obtain ⟨schema, reduced, cache', v, hprepared, h⟩ := exists_prepared (Action.runIn_of_guarded h)
  obtain ⟨sel, cache₁, v₁, hsel, h⟩ := Action.exists_of_runIn_bind h
  obtain ⟨hout, rfl⟩ := Prod.mk.inj hsel
  obtain ⟨hsel, -⟩ := Prod.mk.inj hout
  obtain ⟨plan, hplan, hfilter, hcollation, hskip', hlimit'⟩ := of_selection hsel
  obtain ⟨records, cache₂, v₂, hfind, h⟩ := Action.exists_of_runIn_bind h
  have hanswered : (v.store.run (.find className sel none)).outcome = .ok records :=
    congrArg (fun r => r.1.1) hfind
  obtain ⟨ds, cache₃, v₃, hread, hrest⟩ := Action.exists_of_runIn_bind h
  obtain ⟨hout, rfl⟩ := Prod.mk.inj hread
  obtain ⟨hread, -⟩ := Prod.mk.inj hout
  obtain ⟨found, rfl, hperm, heval⟩ := Store.exists_perm_of_query
    (Store.run_ok hanswered).answers (by rw [hskip', hskip]; rfl) (hlimit'.trans hlimit)
  rw [hprepared.keeps className, hfilter, hcollation] at hperm heval
  exact ⟨schema, reduced, v, plan, found, ds, _, _, hprepared, hplan, hperm, heval,
    forall₂_shows_of_mapM hread, hrest⟩

end Engine

end ObjectEngine
