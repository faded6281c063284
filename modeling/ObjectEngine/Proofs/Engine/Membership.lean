import Mathlib.Data.List.Induction
import ObjectEngine.Proofs.Engine.Catalog
import ObjectEngine.Proofs.Engine.Deciding

/-!
# Relation constraints

A relation constraint is looked up before the filter is planned, and the object ids found in the
join collection take its place. So a caller with privilege finds the objects of which the filter
holds, where a relation constraint holds of an object if the join collection links it
(`Store.Takes`, `Engine.find_related`).

What a relation constraint means takes the classes into account as well (`Store.Means`): the object
that a relation holds is one of the class that the relation is to, and the members of a relation
are of that class. A find does not look at them. It still finds all the objects that the filter
means, and no others if every relation constraint names the class of its relation
(`Store.Aims`). `Engine.not_find_means_strange` is a world where it finds another.
-/

namespace ObjectEngine

open Engine (RelationLookup lookupOf? substitute)

/-! ### Links -/

namespace Store

variable {s : Store} {name ownerId relatedId : String}

/-- **A join collection links** an owner to a related object. -/
def Links (s : Store) (name ownerId relatedId : String) : Prop :=
  ∃ edge ∈ Members.values (s.collection name).records,
    edge.string? Join.owningKey = some ownerId ∧ edge.string? Join.relatedKey = some relatedId

/-- A join collection links an owner to some objects, with a related object among them. -/
def LinksAmong (s : Store) (name ownerId relatedId : String) : Prop :=
  ∃ edge ∈ Members.values (s.collection name).records,
    edge.string? Join.owningKey = some ownerId ∧
      ∃ d, edge.lookup Join.relatedKey = some d ∧ d.Names none relatedId

/-- Every record of a join collection has one related object at most. -/
def LinksSingly (s : Store) (name : String) : Prop :=
  ∀ edge ∈ Members.values (s.collection name).records,
    ∀ items, edge.lookup Join.relatedKey ≠ some (.array items)

theorem Links.among (h : s.Links name ownerId relatedId) : s.LinksAmong name ownerId relatedId := by
  obtain ⟨edge, hedge, howner, hrelated⟩ := h
  exact ⟨edge, hedge, howner, _, Record.lookup_of_string? hrelated, rfl⟩

theorem LinksAmong.links (h : s.LinksAmong name ownerId relatedId) (hsingly : s.LinksSingly name) :
    s.Links name ownerId relatedId := by
  obtain ⟨edge, hedge, howner, d, hd, hnames⟩ := h
  refine ⟨edge, hedge, howner, ?_⟩
  rw [Record.string?, hd]
  cases d with
  | string t => exact congrArg some hnames
  | array items => exact absurd hd (hsingly edge hedge items)
  | _ => exact absurd hnames id

/-- **What a query finds**, if it cuts off nothing and shows all: the records selected. -/
theorem mem_of_query {sel : Selection} {rs : List Record} (h : (s.query name sel).1 = .ok rs)
    (hskip : sel.skip = 0) (hlimit : sel.limit = none) (hprojection : sel.projection = none)
    (r : Record) :
    r ∈ rs ↔ r ∈ Members.values (s.collection name).records ∧
      (sel.filter.eval sel.collation r).1 = .ok true := by
  obtain ⟨found, rfl, hperm, -⟩ := exists_perm_of_query h hskip hlimit
  rw [map_shown, hprojection, hperm.mem_iff, List.mem_filter, Predicate.selects_iff]

end Store

namespace Join

variable {s₀ : Store}

/-- **The related ids of an owner**, gathered edge by edge. -/
theorem mem_linksOf {edges : List Record} {owner related : String} :
    related ∈ ((linksOf edges).lookup owner).getD [] ↔
      ∃ edge ∈ edges, edge.string? owningKey = some owner ∧
        edge.string? relatedKey = some related := by
  induction edges using List.reverseRecOn with
  | nil => simp [linksOf]
  | append_singleton rest edge ih =>
    unfold linksOf at ih ⊢
    rw [List.foldl_append]
    simp only [List.foldl_cons, List.foldl_nil, List.mem_append, List.mem_singleton, or_and_right,
      exists_or, exists_eq_left, ← ih]
    cases howner : edge.string? owningKey with
    | none => simp
    | some a =>
      cases hrelated : edge.string? relatedKey with
      | none => simp
      | some b =>
        -- the edge adds its related id to those of its owner
        simp only [Members.lookup_insert, Option.some.injEq]
        by_cases ha : owner = a
        · subst ha
          simp [eq_comm]
        · simp [ha, Ne.symm ha]

/-- **The owners** whose relation holds an object. -/
theorem ensures_mem_ownersOf (className field relatedId : String) :
    (ownersOf className field relatedId).Ensures s₀.Keeps fun ids =>
      ∀ id, id ∈ ids ↔ s₀.LinksAmong (collection field className) id relatedId := by
  refine .bind (StoreAction.ensures_find (Store.stable_keeps s₀) _ _ _)
    fun (edges : List Record) hedges => ?_
  obtain ⟨s, hs, hquery⟩ := hedges
  refine .pure fun id => ?_
  rw [List.mem_filterMap]
  simp only [Store.mem_of_query hquery rfl rfl rfl, hs (collection field className),
    Predicate.eval_key_eq (show Text.split '.' relatedKey = [relatedKey] from rfl), and_assoc,
    Store.LinksAmong]
  exact exists_congr fun edge => and_congr_right fun _ => and_comm

/-- **The members** of the relation of an owner. -/
theorem ensures_mem_relatedIds (className field ownerId : String) :
    (relatedIds className field [ownerId]).Ensures s₀.Keeps fun links =>
      ∀ id, id ∈ (links.lookup ownerId).getD [] ↔
        s₀.Links (collection field className) ownerId id := by
  refine .bind (StoreAction.ensures_find (Store.stable_keeps s₀) _ _ _)
    fun (edges : List Record) hedges => ?_
  obtain ⟨s, hs, hquery⟩ := hedges
  refine .pure fun id => ?_
  rw [mem_linksOf]
  refine exists_congr fun edge => ?_
  rw [Store.mem_of_query hquery rfl rfl rfl, hs (collection field className), and_assoc]
  refine and_congr_right fun _ => and_iff_right_of_imp fun hlinked => ?_
  -- an edge of the owner is one that the query selects
  exact (Predicate.eval_key_isIn (show Text.split '.' owningKey = [owningKey] from rfl)).2
    ⟨_, Record.lookup_of_string? hlinked.1, ownerId, List.mem_cons_self, rfl⟩

end Join

/-! ### What is looked up -/

/-- **What a look-up finds**: the objects whose relation holds an object, or the members of a
relation of one. -/
def Store.Related (s : Store) (className : String) : RelationLookup → String → Prop
  | .containing field relatedId, id => s.LinksAmong (Join.collection field className) id relatedId
  | .members owner key, id => s.Links (Join.collection key owner.className) owner.objectId id

namespace Engine

variable {s₀ : Store} {schema : ClassSchema}

theorem ensures_mem_lookUp (className : String) (l : RelationLookup) :
    (lookUp className l).Ensures s₀.Keeps fun ids =>
      ∀ id, id ∈ ids ↔ s₀.Related className l id := by
  cases l with
  | containing field relatedId => exact Join.ensures_mem_ownersOf _ _ _
  | members owner key =>
    exact .bind (Join.ensures_mem_relatedIds _ _ _) fun _ hlinks => .pure hlinks

/-- **The look-ups of a filter** find what they are for. -/
theorem ensures_mem_reduceRelations (f : Filter) :
    (reduceRelations schema f).Ensures s₀.Keeps fun reduced => ∃ found,
      reduced = substitute found f ∧ ∀ k ids, found.lookup k = some ids →
        ∀ id, id ∈ ids ↔ s₀.Related schema.className k id := by
  refine .bind (Q := fun found : List (RelationLookup × List String) => ∀ p ∈ found,
    ∀ id, id ∈ p.2 ↔ s₀.Related schema.className p.1 id) ?_ fun found hfound => .pure ⟨found, rfl,
      fun k ids hids => ?_⟩
  · refine (StoreAction.judgement s₀.Keeps).mapM fun l _ => ?_
    exact .bind (ensures_mem_lookUp schema.className l) fun ids hids => .pure hids
  · obtain ⟨before, after, rfl, -⟩ := List.lookup_eq_some_iff.1 hids
    exact hfound _ (List.mem_append_right _ List.mem_cons_self)

end Engine

/-! ### What constraints hold of -/

namespace Store

/-- **What a find takes a constraint to say** of the record of an object: a relation constraint
speaks of the links of the object, and any other is evaluated as it is planned. -/
def Takes (s : Store) (schema : ClassSchema) (policy : Plan.Policy) (c : Option Collation)
    (r : Record) (id : String) (l : Filter) : Prop :=
  match lookupOf? l with
  | some k => ∃ id', Collation.fold c id' = Collation.fold c id ∧ s.Related schema.className k id'
  | none => ∃ plan, Plan.filter schema policy l = .ok plan ∧ (plan.filter.eval c r).1 = .ok true

/-- A relation of the class `owner` is to the class `target`. -/
def Relates (s : Store) (owner key target : String) : Prop :=
  ∃ schema, Catalog.recorded s owner = .ok (some schema) ∧
    schema.fieldType? key = some (.relation target)

/-- **What a constraint means**: a relation constraint speaks of links between objects of the
classes that the relation relates, and any other is evaluated as it is planned without indexes. -/
def Means (s : Store) (schema : ClassSchema) (policy : Plan.Policy) (r : Record) (id : String) :
    Filter → Prop
  | .field path (.relationContains p) =>
    schema.fieldType? path = some (.relation p.className) ∧
      s.Links (Join.collection path schema.className) id p.objectId
  | .relatedTo owner key =>
    s.Relates owner.className key schema.className ∧
      s.Links (Join.collection key owner.className) owner.objectId id
  | l => ∃ plan, Plan.filter schema.withoutIndexes policy l = .ok plan ∧
      (plan.filter.eval none r).1 = .ok true

/-- **A constraint that names the right class**: a relation constraint is about objects of the
classes that the relation relates. -/
def Aims (s : Store) (schema : ClassSchema) : Filter → Prop
  | .field path (.relationContains p) =>
    schema.fieldType? path = some (.relation p.className) ∧
      s.LinksSingly (Join.collection path schema.className)
  | .relatedTo owner key => s.Relates owner.className key schema.className
  | _ => True

variable {s : Store} {schema : ClassSchema} {policy : Plan.Policy} {r : Record} {id : String}
  {l : Filter}

/-- **What a constraint means** it is taken to say. -/
theorem Means.takes (h : s.Means schema policy r id l) (hl : l.isConstraint = true)
    (hfolds : l.folds schema = false) : s.Takes schema policy none r id l := by
  have hplan : Plan.filter schema.withoutIndexes policy l = Plan.filter schema policy l :=
    Plan.filter_withoutIndexes hl hfolds
  unfold Means at h
  split at h
  · exact ⟨id, rfl, h.2.among⟩
  · exact ⟨id, rfl, h.2⟩
  · rename_i hfield hrelated
    rw [hplan] at h
    unfold Takes lookupOf?
    split
    · rename_i k hk
      split at hk
      · exact absurd rfl (hfield _ _)
      · exact absurd rfl (hrelated _ _)
      · exact absurd hk (by simp)
    · exact h

/-- **What a constraint that names the right class is taken to say** it means. -/
theorem Takes.means (h : s.Takes schema policy none r id l) (hl : l.isConstraint = true)
    (hfolds : l.folds schema = false) (haims : s.Aims schema l) : s.Means schema policy r id l := by
  have hplan : Plan.filter schema.withoutIndexes policy l = Plan.filter schema policy l :=
    Plan.filter_withoutIndexes hl hfolds
  unfold Aims at haims
  split at haims
  · obtain ⟨id', rfl, hlinks⟩ := h
    exact ⟨haims.1, hlinks.links haims.2⟩
  · obtain ⟨id', rfl, hlinks⟩ := h
    exact ⟨haims, hlinks⟩
  · rename_i hfield hrelated
    unfold Means
    split
    · exact absurd rfl (hfield _ _)
    · exact absurd rfl (hrelated _ _)
    · rw [hplan]
      unfold Takes lookupOf? at h
      split at h
      · rename_i k hk
        split at hk
        · exact absurd rfl (hfield _ _)
        · exact absurd rfl (hrelated _ _)
        · exact absurd hk (by simp)
      · exact h

end Store

namespace Plan

variable {s : Store} {schema : ClassSchema} {policy : Policy} {c : Option Collation}
  {r : Record} {id : String}

/-- The plan of a choice of object ids. -/
theorem filter_of_objectIds {ids : List String} {plan : FilterPlan}
    (h : filter schema policy (.field "objectId" (.isIn (ids.map .string))) = .ok plan) :
    plan.filter = .field Record.idKey (.isIn (ids.map .string)) := by
  obtain ⟨target, -, cond, hcond, hfilter⟩ := exists_of_fieldFilter h
  obtain ⟨ds, hds, hok⟩ := Outcome.bind_eq_ok.1 hcond
  obtain ⟨rfl, -⟩ := Prod.mk.inj (Except.ok.inj hok)
  -- every text is stored as it is, whatever the declared type of the field
  have hoperand (id : String) (d : Datum)
      (hd : operand target "objectId" (.string id) = .ok d) : d = .string id := by
    unfold operand at hd
    split at hd
    case h_5 => exact Stored.eq_of_encode_string (Outcome.inField_eq_ok.1 hd)
    all_goals exact (Except.ok.inj hd).symm
  have hstored : List.Forall₂ Eq (ids.map .string) ds := List.forall₂_map_left_iff.2
    ((List.forall₂_map_left_iff.1 (Outcome.forall₂_of_mapM hds)).imp fun id d hd =>
      (hoperand id d hd).symm)
  rw [List.forall₂_eq_eq_eq] at hstored
  rw [hfilter, ← hstored]
  rfl

/-- **A choice of object ids** decides whether the object is one of them. -/
theorem decides_objectIds (hid : r.id? = some id) (ids : List String) :
    (Predicate.field Record.idKey (.isIn (ids.map .string))).Decides c r
      (∃ id' ∈ ids, Collation.fold c id' = Collation.fold c id) := by
  intro b hb
  rw [Predicate.decides_self _ _ _ b hb,
    Predicate.eval_key_isIn (show Text.split '.' Record.idKey = [Record.idKey] from rfl),
    Record.lookup_of_string? hid]
  simp only [Option.some.injEq, exists_eq_left', Datum.Names]
  exact exists_congr fun _ => and_congr_right fun _ => eq_comm

/-- **The plan of a constraint decides** what a find takes it to say. -/
theorem decides_takes (hid : r.id? = some id) {found : List (RelationLookup × List String)}
    (hfound : ∀ k ids, found.lookup k = some ids →
      ∀ id, id ∈ ids ↔ s.Related schema.className k id)
    {l : Filter} (hl : l.isConstraint = true) :
    DecidesLeaf schema policy c r found (s.Takes schema policy c r id) l := by
  intro plan hplan
  rw [Filter.substitute_of_isConstraint hl] at hplan
  unfold Store.Takes
  cases hk : lookupOf? l with
  | none =>
    rw [hk] at hplan
    intro b hb
    rw [Predicate.decides_self _ _ _ b hb]
    exact ⟨fun h => ⟨plan, hplan, h⟩, fun ⟨plan', hplan', h⟩ =>
      Except.ok.inj (hplan'.symm.trans hplan) ▸ h⟩
  | some k =>
    rw [hk, Option.bind_some] at hplan
    cases hids : found.lookup k with
    | some ids =>
      rw [hids] at hplan
      rw [filter_of_objectIds hplan]
      intro b hb
      rw [decides_objectIds hid ids b hb]
      exact exists_congr fun id' => by rw [hfound k ids hids id', and_comm]
    | none =>
      -- a relation constraint that is not looked up is not planned
      rw [hids] at hplan
      unfold lookupOf? at hk
      split at hk
      · obtain ⟨_, -, _, hcond, -⟩ := exists_of_fieldFilter hplan
        exact absurd hcond (by simp [condition])
      · exact absurd hplan (by simp [filter])
      · exact absurd hk (by simp)

end Plan

/-! ### Finds -/

namespace Engine

variable {config : Config} {caller : Caller} {className : String} {f : Filter}
  {cache : SchemaCache} {w : World}

/-- **Resolved results** are the results, with objects in place of references. -/
theorem ensures_extends_resolve (results : List Document) (paths : List String) :
    (resolve config caller results paths).Ensures (fun _ => True) (fun _ => True)
      (List.Forall₂ Document.Extends results) := by
  have hstable : Store.Stable fun _ => True := fun _ _ _ _ => trivial
  have hobjects (className : String) (ids : List String) :
      Action.Ensures (fun _ => True) (fun _ => True)
        (fun ds : List Document => ∀ d ∈ ds, d.Throughout fun _ => True)
        ((fetcher config caller).objects className ids) := by
    refine .bind (Action.ensures_schema_any hstable className) fun _ _ => ?_
    refine .bind (.lift (StoreAction.ensures_find hstable _ _ _)) fun _ _ => ?_
    exact .outcome fun _ _ _ _ => ⟨trivial, fun _ _ => trivial⟩
  have hlinks (className field : String) (ids : List String) :
      Action.Ensures (fun _ => True) (fun _ => True) (fun _ => True)
        ((fetcher config caller).links className field ids) :=
    .ofStore (Join.ensures_relatedIds hstable.keptByFinds className field ids)
  exact Action.Ensures.mono (fun _ h => h.1) (Includes.resolve_guarantees
    (Action.judgement (fun _ => True) fun _ => True) (fun _ => .throw) (fun _ _ _ _ => trivial)
    hobjects hlinks _ (fun _ _ _ _ => trivial) paths)

/-- The look-ups of a find are those of its store. -/
theorem Prepared.exists_found {schema : ClassSchema} {reduced : Filter} {v : World}
    (h : Prepared className f cache w schema reduced v) :
    ∃ found, reduced = substitute found f ∧ ∀ k ids, found.lookup k = some ids →
      ∀ id, id ∈ ids ↔ w.store.Related schema.className k id := by
  obtain ⟨cache', w', hschema, hreduced⟩ := h.read
  have hkept : w.store.Keeps ((Action.schema className).runIn cache w).2.store :=
    ((Action.ensures_schema_any (Store.stable_keeps w.store) className).runIn trivial
      fun _ => rfl).1
  rw [hschema] at hkept
  exact ((ensures_mem_reduceRelations f).run hkept).2 reduced (by rw [hreduced])

/-- The schema that a find reads from a faithful cache is that of the class. -/
theorem className_of_schema {schema : ClassSchema} (hcache : cache.Faithful)
    (h : ((Action.schema className).runIn cache w).1.1 = .ok schema) :
    schema.className = className :=
  (((Action.ensures_schema (I := fun _ => True) (fun _ _ _ _ => trivial) className).runIn hcache
    trivial).2.2 schema h).1

/-- **What a find of a caller with privilege finds**: the objects of which the filter holds, as a
find takes its constraints. If no constraint ignores case, these are all the objects that the
filter means, and no others if its relation constraints name the right classes. -/
theorem find_related {options : FindOptions} {results : List Document}
    (hcaller : caller.privileged = true) (hskip : options.skip = none)
    (hlimit : options.limit = none)
    (h : ((find config caller className f options).runIn cache w).1.1 = .ok results) :
    ∃ schema found, ∃ p : Record → Bool,
      ((Action.schema className).runIn cache w).1.1 = .ok schema ∧
      (cache.Faithful → schema.className = className) ∧
      List.Forall₂ (Record.Shows caller) found results ∧
      let records := Members.values (w.store.collection className).records
      found.Perm (records.filter p) ∧ ∀ r ∈ records,
        let takes := w.store.Takes schema (policy config caller)
          (Plan.collationOf (f.folds schema)) r
        let means := w.store.Means schema (policy config caller) r
        (p r = true ↔ ∃ id, r.id? = some id ∧ f.Holds (takes id)) ∧
        (f.folds schema = false → (∃ id, r.id? = some id ∧ f.Holds (means id)) → p r = true) ∧
        (f.folds schema = false → (∀ l ∈ f.leaves, w.store.Aims schema l) →
          (p r = true ↔ ∃ id, r.id? = some id ∧ f.Holds (means id))) := by
  obtain ⟨schema, reduced, v, plan, found, read, cache', v', hprepared, hplan, hperm, heval,
    hread, hrest⟩ := exists_found_of_find hskip hlimit h
  have hcollation := Plan.filter_collation hplan
  rw [hprepared.folds] at hcollation
  -- no list of readers binds the caller
  have hpermission : Plan.permission Stored.readPermKey caller = .all := by
    rw [Plan.permission, Caller.subjects?, hcaller]
    rfl
  simp only [hpermission, Predicate.both_all, hcollation] at hperm heval
  have hshown : List.Forall₂ (Record.Shows caller) found results := by
    split at hrest
    · obtain rfl : read = results := Except.ok.inj hrest
      exact hread
    · exact Outcome.forall₂_trans (fun _ _ _ hshows hde => hshows.resolved hde) hread
        (((ensures_extends_resolve read options.includes).runIn trivial trivial).2.2 _ hrest)
  obtain ⟨looked, rfl, hlooked⟩ := hprepared.exists_found
  have hselects (r : Record) (hr : r ∈ Members.values (w.store.collection className).records) :
      plan.filter.selects (Plan.collationOf (f.folds schema)) r = true ↔
        ∃ id, r.id? = some id ∧ f.Holds (w.store.Takes schema (policy config caller)
          (Plan.collationOf (f.folds schema)) r id) := by
    cases hid : r.id? with
    | some id =>
      obtain ⟨b, hb⟩ := heval r hr
      simp only [Option.some.injEq, exists_eq_left']
      exact Predicate.Decides.selects_iff (Plan.decides_filter (fun l hl => Plan.decides_takes hid
        hlooked (Filter.isConstraint_of_mem_leaves hl)) hplan) hb
    | none =>
      -- a record without an id is not read, so the find has not selected it
      simp only [reduceCtorEq, false_and, exists_false, iff_false]
      intro hselected
      have hfound : r ∈ found := hperm.mem_iff.2 (List.mem_filter.2 ⟨hr, hselected⟩)
      obtain ⟨d, -, hshows⟩ := Outcome.exists_of_forall₂ hshown.flip hfound
      exact absurd (hid.symm.trans (Record.Shows.id? hshows)) (by simp)
  refine ⟨schema, found, plan.filter.selects (Plan.collationOf (f.folds schema)),
    hprepared.schema_eq, fun hcache => className_of_schema hcache hprepared.schema_eq, hshown,
    hperm, fun r hr => ⟨hselects r hr, fun hfolds => ?_, fun hfolds haims => ?_⟩⟩
  · rintro ⟨id, hid, hmeans⟩
    rw [hselects r hr, hfolds]
    exact ⟨id, hid, hmeans.mono fun l hl hl' => hl'.takes (Filter.isConstraint_of_mem_leaves hl)
      (Filter.folds_of_mem_leaves hfolds hl)⟩
  · rw [hselects r hr, hfolds]
    refine exists_congr fun id => and_congr_right fun _ => ⟨fun htakes => ?_, fun hmeans => ?_⟩
    · exact htakes.mono fun l hl hl' => hl'.means (Filter.isConstraint_of_mem_leaves hl)
        (Filter.folds_of_mem_leaves hfolds hl) (haims l hl)
    · exact hmeans.mono fun l hl hl' => hl'.takes (Filter.isConstraint_of_mem_leaves hl)
        (Filter.folds_of_mem_leaves hfolds hl)

/-- A world with one object, whose relation to a class holds an object. -/
def linked : World where
  store := { collections := [
    ("N", { records := [("x", [("_id", .string "x")])] }),
    ("_Join:rel:N", { records := [("e", [("_id", .string "e"), ("owningId", .string "x"),
      ("relatedId", .string "t")])] }),
    ("_SCHEMA", { records := [("N", [("_id", .string "N"), ("rel", .string "relation<T>")])] })] }

/-- The objects whose relation holds the object `t` of a class. -/
def holdingT (target : String) : Filter := .field "rel" (.relationContains ⟨target, "t"⟩)

/-- The object is found whatever the class of the object that its relation should hold. -/
theorem find_linked {target : String} (htarget : target = "T" ∨ target = "Other") :
    ∃ d, ((find {} { privileged := true } "N" (holdingT target) {}).runIn { ttlMs := 5000 }
      linked).1.1 = .ok [d] := by
  have hfound : ((find {} { privileged := true } "N" (holdingT target) {}).runIn
      { ttlMs := 5000 } linked).1.1.toOption.map List.length = some 1 := by
    rcases htarget with rfl | rfl <;> decide +kernel
  obtain ⟨ds, hds, hlength⟩ := Option.map_eq_some_iff.1 hfound
  obtain ⟨d, rfl⟩ := List.length_eq_one_iff.1 hlength
  exact ⟨d, Outcome.toOption_eq_some.1 hds⟩

/-- The relation is to the class `T`. -/
theorem fieldType?_linked {schema : ClassSchema}
    (h : ((Action.schema "N").runIn { ttlMs := 5000 } linked).1.1 = .ok schema) :
    schema.fieldType? "rel" = some (.relation "T") := by
  have htype : ((Action.schema "N").runIn { ttlMs := 5000 } linked).1.1.toOption.map
      (fun schema => schema.fieldType? "rel") = some (some (.relation "T")) := by decide +kernel
  rw [h] at htype
  exact Option.some.inj htype

/-- If one object is found, it is selected. -/
theorem selected_linked {p : Record → Bool} {found : List Record} {d : Document} {caller : Caller}
    (hshown : List.Forall₂ (Record.Shows caller) found [d])
    (hperm : found.Perm ((Members.values (linked.store.collection "N").records).filter p)) :
    p [("_id", .string "x")] = true := by
  have hlength := hperm.length_eq.symm.trans hshown.length_eq
  change (List.filter p [[("_id", .string "x")]]).length = 1 at hlength
  by_contra hp
  rw [List.filter_cons_of_neg hp] at hlength
  exact absurd hlength (by simp)

theorem find_related_linked : ∃ d schema,
    ((find {} { privileged := true } "N" (holdingT "T") {}).runIn { ttlMs := 5000 }
      linked).1.1 = .ok [d] ∧
    ((Action.schema "N").runIn { ttlMs := 5000 } linked).1.1 = .ok schema ∧
    (holdingT "T").Holds (linked.store.Means schema (policy {} { privileged := true })
      [("_id", .string "x")] "x") := by
  obtain ⟨d, hfind⟩ := find_linked (.inl rfl)
  obtain ⟨schema, found, p, hschema, hclass, hshown, hperm, hrecords⟩ :=
    find_related rfl rfl rfl hfind
  have hmem : [("_id", Datum.string "x")] ∈
      Members.values (linked.store.collection "N").records := List.mem_cons_self
  have haims : ∀ l ∈ (holdingT "T").leaves, linked.store.Aims schema l := by
    intro l hl
    obtain rfl := List.mem_singleton.1 hl
    refine ⟨fieldType?_linked hschema, fun edge hedge items => ?_⟩
    rw [hclass (SchemaCache.faithful_empty 5000)] at hedge
    obtain rfl := List.mem_singleton.1 (show edge ∈ [[("_id", .string "e"),
      ("owningId", .string "x"), ("relatedId", .string "t")]] from hedge)
    exact fun hitems => absurd (Option.some.inj hitems) (by simp)
  obtain ⟨id, hid, hmeans⟩ :=
    ((hrecords _ hmem).2.2 rfl haims).1 (selected_linked hshown hperm)
  obtain rfl : "x" = id := Option.some.inj hid
  exact ⟨d, schema, hfind, hschema, hmeans⟩

/-- **A find does not always find just what its filter means**: the relation of the object is to
another class than that of the object which it should hold. -/
theorem not_find_means_strange :
    ¬∀ (config : Config) (caller : Caller) (className : String) (f : Filter)
      (options : FindOptions) (cache : SchemaCache) (w : World) (results : List Document),
      caller.privileged = true → options.skip = none → options.limit = none →
      ((find config caller className f options).runIn cache w).1.1 = .ok results →
      ∃ schema found, ∃ p : Record → Bool,
        ((Action.schema className).runIn cache w).1.1 = .ok schema ∧
        List.Forall₂ (Record.Shows caller) found results ∧
        found.Perm ((Members.values (w.store.collection className).records).filter p) ∧
        ∀ r ∈ Members.values (w.store.collection className).records,
          p r = true ↔ ∃ id, r.id? = some id ∧
            f.Holds (w.store.Means schema (policy config caller) r id) := by
  intro h
  obtain ⟨d, hfind⟩ := find_linked (.inr rfl)
  obtain ⟨schema, found, p, hschema, hshown, hperm, hrecords⟩ := h _ _ _ _ _ _ _ _ rfl rfl rfl hfind
  obtain ⟨id, -, htarget, -⟩ := (hrecords _ List.mem_cons_self).1 (selected_linked hshown hperm)
  exact absurd ((fieldType?_linked hschema).symm.trans htarget) (by decide)

end Engine

end ObjectEngine
