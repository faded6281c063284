import ObjectEngine.Proofs.Engine.Protection
import ObjectEngine.Proofs.Engine.Readable

/-!
# What a caller's query is about

A caller without privilege may not see relations and protected fields. The key policy is applied in
three places that know nothing of each other: a filter and an order refuse a hidden field, and a
projection passes over it. Here they come together in one property of the query of a find
(`Plan.Discreet`): it is about the keys of fields that are shown to the caller (`Plan.Shown`), the
permission beside it about the readers. No two declared fields have one key, so the key of a hidden
field is not among them (`Plan.Hidden.not_shown`).

A query reads what it is about and nothing else, so a hidden field has no influence on it
(`Plan.discreet_query`): if records differ only under keys that decide nothing (`Plan.Decisive`), it
finds the same ones in the same order and after the same time. What it returns of a record is
another matter. With a projection it is what is under shown keys and the four that every projection
returns (`Plan.Returned`), without one the whole record.
-/

namespace ObjectEngine

namespace Plan

variable {schema : ClassSchema} {caller : Caller} {policy : Policy}

/-! ### What is shown -/

/-- **A field that is hidden** from a caller: a relation or a protected one. -/
def Hidden (schema : ClassSchema) (caller : Caller) (field : String) : Prop :=
  ∃ ty, schema.fieldType? field = some ty ∧
    (ty.isRelation = true ∨ caller.isProtected field = true)

/-- **A key that is shown** to a caller: it stores a declared field that is not hidden. -/
def Shown (schema : ClassSchema) (caller : Caller) (key : String) : Prop :=
  ∃ field ty, schema.fieldType? field = some ty ∧ ty.isRelation = false ∧
    caller.isProtected field = false ∧ Stored.rootKey schema field = key

/-- **The key of a declared field** says which field it is. -/
theorem fieldOf_rootKey_of_declared (hs : schema.Built) {field : String} {ty : FieldType}
    (h : schema.fieldType? field = some ty) :
    Stored.fieldOf (Stored.rootKey schema field) = field :=
  Stored.fieldOf_rootKey (hs.isIdentifier (Members.mem_of_lookup h))

/-- **The key of a hidden field is not shown**, since no other field has it. -/
theorem Hidden.not_shown (hs : schema.Built) {field : String} (h : Hidden schema caller field) :
    ¬Shown schema caller (Stored.rootKey schema field) := by
  rintro ⟨field', ty', hty', hrelation, hprotected, hkey⟩
  obtain ⟨ty, hty, hhidden⟩ := h
  obtain rfl : field' = field := by
    rw [← fieldOf_rootKey_of_declared hs hty', hkey, fieldOf_rootKey_of_declared hs hty]
  obtain rfl : ty' = ty := Option.some.inj (hty'.symm.trans hty)
  rcases hhidden with h | h
  · exact Bool.false_ne_true (hrelation.symm.trans h)
  · exact Bool.false_ne_true (hprotected.symm.trans h)

/-- A path below a key that is shown. -/
def ShownPath (schema : ClassSchema) (caller : Caller) (path : String) : Prop :=
  Shown schema caller (Text.root path)

/-- **A path that the key policy lets through**, if it is no relation, is stored below a key that
is shown. -/
theorem shownPath_of_resolve (hcaller : caller.privileged = false) {path : String} {target : Target}
    (h : resolve schema caller path = .ok target) (hrelation : target.isRelation = false) :
    ShownPath schema caller (Stored.keyPath schema path) := by
  obtain ⟨ty, hty, htarget⟩ := declared_of_resolve hcaller h
  refine ⟨_, ty, hty, ?_, not_isProtected_of_resolve h, (Stored.root_keyPath ..).symm⟩
  rcases htarget with ⟨rfl, -⟩ | ⟨rfl, -⟩ <;> exact hrelation

/-! ### Filters -/

theorem over_of_fieldFilter (hcaller : policy.caller.privileged = false) {path : String}
    {c : Constraint} {planned : FilterPlan} (h : fieldFilter schema policy path c = .ok planned) :
    planned.filter.Over (ShownPath schema policy.caller) := by
  obtain ⟨target, htarget, cond, -, hfilter⟩ := exists_of_fieldFilter h
  rw [hfilter]
  exact shownPath_of_resolve hcaller htarget (not_isRelation_of_fieldFilter h htarget)

mutual

/-- **A filter that is planned** is over paths below keys that are shown. -/
theorem over_of_filter (hcaller : policy.caller.privileged = false)
    (hscripts : policy.allowScripts = false) {f : Filter} {planned : FilterPlan}
    (h : filter schema policy f = .ok planned) :
    planned.filter.Over (ShownPath schema policy.caller) := by
  cases f with
  | all =>
    obtain rfl := Except.ok.inj h
    trivial
  | and parts =>
    have hall : Predicate.all.Over (ShownPath schema policy.caller) := trivial
    exact over_of_conjunction hcaller hscripts h hall
  | or parts =>
    rw [filter] at h
    split at h
    · exact absurd h (by simp)
    · obtain ⟨out, hparts, h⟩ := Outcome.bind_eq_ok.1 h
      obtain rfl := Except.ok.inj h
      exact overAll_of_alternatives hcaller hscripts hparts
  | field path c => exact over_of_fieldFilter hcaller h
  | relatedTo owner key => exact absurd h (by simp [filter])
  | raw script => exact absurd h (by simp [filter, hcaller, hscripts])

theorem over_of_conjunction (hcaller : policy.caller.privileged = false)
    (hscripts : policy.allowScripts = false) {acc planned : FilterPlan} {parts : List Filter}
    (h : conjunction schema policy acc parts = .ok planned)
    (hacc : acc.filter.Over (ShownPath schema policy.caller)) :
    planned.filter.Over (ShownPath schema policy.caller) := by
  cases parts with
  | nil =>
    obtain rfl := Except.ok.inj h
    exact hacc
  | cons part rest =>
    obtain ⟨p, hp, h⟩ := Outcome.bind_eq_ok.1 h
    exact over_of_conjunction hcaller hscripts h
      (Predicate.over_both.2 ⟨hacc, over_of_filter hcaller hscripts hp⟩)

theorem overAll_of_alternatives (hcaller : policy.caller.privileged = false)
    (hscripts : policy.allowScripts = false) {parts : List Filter}
    {out : List Predicate × Option Collation} (h : alternatives schema policy parts = .ok out) :
    Predicate.OverAll (ShownPath schema policy.caller) out.1 := by
  cases parts with
  | nil =>
    obtain rfl := Except.ok.inj h
    trivial
  | cons part rest =>
    obtain ⟨p, hp, h⟩ := Outcome.bind_eq_ok.1 h
    obtain ⟨out', hrest, h⟩ := Outcome.bind_eq_ok.1 h
    obtain rfl := Except.ok.inj h
    exact ⟨over_of_filter hcaller hscripts hp, overAll_of_alternatives hcaller hscripts hrest⟩

end

/-! ### Orders and projections -/

theorem shownPath_of_sortKey (hcaller : caller.privileged = false) {key : SortKey}
    {stored : String × Int32} (h : sortKey schema caller key = .ok stored) :
    ShownPath schema caller stored.1 := by
  obtain ⟨target, htarget, h⟩ := Outcome.bind_eq_ok.1 h
  obtain ⟨hrelation, h⟩ := Outcome.guard_eq_ok.1 h
  obtain rfl := Except.ok.inj h
  exact shownPath_of_resolve hcaller htarget (by simpa using hrelation)

/-- One field of a projection. -/
theorem shownPath_of_projected (hcaller : caller.privileged = false) {field : String}
    {target : Target} (h : resolve schema caller (Text.root field) = .ok target)
    (hrelation : target.isRelation = false) {out : List String}
    (hout : ∀ key ∈ out, key ∈ projectionBase ∨ ShownPath schema caller key) :
    ∀ key ∈ (if out.contains (Stored.keyPath schema (Text.root field)) then out
        else out ++ [Stored.keyPath schema (Text.root field)]),
      key ∈ projectionBase ∨ ShownPath schema caller key := by
  split
  · exact hout
  · intro key hkey
    rcases List.mem_append.1 hkey with hkey | hkey
    · exact hout key hkey
    · obtain rfl := List.mem_singleton.1 hkey
      exact .inr (shownPath_of_resolve hcaller h hrelation)

/-- **What is projected** is a key that every projection returns, or one that is shown. -/
theorem shownPath_of_projection (hcaller : caller.privileged = false) {fields keys : List String}
    (h : projection schema caller fields = .ok keys) :
    ∀ key ∈ keys, key ∈ projectionBase ∨ ShownPath schema caller key := by
  refine @Outcome.foldlM_induction _ _ _
    (fun out => ∀ key ∈ out, key ∈ projectionBase ∨ ShownPath schema caller key) _ _ _ h
    (fun key hkey => .inl hkey) fun out hout field _ out' hstep => ?_
  simp only at hstep
  split at hstep
  · obtain rfl := Except.ok.inj hstep
    exact hout
  obtain ⟨target, htarget, hstep⟩ := Outcome.bind_eq_ok.1 hstep
  cases hrelation : target.isRelation with
  | true =>
    rw [hrelation, if_pos rfl] at hstep
    obtain rfl := Except.ok.inj hstep
    exact hout
  | false =>
    rw [hrelation, if_neg Bool.false_ne_true] at hstep
    obtain rfl := Except.ok.inj hstep
    exact shownPath_of_projected hcaller htarget hrelation hout

/-! ### Queries -/

/-- **A discreet query** for a caller: it asks for what its plan does and for permission, and the
plan runs no script; what the caller had planned, the order and the projection are about keys that
are shown to the caller, but for those that every projection returns. -/
structure Discreet (schema : ClassSchema) (caller : Caller) (planned : FilterPlan)
    (sel : Selection) : Prop where
  filter : sel.filter = planned.filter.both (permission Stored.readPermKey caller)
  planned : planned.filter.Over (ShownPath schema caller)
  sort : ∀ key ∈ sel.sort, ShownPath schema caller key.1
  projection : ∀ keys, sel.projection = some keys →
    ∀ key ∈ keys, key ∈ projectionBase ∨ ShownPath schema caller key

theorem discreet_of_selection (hcaller : policy.caller.privileged = false)
    (hscripts : policy.allowScripts = false) {f : Filter} {options : FindOptions} {sel : Selection}
    (h : selection schema policy f options = .ok sel) :
    ∃ planned, Plan.filter schema policy f = .ok planned ∧
      Discreet schema policy.caller planned sel := by
  obtain ⟨planned, sort, keys, hplanned, hsort, hkeys, rfl⟩ := parts_of_selection h
  refine ⟨planned, hplanned, rfl, over_of_filter hcaller hscripts hplanned, fun key hkey => ?_,
    fun keys' hkeys' => ?_⟩
  · obtain ⟨asked, -, hasked⟩ := Outcome.exists_of_forall₂ (Outcome.forall₂_of_mapM hsort) hkey
    exact shownPath_of_sortKey hcaller hasked
  · obtain rfl : keys = some keys' := hkeys'
    cases hfields : options.keys with
    | none =>
      rw [hfields] at hkeys
      exact absurd (Except.ok.inj hkeys) (by simp)
    | some fields =>
      rw [hfields] at hkeys
      obtain ⟨out, hout, hsome⟩ := Outcome.bind_eq_ok.1 hkeys
      obtain rfl : out = keys' := Option.some.inj (Except.ok.inj hsome)
      exact shownPath_of_projection hcaller hout

/-! ### What decides -/

/-- **A key that may decide** what a query finds: one that is shown, or that of the readers. -/
def Decisive (schema : ClassSchema) (caller : Caller) (key : String) : Prop :=
  Shown schema caller key ∨ key = Stored.readPermKey

/-- **A key that may be returned** by a projection: one that is shown, or returned by each. -/
def Returned (schema : ClassSchema) (caller : Caller) (key : String) : Prop :=
  Shown schema caller key ∨ key ∈ projectionBase

/-- A hidden field decides nothing. -/
theorem Hidden.not_decisive (hs : schema.Built) {field : String} (h : Hidden schema caller field) :
    ¬Decisive schema caller (Stored.rootKey schema field) := by
  rintro (hshown | hreaders)
  · exact h.not_shown hs hshown
  · obtain ⟨ty, hty, -⟩ := h
    have hfield := fieldOf_rootKey_of_declared hs hty
    -- the readers belong to the access control list, which has another key
    rw [hreaders] at hfield
    obtain rfl : "ACL" = field := hfield
    exact absurd hreaders (show ¬Stored.aclKey = Stored.readPermKey by decide)

/-- A hidden field is returned only if every class has it. -/
theorem Hidden.mem_of_returned (hs : schema.Built) {field : String}
    (h : Hidden schema caller field)
    (hreturned : Returned schema caller (Stored.rootKey schema field)) :
    field ∈ defaultFields := by
  rcases hreturned with hshown | hbase
  · exact absurd hshown (h.not_shown hs)
  · obtain ⟨ty, hty, -⟩ := h
    rw [← fieldOf_rootKey_of_declared hs hty]
    generalize Stored.rootKey schema field = key at hbase
    simp only [projectionBase, List.mem_cons, List.not_mem_nil, or_false] at hbase
    rcases hbase with rfl | rfl | rfl | rfl <;> decide

theorem over_permission (schema : ClassSchema) (caller : Caller) :
    (permission Stored.readPermKey caller).Over fun path =>
      Decisive schema caller (Text.root path) := by
  have hreaders : Decisive schema caller (Text.root Stored.readPermKey) := .inr (by decide)
  unfold permission
  split
  · trivial
  · exact ⟨hreaders, hreaders, trivial⟩

namespace Discreet

variable {planned : FilterPlan} {sel : Selection}

/-- **Only decisive keys are read** by the predicate of a discreet query, and no script is run. -/
theorem filter_over (h : Discreet schema caller planned sel) :
    sel.filter.Over fun path => Decisive schema caller (Text.root path) := by
  rw [h.filter, Predicate.over_both]
  exact ⟨h.planned.mono fun _ => .inl, over_permission schema caller⟩

/-- **What a discreet query finds** and in which order is decided by decisive keys. -/
theorem query_related (h : Discreet schema caller planned sel) {s t : Store} {name : String}
    (hrecords : List.Forall₂ (Record.AgreeOn (Decisive schema caller))
      (Members.values (s.collection name).records) (Members.values (t.collection name).records)) :
    (s.query name sel).2 = (t.query name sel).2 ∧
      Outcome.Related
        (List.Forall₂ fun a b => ∃ r r', Record.AgreeOn (Decisive schema caller) r r' ∧
          Store.shown sel r = a ∧ Store.shown sel r' = b)
        (s.query name sel).1 (t.query name sel).1 :=
  Store.query_related (fun _ _ hr => hr) h.filter_over (fun key hkey => .inl (h.sort key hkey)) hrecords

/-- **What a discreet query returns** of a record is what is under keys that may be returned. -/
theorem lookup_shown (h : Discreet schema caller planned sel) {keys : List String}
    (hkeys : sel.projection = some keys) {r r' : Record}
    (hr : Record.AgreeOn (Returned schema caller) r r') (k : String) :
    (Store.shown sel r).lookup k = (Store.shown sel r').lookup k := by
  unfold Store.shown
  rw [hkeys]
  refine hr.project (.inr (by decide)) (fun key hkey => ?_) k
  rcases h.projection keys hkeys key hkey with hbase | hshown
  · exact .inr ((by decide : ∀ key ∈ projectionBase, Text.root key ∈ projectionBase) key hbase)
  · exact .inl hshown

end Discreet

/-- **The queries of callers without privilege are discreet.** Where scripts are not allowed, the
query of a find asks for what the filter plans and for permission to read. It runs no script, at
any depth, and its paths start with keys of declared fields that are neither relations nor
protected from the caller, but for the readers, which permission is about, and for the four keys
that every projection returns. So a hidden field decides neither what is found nor in which order
nor how long it takes, and what is returned does not depend on it, unless every class has it. -/
theorem discreet_query (hs : schema.Built) (hcaller : policy.caller.privileged = false)
    (hscripts : policy.allowScripts = false) {f : Filter} {options : FindOptions} {sel : Selection}
    (h : selection schema policy f options = .ok sel) :
    (∃ planned, filter schema policy f = .ok planned ∧
      Discreet schema policy.caller planned sel) ∧
    (sel.filter.Over fun path => Decisive schema policy.caller (Text.root path)) ∧
    (∀ s t name, List.Forall₂ (Record.AgreeOn (Decisive schema policy.caller))
        (Members.values (Store.collection s name).records)
        (Members.values (Store.collection t name).records) →
      (s.query name sel).2 = (t.query name sel).2 ∧
        Outcome.Related
          (List.Forall₂ fun a b => ∃ r r', Record.AgreeOn (Decisive schema policy.caller) r r' ∧
            Store.shown sel r = a ∧ Store.shown sel r' = b)
          (s.query name sel).1 (t.query name sel).1) ∧
    (∀ keys, sel.projection = some keys → ∀ r r',
      Record.AgreeOn (Returned schema policy.caller) r r' →
        ∀ k, (Store.shown sel r).lookup k = (Store.shown sel r').lookup k) ∧
    ∀ field, Hidden schema policy.caller field →
      ¬Decisive schema policy.caller (Stored.rootKey schema field) ∧
      (Returned schema policy.caller (Stored.rootKey schema field) → field ∈ defaultFields) := by
  obtain ⟨planned, hplanned, hdiscreet⟩ := discreet_of_selection hcaller hscripts h
  exact ⟨⟨planned, hplanned, hdiscreet⟩, hdiscreet.filter_over,
    fun s t name hrecords => hdiscreet.query_related hrecords,
    fun keys hkeys r r' hr => hdiscreet.lookup_shown hkeys hr,
    fun field hfield => ⟨hfield.not_decisive hs, hfield.mem_of_returned hs⟩⟩

/-- The schema of a class with a reference, a relation, and two texts. -/
def diarySchema : ClassSchema :=
  ⟨"Diary", [("ACL", .acl), ("author", .pointer "_User"), ("createdAt", .date),
    ("likes", .relation "_User"), ("objectId", .string), ("secret", .string), ("title", .string),
    ("updatedAt", .date)], []⟩

theorem built_diarySchema : diarySchema.Built :=
  .of_withFields "Diary" [("author", .pointer "_User"), ("likes", .relation "_User"),
    ("secret", .string), ("title", .string)] rfl

/-- A caller from whom the one text is protected. -/
def stranger : Policy where
  caller := { protectedFields := ["secret"] }

/-- A caller asks for everything, in the order of the text that they may see. -/
theorem discreet_query_diary :
    ∃ sel, selection diarySchema stranger
        (.and [.field "title" (.isPresent true), .or [.field "author" (.isPresent true), .all]])
        { sort := [⟨"title", true⟩], keys := some ["title", "secret", "likes", "author"] } =
          .ok sel ∧
      sel.projection = some ["_id", "_created_at", "_updated_at", "_acl", "title", "_p_author"] ∧
      (sel.filter.Over fun path => Decisive diarySchema stranger.caller (Text.root path)) ∧
      ¬Decisive diarySchema stranger.caller "secret" ∧
      ¬Returned diarySchema stranger.caller "likes" := by
  refine ⟨_, rfl, rfl, ?_⟩
  have hquery := discreet_query built_diarySchema rfl rfl
    (show selection diarySchema stranger
      (.and [.field "title" (.isPresent true), .or [.field "author" (.isPresent true), .all]])
      { sort := [⟨"title", true⟩], keys := some ["title", "secret", "likes", "author"] } =
        .ok _ from rfl)
  obtain ⟨-, hover, -, -, hhidden⟩ := hquery
  refine ⟨hover, (hhidden "secret" ⟨.string, rfl, .inr rfl⟩).1, fun hlikes => ?_⟩
  exact absurd ((hhidden "likes" ⟨.relation "_User", rfl, .inl rfl⟩).2 hlikes) (by decide)

end Plan

end ObjectEngine
