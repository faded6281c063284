import ObjectEngine.Proofs.Engine.Protection
import ObjectEngine.Proofs.Store.Seeding
import ObjectEngine.Proofs.Stored.Access

/-!
# What is planned for the access list

No caller writes the copies of an access list under their own names: with the internal fields
out of use, the only field that is stored under one of `Plan.aclKeys` is `ACL`
(`Stored.rootKey_eq_iff`), and it is stored as a whole. So the record of a document has access
members that agree (`Stored.hasAccess_encodeDocument`), and a planned update grants as a whole
(`Plan.grants_update`).

A filter is another matter. What an insertion by a filter starts from holds the list if the
filter asks for it by an equality, and never the copies (`Plan.mem_equalities_iff`), so that its
access members agree only if the filter does not (`Plan.agrees_seed_iff`).
-/

namespace ObjectEngine

open Plan (aclKeys)
open Stored (aclKey)

/-! ### Updates -/

namespace Edit

variable {e : Edit} {stored : String}

theorem ne_of_root_not_mem (hstored : Text.root stored ∉ aclKeys) {key : String}
    (hkey : key ∈ aclKeys) : key ≠ stored := fun he =>
  hstored (he ▸ (Plan.root_of_mem_aclKeys hkey).symm ▸ hkey)

/-- **An update that also sets a member** that is none of the access list. -/
theorem Grants.insert_set (h : e.Grants) (hstored : Text.root stored ∉ aclKeys) (d : Datum) :
    Grants { e with set := Members.insert stored d e.set } := by
  refine { h with whole := fun key hkey => ?_, set := ?_, sortedSet := ?_ }
  · refine { h.whole key hkey with set := fun m hm hroot => ?_ }
    rcases Members.mem_insert hm with rfl | hm
    · exact absurd (hroot ▸ hkey) hstored
    · exact (h.whole key hkey).set m hm hroot
  · obtain ⟨v, hordered, members, hmembers, hlookup⟩ := h.set
    refine ⟨v, hordered, members, hmembers, fun key hkey => ?_⟩
    rw [Members.lookup_insert, if_neg (ne_of_root_not_mem hstored hkey), hlookup key hkey]
  · exact Members.sorted_insert h.sortedSet _ _

theorem Grants.insert_setOnInsert (h : e.Grants) (hstored : Text.root stored ∉ aclKeys)
    (d : Datum) : Grants { e with setOnInsert := Members.insert stored d e.setOnInsert } := by
  refine { h with
    whole := fun key hkey => ?_, onInsert := fun key hkey => ?_, sortedOnInsert := ?_ }
  · refine { h.whole key hkey with setOnInsert := fun m hm hroot => ?_ }
    rcases Members.mem_insert hm with rfl | hm
    · exact absurd (hroot ▸ hkey) hstored
    · exact (h.whole key hkey).setOnInsert m hm hroot
  · rw [Members.lookup_insert, if_neg (ne_of_root_not_mem hstored hkey), h.onInsert key hkey]
  · exact Members.sorted_insert h.sortedOnInsert _ _

theorem regrants_insert_set (hstored : Text.root stored ∉ aclKeys) (d : Datum) :
    Regrants { e with set := Members.insert stored d e.set } ↔ e.Regrants := by
  have hne : aclKey ≠ stored := ne_of_root_not_mem hstored (by decide)
  simp only [Regrants, Members.lookup_insert, if_neg hne]

end Edit

namespace Plan

variable {schema : ClassSchema} {caller : Caller} {e e' : Edit} {op : UpdateOp}

/-- **An operator on another field** does nothing to the access list. -/
theorem grants_fieldEdited (h : e.Grants) {target : Target} {path stored : String}
    (hstored : Text.root stored ∉ aclKeys) (hedit : FieldEdited e target path stored op e') :
    e'.Grants ∧ (e'.Regrants ↔ e.Regrants) := by
  have hinsert {α : Type} {key : String} (hkey : key ∈ aclKeys) {members : Members α}
      (hmembers : ∀ m ∈ members, Text.root m.1 ≠ key) (v : α) :
      ∀ m ∈ Members.insert stored v members, Text.root m.1 ≠ key := fun m hm => by
    rcases Members.mem_insert hm with rfl | hm
    · exact fun he => hstored (he ▸ hkey)
    · exact hmembers m hm
  cases hedit with
  | set => exact ⟨h.insert_set hstored _, Edit.regrants_insert_set hstored _⟩
  | setOnInsert => exact ⟨h.insert_setOnInsert hstored _, Iff.rfl⟩
  | delete =>
    have hmem {key : String} (hkey : key ∈ aclKeys) :
        key ∈ NameSet.insert stored e.unset ↔ key ∈ e.unset := by
      rw [NameSet.mem_insert_iff]
      exact or_iff_right (Edit.ne_of_root_not_mem hstored hkey)
    refine ⟨{ h with whole := fun key hkey => ?_, unset := ?_ }, ?_⟩
    · refine { h.whole key hkey with unset := fun p hp hroot => ?_ }
      rcases NameSet.mem_insert hp with rfl | hp
      · exact absurd (hroot ▸ hkey) hstored
      · exact (h.whole key hkey).unset p hp hroot
    · exact h.unset.imp (fun hall key hkey => (hmem hkey).2 (hall key hkey))
        fun hnone key hkey => mt (hmem hkey).1 (hnone key hkey)
    · exact or_congr_left (hmem (by decide))
  | increment => exact ⟨{ h with whole := fun key hkey =>
      { h.whole key hkey with inc := hinsert hkey (h.whole key hkey).inc _ } }, Iff.rfl⟩
  | add => exact ⟨{ h with whole := fun key hkey =>
      { h.whole key hkey with push := hinsert hkey (h.whole key hkey).push _ } }, Iff.rfl⟩
  | addUnique => exact ⟨{ h with whole := fun key hkey =>
      { h.whole key hkey with addToSet := hinsert hkey (h.whole key hkey).addToSet _ } }, Iff.rfl⟩
  | remove => exact ⟨{ h with whole := fun key hkey =>
      { h.whole key hkey with pull := hinsert hkey (h.whole key hkey).pull _ } }, Iff.rfl⟩

/-- **An operator on the access list** sets it or removes it. -/
theorem grants_aclEdited (h : e.Grants) (hop : ∀ v, op = .set v → v.Ordered)
    (hedit : AclEdited e op e') : e'.Grants ∧ e'.Regrants := by
  have hclear : Edit.Grants { e with unset := withAclKeys e.unset } := by
    refine { h with
      whole := fun key hkey => { h.whole key hkey with unset := fun p hp hroot => ?_ }
      unset := .inl fun key hkey => mem_withAclKeys.2 (.inl hkey) }
    rcases mem_withAclKeys.1 hp with hp | hp
    · exact (root_of_mem_aclKeys hp).symm.trans hroot
    · exact (h.whole key hkey).unset p hp hroot
  have hcleared : aclKey ∈ withAclKeys e.unset := mem_withAclKeys.2 (.inl (by decide))
  cases hedit with
  | clear => exact ⟨hclear, .inl hcleared⟩
  | delete => exact ⟨hclear, .inl hcleared⟩
  | set list =>
    have hset := Record.hasAccess_insertAll (hop _ rfl) e.set
    refine ⟨{ h with
      whole := fun key hkey => { h.whole key hkey with set := fun m hm hroot => ?_ }
      set := ⟨_, hset⟩
      sortedSet := Members.sorted_insertAll h.sortedSet _ }, .inr ?_⟩
    · rcases Members.mem_insertAll hm with hm | hm
      · exact (root_of_mem_aclKeys (key_mem_aclKeys m hm)).symm.trans hroot
      · exact (h.whole key hkey).set m hm hroot
    · obtain ⟨-, _, ⟨⟩, hlookup⟩ := hset
      rw [hlookup aclKey (by decide)]
      rfl

end Plan

/-- **The keys of the access list** are those of no field but `ACL`, which has the first. -/
theorem Stored.rootKey_eq_iff (schema : ClassSchema) {root key : String}
    (hinternal : isInternalField root = false) (hkey : key ∈ aclKeys) :
    rootKey schema root = key ↔ root = "ACL" ∧ key = aclKey := by
  have hinternals : ∀ key ∈ aclKeys, isInternalField key = true := by decide
  have hheader : ∀ key ∈ aclKeys,
      Record.idKey ≠ key ∧ createdAtKey ≠ key ∧ updatedAtKey ≠ key := by decide
  have hmarked : ∀ key ∈ aclKeys, ¬pointerMark.toList <+: key.toList := by decide
  obtain ⟨hid, hcreated, hupdated⟩ := hheader key hkey
  unfold rootKey
  split
  · exact iff_of_false hid (by simp)
  · exact iff_of_false hcreated (by simp)
  · exact iff_of_false hupdated (by simp)
  · simp [eq_comm]
  · rename_i hacl
    refine iff_of_false (fun he => ?_) fun h => hacl h.1
    split at he
    · refine hmarked key hkey ?_
      rw [← he, String.toList_append]
      exact List.prefix_append _ _
    · rw [he, hinternals key hkey] at hinternal
      exact absurd hinternal (by simp)

/-- Nothing below `ACL` is stored under them. -/
theorem Stored.keyPath_eq_iff (schema : ClassSchema) {path key : String}
    (hinternal : isInternalField (Text.root path) = false) (hkey : key ∈ aclKeys) :
    keyPath schema path = key ↔ path = "ACL" ∧ key = aclKey := by
  have hroot := Text.root_eq path
  rw [keyPath]
  cases hsplit : Text.splitFirst '.' path with
  | none =>
    rw [hsplit] at hroot
    rw [show Text.root path = path from hroot] at hinternal
    exact rootKey_eq_iff schema hinternal hkey
  | some parts =>
    refine iff_of_false (fun he => Plan.dot_not_mem_of_mem_aclKeys key hkey ?_) ?_
    · rw [← he]
      simp [String.toList_append]
    · rintro ⟨rfl, -⟩
      have hnone : Text.splitFirst '.' "ACL" = none := by decide
      exact absurd (hnone.symm.trans hsplit) (by simp)

/-! ### Documents -/

/-- The header of a document has no part in the access list. -/
theorem Stored.lookup_headerMembers (d : Document) {key : String} (hkey : key ∈ aclKeys) :
    (headerMembers d).lookup key = none := by
  have hheader : ∀ key ∈ aclKeys,
      key ≠ Record.idKey ∧ key ≠ createdAtKey ∧ key ≠ updatedAtKey := by decide
  obtain ⟨hid, hcreated, hupdated⟩ := hheader key hkey
  refine Members.lookup_eq_none fun m hm he => ?_
  rw [headerMembers_eq] at hm
  rcases mem_header.1 ((Members.mem_insertAll hm).resolve_right List.not_mem_nil) with
    rfl | ⟨t, -, rfl⟩ | ⟨t, -, rfl⟩
  · exact hid he.symm
  · exact hcreated he.symm
  · exact hupdated he.symm

/-- **The record of a document** has the access members of its field `ACL`. -/
theorem Stored.hasAccess_encodeDocument {schema : ClassSchema} {d : Document} {r : Record}
    (hnamed : ∀ f ∈ d.fields, isInternalField (Text.root f.1) = false)
    (hordered : ∀ f ∈ d.fields, f.2.Ordered) (h : encodeDocument schema d = .ok r) :
    ∃ v, r.HasAccess v := by
  refine Outcome.foldlM_induction (P := fun r => ∃ v, Record.HasAccess r v) h
    ⟨.null, Record.hasAccess_null fun key hkey => lookup_headerMembers d hkey⟩
    fun r hr f hf r' hstep => ?_
  split at hstep
  · obtain rfl := Except.ok.inj hstep
    exact hr
  obtain ⟨ms, hms, hstep⟩ := Outcome.bind_eq_ok.1 hstep
  obtain rfl := Except.ok.inj hstep
  rw [encodeField] at hms
  split at hms
  · -- the field sets the members, or has none
    have hvalue := hordered f hf
    cases hv : f.2 with
    | null =>
      rw [hv] at hms
      obtain rfl := Except.ok.inj hms
      exact hr
    | acl list =>
      rw [hv] at hms hvalue
      obtain rfl := Except.ok.inj hms
      exact ⟨_, Record.hasAccess_insertAll hvalue r⟩
    | _ => exact absurd hms (by simp [hv, aclMembers])
  · rename_i hne
    obtain ⟨v, hv, members, hmembers, hlookup⟩ := hr
    refine ⟨v, hv, members, hmembers, fun key hkey => (?_ : _ = _).trans (hlookup key hkey)⟩
    have hinsert {stored : String} (hstored : key ≠ stored) (x : Datum) :
        (Members.insertAll r [(stored, x)]).lookup key = r.lookup key :=
      (Members.lookup_insert ..).trans (if_neg hstored)
    split at hms
    · obtain rfl := Except.ok.inj hms
      rfl
    · obtain ⟨x, -, hms⟩ := Outcome.bind_eq_ok.1 hms
      obtain rfl := Except.ok.inj hms
      exact hinsert (fun he => hne ((keyPath_eq_iff schema (hnamed f hf) hkey).1 he.symm).1) x
    · split at hms
      · obtain ⟨x, -, hms⟩ := Outcome.bind_eq_ok.1 hms
        obtain rfl := Except.ok.inj hms
        refine hinsert (fun he => ?_) x
        have hinternal := hnamed f hf
        rw [← he, Plan.root_of_mem_aclKeys hkey] at hinternal
        have hinternals : ∀ key ∈ aclKeys, isInternalField key = true := by decide
        exact absurd (hinternal.symm.trans (hinternals key hkey)) (by simp)
      · exact absurd hms (by simp)

namespace Plan

variable {schema : ClassSchema} {caller : Caller} {ops : UpdateMap}

/-- **Operators in use by callers**: none is on an internal field, and what they set is
ordered. -/
structure Plain (ops : UpdateMap) : Prop where
  named : ∀ m ∈ ops, isInternalField (Text.root m.1) = false
  ordered : ∀ m ∈ ops, ∀ v, m.2 = .set v → v.Ordered

/-- **The step**: an operator sets or removes the access list, if it is on the field `ACL`. -/
theorem grants_updateStep {out out' : UpdatePlan} (h : out.edit.Grants) {path : String}
    {op : UpdateOp} (hinternal : isInternalField (Text.root path) = false)
    (hop : ∀ v, op = .set v → v.Ordered)
    (hstep : updateStep schema caller out path op = .ok out') :
    out'.edit.Grants ∧ (out'.relations = [] → out.relations = [] ∧
      (out'.edit.Regrants ↔ out.edit.Regrants ∨ Text.root path = "ACL")) := by
  obtain ⟨-, target, -, -, hroute⟩ := routed_of_ok hstep
  cases hroute with
  | relation => exact ⟨h, fun hnone => absurd hnone (by simp)⟩
  | access hroot he =>
    obtain ⟨hgrants, hregrants⟩ := grants_aclEdited h hop he
    exact ⟨hgrants, fun hnone => ⟨hnone, iff_of_true hregrants (.inr hroot)⟩⟩
  | field hroot he =>
    have hstored : Text.root (Stored.keyPath schema path) ∉ aclKeys := fun hkey => by
      rw [Stored.root_keyPath] at hkey
      exact hroot ((Stored.rootKey_eq_iff schema hinternal hkey).1 rfl).1
    obtain ⟨hgrants, hregrants⟩ := grants_fieldEdited h hstored he
    exact ⟨hgrants, fun hnone => ⟨hnone, hregrants.trans (or_iff_left hroot).symm⟩⟩

/-- **The run**: operators that are added one after another. -/
theorem grants_foldlM (hops : Plain ops) {out planned : UpdatePlan} (hout : out.edit.Grants)
    (h : ops.foldlM (fun out m => updateStep schema caller out m.1 m.2) out = .ok planned) :
    planned.edit.Grants ∧ (planned.relations = [] → out.relations = [] ∧
      (planned.edit.Regrants ↔ out.edit.Regrants ∨ ∃ m ∈ ops, Text.root m.1 = "ACL")) := by
  induction ops generalizing out with
  | nil =>
    obtain rfl := Except.ok.inj h
    exact ⟨hout, fun hnone => ⟨hnone, by simp⟩⟩
  | cons m rest ih =>
    rw [List.foldlM_cons] at h
    obtain ⟨next, hstep, h⟩ := Outcome.bind_eq_ok.1 h
    obtain ⟨hnamed, hnameds⟩ := List.forall_mem_cons.1 hops.named
    obtain ⟨hordered, hordereds⟩ := List.forall_mem_cons.1 hops.ordered
    obtain ⟨hnext, hfirst⟩ := grants_updateStep hout hnamed hordered hstep
    obtain ⟨hgrants, hrest⟩ := ih ⟨hnameds, hordereds⟩ hnext h
    refine ⟨hgrants, fun hnone => ?_⟩
    obtain ⟨hnone, hrest⟩ := hrest hnone
    obtain ⟨hnone, hfirst⟩ := hfirst hnone
    exact ⟨hnone, by rw [hrest, hfirst, List.exists_mem_cons_iff, or_assoc]⟩

/-- **A planned update grants as a whole.** Unless it edits relations, it sets or removes the
access list if and only if an operator is on the field `ACL`. -/
theorem grants_update (hops : Plain ops) {plan : UpdatePlan}
    (h : update schema caller ops = .ok plan) :
    plan.edit.Grants ∧ (plan.relations = [] →
      (plan.edit.Regrants ↔ ∃ m ∈ ops, Text.root m.1 = "ACL")) := by
  obtain ⟨planned, hplanned, h⟩ := Outcome.bind_eq_ok.1 h
  obtain ⟨-, -, h⟩ := Outcome.bind_eq_ok.1 h
  obtain rfl := Except.ok.inj h
  have hempty : Edit.Grants {} :=
    ⟨fun _ _ => by constructor <;> exact fun _ hm => absurd hm List.not_mem_nil,
      ⟨.null, Record.hasAccess_null fun _ _ => rfl⟩, .inr fun _ _ => List.not_mem_nil,
      fun _ _ => rfl, .nil, .nil⟩
  obtain ⟨hgrants, hregrants⟩ := grants_foldlM hops hempty hplanned
  refine ⟨hgrants, fun hnone => (hregrants hnone).2.trans (or_iff_right ?_)⟩
  simp [Edit.Regrants]

end Plan

/-! ### Filters -/

namespace Filter

mutual

/-- Whether a filter asks for an equality on a field, by itself or in a conjunction. -/
def fixes (path : String) : Filter → Bool
  | .and parts => anyFixes path parts
  | .field p (.equals _) => p = path
  | _ => false

/-- Whether any of some filters asks for an equality on a field. -/
def anyFixes (path : String) : List Filter → Bool
  | [] => false
  | f :: rest => fixes path f || anyFixes path rest

end

/-- **A filter in use by callers**: no constraint is on an internal field. -/
def Named (f : Filter) : Prop :=
  ∀ c ∈ f.constraints, ∀ field, c.root? = some field → isInternalField field = false

end Filter

namespace Engine

variable {found : List (RelationLookup × List String)}

mutual

/-- Look-ups give no equalities. -/
theorem fixes_substitute (path : String) (f : Filter) :
    (substitute found f).fixes path = f.fixes path := by
  cases f with
  | and parts => exact anyFixes_substituteAll path parts
  | or parts | all | raw script => rfl
  | field p c =>
    rw [substitute.eq_def]
    simp only
    split
    · rename_i hids
      obtain ⟨l, hl, -⟩ := Option.bind_eq_some_iff.1 hids
      cases c with
      | relationContains r => rfl
      | _ => exact absurd hl (by simp [lookupOf?])
    · rfl
  | relatedTo owner key =>
    rw [substitute.eq_def]
    simp only
    split <;> rfl

theorem anyFixes_substituteAll (path : String) (parts : List Filter) :
    Filter.anyFixes path (substituteAll found parts) = Filter.anyFixes path parts := by
  cases parts with
  | nil => rfl
  | cons f rest =>
    rw [substituteAll, Filter.anyFixes, Filter.anyFixes, fixes_substitute path f,
      anyFixes_substituteAll path rest]

end

theorem named_substitute {f : Filter} (h : f.Named) : (substitute found f).Named := by
  intro c hc field hfield
  rw [constraints_substitute] at hc
  obtain ⟨b, hb, rfl⟩ := List.mem_map.1 hc
  rw [root?_substitute] at hfield
  split at hfield
  · obtain rfl := Option.some.inj hfield
    decide
  · exact h b hb field hfield

end Engine

namespace Predicate

variable {p q : Predicate} {m : String × Datum}

/-- What a caller may write gives no equalities. -/
theorem not_mem_equalities_permission (permKey : String) (caller : Caller) :
    m ∉ (Plan.permission permKey caller).equalities := by
  rw [Plan.permission]
  split <;> simp [equalities]

end Predicate

namespace Plan

variable {schema : ClassSchema} {policy : Policy}

/-- Without an index for case, only equality is planned as an equality. -/
theorem eq_condition_iff (hindexes : schema.indexes = []) {path : String} {target : Target}
    {c : Constraint} {out : Condition × Option Collation}
    (h : condition schema path target c = .ok out) :
    (∃ d, out.1 = .eq d) ↔ ∃ v, c = .equals v := by
  cases c with
  | equals v =>
    obtain ⟨d, -, h⟩ := Outcome.bind_eq_ok.1 h
    obtain rfl := Except.ok.inj h
    exact iff_of_true ⟨d, rfl⟩ ⟨v, rfl⟩
  | isPresent b =>
    obtain rfl := Except.ok.inj h
    simp
  | notEqual v | isIn vs | notIn vs =>
    obtain ⟨d, -, h⟩ := Outcome.bind_eq_ok.1 h
    obtain rfl := Except.ok.inj h
    simp
  | compare c v =>
    obtain ⟨d, -, h⟩ := Outcome.bind_eq_ok.1 h
    obtain rfl := Except.ok.inj h
    cases c <;> simp
  | containsAll vs | geoWithin r =>
    obtain ⟨-, -, h⟩ := Outcome.bind_eq_ok.1 h
    obtain ⟨d, -, h⟩ := Outcome.bind_eq_ok.1 h
    obtain rfl := Except.ok.inj h
    simp
  | regex pattern options =>
    obtain ⟨-, -, h⟩ := Outcome.bind_eq_ok.1 h
    obtain rfl := Except.ok.inj h
    simp
  | equalsIgnoreCase text =>
    obtain ⟨-, -, h⟩ := Outcome.bind_eq_ok.1 h
    rw [ClassSchema.caseInsensitiveIndex?, hindexes] at h
    obtain rfl := Except.ok.inj h
    simp
  | relationContains r => exact absurd h (by simp [condition])

mutual

/-- **The equalities of a planned filter** on the keys of the access list are those on the list
itself, never on its copies. -/
theorem mem_equalities_iff (hindexes : schema.indexes = []) {f : Filter} (hnamed : f.Named)
    {planned : FilterPlan} (h : filter schema policy f = .ok planned) {key : String}
    (hkey : key ∈ aclKeys) : (∃ d, (key, d) ∈ planned.filter.equalities) ↔
      f.fixes "ACL" = true ∧ key = aclKey := by
  cases f with
  | and parts =>
    rw [mem_equalities_conjunction hindexes hnamed h hkey]
    exact or_iff_right (by simp [Predicate.equalities])
  | field path c =>
    have hinternal : isInternalField (Text.root path) = false :=
      hnamed _ (List.mem_singleton.2 rfl) _ rfl
    have hdot : '.' ∉ key.toList := dot_not_mem_of_mem_aclKeys key hkey
    obtain ⟨target, -, cond, hcond, hfilter⟩ := exists_of_fieldFilter h
    rw [hfilter]
    simp only [Predicate.mem_equalities_field, exists_and_left]
    rw [eq_condition_iff hindexes hcond, Stored.keyPath_eq_iff schema hinternal hkey]
    have hfixes : (Filter.field path c).fixes "ACL" = true ↔
        path = "ACL" ∧ ∃ v, c = .equals v := by
      cases c <;> simp [Filter.fixes]
    rw [hfixes]
    constructor
    · rintro ⟨-, ⟨hpath, hkey⟩, hc⟩
      exact ⟨⟨hpath, hc⟩, hkey⟩
    · rintro ⟨⟨hpath, hc⟩, hkey'⟩
      exact ⟨(Stored.keyPath_eq_iff schema hinternal hkey).2 ⟨hpath, hkey'⟩ ▸ hdot,
        ⟨hpath, hkey'⟩, hc⟩
  | or parts =>
    rw [filter] at h
    split at h
    · exact absurd h (by simp)
    · obtain ⟨out, -, h⟩ := Outcome.bind_eq_ok.1 h
      obtain rfl := Except.ok.inj h
      simp [Predicate.equalities, Filter.fixes]
  | all =>
    obtain rfl := Except.ok.inj h
    simp [Predicate.equalities, Filter.fixes]
  | raw text =>
    rw [filter] at h
    split at h
    · obtain rfl := Except.ok.inj h
      simp [Predicate.equalities, Filter.fixes]
    · exact absurd h (by simp)
  | relatedTo owner key => exact absurd h (by simp [filter])

theorem mem_equalities_conjunction (hindexes : schema.indexes = []) {parts : List Filter}
    (hnamed : ∀ c ∈ Filter.constraintsOf parts, ∀ field, c.root? = some field →
      isInternalField field = false) {acc planned : FilterPlan}
    (h : conjunction schema policy acc parts = .ok planned) {key : String} (hkey : key ∈ aclKeys) :
    (∃ d, (key, d) ∈ planned.filter.equalities) ↔ (∃ d, (key, d) ∈ acc.filter.equalities) ∨
      (Filter.anyFixes "ACL" parts = true ∧ key = aclKey) := by
  cases parts with
  | nil =>
    obtain rfl := Except.ok.inj h
    simp [Filter.anyFixes]
  | cons f rest =>
    obtain ⟨p, hp, h⟩ := Outcome.bind_eq_ok.1 h
    rw [mem_equalities_conjunction hindexes (fun c hc => hnamed c (List.mem_append_right _ hc)) h
      hkey]
    simp only [Predicate.mem_equalities_both, exists_or, Filter.anyFixes, Bool.or_eq_true,
      or_and_right]
    rw [mem_equalities_iff hindexes (fun c hc => hnamed c (List.mem_append_left _ hc)) hp hkey,
      or_assoc]

end

/-- **The access members of the record that an insertion starts from** agree if and only if the
filter asks for no list by an equality. -/
theorem agrees_seed_iff (hindexes : schema.indexes = []) {f : Filter} (hnamed : f.Named)
    {planned : FilterPlan} (h : filter schema policy f = .ok planned) (permKey : String)
    (caller : Caller) :
    (planned.filter.both (permission permKey caller)).seed.Agrees ↔ f.fixes "ACL" = false := by
  have hseed {key : String} (hkey : key ∈ aclKeys) :
      ((planned.filter.both (permission permKey caller)).seed.lookup key).isSome = true ↔
        f.fixes "ACL" = true ∧ key = aclKey := by
    rw [Predicate.isSome_lookup_seed, ← mem_equalities_iff hindexes hnamed h hkey]
    simp only [Predicate.mem_equalities_both,
      or_iff_left (Predicate.not_mem_equalities_permission permKey caller)]
  have hread : Stored.readPermKey ≠ aclKey := by decide
  rw [← Bool.not_eq_true]
  constructor
  · rintro (hnone | ⟨entries, hacl, hreaders, -⟩) hfixes
    · have hsome := (hseed (by decide)).2 ⟨hfixes, rfl⟩
      rw [hnone aclKey (by decide)] at hsome
      exact absurd hsome (by simp)
    · exact hread ((hseed (by decide)).1 (by rw [hreaders]; rfl)).2
  · intro hfixes
    refine .inl fun key hkey => Option.not_isSome_iff_eq_none.1 fun hsome => ?_
    exact hfixes ((hseed hkey).1 hsome).1

end Plan

end ObjectEngine
