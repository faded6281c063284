import ObjectEngine.Proofs.Engine.Coherence
import ObjectEngine.Proofs.Engine.Tending

/-!
# Writes planned for relations

An update that is planned adds ids to relation fields and removes others as its operators say
(`Plan.edits_update`), and a deletion deletes all relations of the class. The plan is made with the
schema of the class that the store has, if the cache is current. So what is planned for a write
suits the relations of a class (`Engine.ensures_suits`), whatever class the write is on.
-/

namespace ObjectEngine

/-! ### Operators on relations -/

/-- The ids that an operator adds to a relation, and those that it removes. -/
def UpdateOp.relationEdit? : UpdateOp → Option (List String × List String)
  | .addRelation ps => some (ps.map Pointer.objectId, [])
  | .removeRelation ps => some ([], ps.map Pointer.objectId)
  | _ => none

/-- **The edits of a relation field** that operators ask for. -/
def UpdateMap.edits (f : String) (ops : UpdateMap) : List (List String × List String) :=
  ops.filterMap fun m => if m.1 = f then m.2.relationEdit? else none

/-- The edits of a relation field that a write asks for. -/
def WriteOp.edits (f : String) : WriteOp → List (List String × List String)
  | .update _ _ ops | .updateMany _ _ ops => ops.edits f
  | .create .. | .upsert .. | .delete .. => []

namespace Plan

variable {schema : ClassSchema} {caller : Caller} {path : String} {op : UpdateOp}

/-- The ids of references. -/
theorem relationIds_eq_ok {field target : String} {ps : List Pointer} {ids : List String}
    (h : relationIds field target ps = .ok ids) : ids = ps.map Pointer.objectId := by
  have hids := Outcome.forall₂_of_mapM h
  clear h
  induction hids with
  | nil => rfl
  | cons hid _ ih =>
    split at hid
    · rw [List.map_cons, Except.ok.inj hid, ih]
    · exact absurd hid (by simp)

/-- An edit of a relation does what its operator says. -/
theorem relationEdit_eq_ok {target : String} {e : RelationEdit}
    (h : relationEdit path target op = .ok e) :
    e.field = path ∧ op.relationEdit? = some (e.add, e.remove) := by
  cases op with
  | addRelation ps | removeRelation ps =>
    obtain ⟨ids, hids, h⟩ := Outcome.bind_eq_ok.1 h
    obtain rfl := Except.ok.inj h
    exact ⟨rfl, by rw [relationIds_eq_ok hids]; rfl⟩
  | _ => exact absurd h (by simp [relationEdit])

/-- What a path refers to, if it is no subpath. -/
theorem fieldType?_of_resolve {ty : FieldType}
    (h : resolve schema caller path = .ok (.declared ty false)) :
    schema.fieldType? path = some ty := by
  unfold resolve at h
  cases hsplit : Text.splitFirst '.' path with
  | none =>
    simp only [hsplit, pure_bind] at h
    obtain ⟨-, h⟩ := Outcome.guard_eq_ok.1 h
    obtain ⟨-, h⟩ := Outcome.guard_eq_ok.1 h
    obtain ⟨-, h⟩ := Outcome.guard_eq_ok.1 h
    split at h
    · rename_i ty' hty
      obtain ⟨rfl, -⟩ := Target.declared.inj (Except.ok.inj h)
      exact hty
    · split at h
      · exact absurd (Except.ok.inj h) (by simp)
      · exact absurd h (by simp [throw, throwThe, MonadExceptOf.throw])
  | some parts =>
    simp only [hsplit, pure_bind] at h
    obtain ⟨-, h⟩ := Outcome.guard_eq_ok.1 h
    obtain ⟨-, h⟩ := Outcome.guard_eq_ok.1 h
    obtain ⟨-, h⟩ := Outcome.guard_eq_ok.1 h
    obtain ⟨-, h⟩ := Outcome.guard_eq_ok.1 h
    split at h
    · exact absurd (Target.declared.inj (Except.ok.inj h)).2 (by simp)
    · split at h
      · exact absurd (Except.ok.inj h) (by simp)
      · exact absurd h (by simp [throw, throwThe, MonadExceptOf.throw])

/-- **The step**: an operator is planned. One that does not edit a relation leaves those that are
planned alone. -/
theorem edits_updateStep {out out' : UpdatePlan}
    (h : updateStep schema caller out path op = .ok out') :
    (∀ f, out'.edits f = out.edits f ++ UpdateMap.edits f [(path, op)]) ∧
      ∀ e ∈ out'.relations, e ∈ out.relations ∨ e.field ∈ schema.relationFields.map Prod.fst := by
  obtain ⟨-, target, htarget, -, hroute⟩ := route_of_ok h
  unfold route at hroute
  split at hroute
  · rename_i related hty
    obtain ⟨e, he, hroute⟩ := Outcome.bind_eq_ok.1 hroute
    obtain rfl := Except.ok.inj hroute
    obtain ⟨rfl, hedit⟩ := relationEdit_eq_ok he
    refine ⟨fun f => ?_, fun e' he' => ?_⟩
    · by_cases hf : e.field = f <;>
        simp [UpdatePlan.edits, UpdateMap.edits, List.filter_append, hf, hedit]
    · refine (List.mem_append.1 he').imp_right fun he' => ?_
      rw [List.mem_singleton.1 he']
      cases target with
      | free => exact absurd hty (by simp [Target.wholeType?])
      | declared ty dotted =>
        cases dotted with
        | true => exact absurd hty (by simp [Target.wholeType?])
        | false =>
          obtain rfl : ty = .relation related := Option.some.inj hty
          have hlookup := fieldType?_of_resolve htarget
          exact List.mem_map.2
            ⟨_, Stored.mem_relationFields.2 (Members.mem_of_lookup hlookup), rfl⟩
  · rename_i hty
    have hnone : op.relationEdit? = none := by
      split at hroute
      · obtain ⟨e, he, -⟩ := Outcome.bind_eq_ok.1 hroute
        cases aclEdited_of_ok he <;> rfl
      · obtain ⟨e, he, -⟩ := Outcome.bind_eq_ok.1 hroute
        cases fieldEdited_of_ok he <;> rfl
    have hrelations : out'.relations = out.relations := by
      split at hroute <;>
      · obtain ⟨e, -, hroute⟩ := Outcome.bind_eq_ok.1 hroute
        obtain rfl := Except.ok.inj hroute
        rfl
    refine ⟨fun f => ?_, fun e he => .inl (hrelations ▸ he)⟩
    rw [UpdatePlan.edits, hrelations]
    simp [UpdatePlan.edits, UpdateMap.edits, hnone]

/-- **The run**: operators are planned one after another. -/
theorem edits_foldlM {ops : UpdateMap} {out planned : UpdatePlan}
    (h : ops.foldlM (fun out m => updateStep schema caller out m.1 m.2) out = .ok planned) :
    (∀ f, planned.edits f = out.edits f ++ UpdateMap.edits f ops) ∧
      ∀ e ∈ planned.relations,
        e ∈ out.relations ∨ e.field ∈ schema.relationFields.map Prod.fst := by
  induction ops generalizing out with
  | nil =>
    obtain rfl := Except.ok.inj h
    exact ⟨fun f => (List.append_nil _).symm, fun e he => .inl he⟩
  | cons m rest ih =>
    rw [List.foldlM_cons] at h
    obtain ⟨next, hstep, hrest⟩ := Outcome.bind_eq_ok.1 h
    obtain ⟨hedits, hfields⟩ := edits_updateStep hstep
    obtain ⟨hedits', hfields'⟩ := ih hrest
    refine ⟨fun f => ?_, fun e he => (hfields' e he).elim (hfields e) .inr⟩
    rw [hedits', hedits, List.append_assoc]
    exact congrArg (out.edits f ++ ·) List.filterMap_append.symm

/-- **A planned update edits relations** as its operators say. -/
theorem edits_update {ops : UpdateMap} {plan : UpdatePlan}
    (h : update schema caller ops = .ok plan) :
    (∀ f, plan.edits f = UpdateMap.edits f ops) ∧
      ∀ e ∈ plan.relations, e.field ∈ schema.relationFields.map Prod.fst := by
  obtain ⟨planned, hplanned, h⟩ := Outcome.bind_eq_ok.1 h
  obtain ⟨-, -, h⟩ := Outcome.bind_eq_ok.1 h
  obtain rfl := Except.ok.inj h
  obtain ⟨hedits, hfields⟩ := edits_foldlM hplanned
  exact ⟨hedits, fun e he => (hfields e he).resolve_left List.not_mem_nil⟩

end Plan

/-! ### Plans -/

namespace Engine

variable {config : Config} {caller : Caller} {s : Store} {C className : String}
  {schema : ClassSchema}

/-- An update of objects of a class edits its relations as the operators say. -/
theorem fits_update {schema' : ClassSchema} (hloaded : Catalog.loaded s C = .ok (some schema))
    (hread : SchemaCache.CurrentAnswer C s className schema') {ops : UpdateMap}
    {plan : Plan.UpdatePlan} (hplan : Plan.update schema' caller ops = .ok plan) (p : Predicate)
    (edit : Edit) (many : Bool) :
    (Write.update className p { plan with edit } many).Fits C (schema.relationFields.map Prod.fst)
      fun f => UpdateMap.edits f ops := by
  intro hname
  obtain rfl : schema' = schema :=
    Option.some.inj (Except.ok.inj ((hread.loaded hname).symm.trans hloaded))
  obtain ⟨hedits, hfields⟩ := Plan.edits_update hplan
  exact ⟨hfields, fun f _ => hedits f⟩

/-- **What is planned for a write suits the relations of a class**, if the cache is current for the
class. -/
theorem ensures_suits (hs : Catalog.Keyed s) (hloaded : Catalog.loaded s C = .ok (some schema))
    {op : WriteOp} (hop : op.SparesIds) :
    (prepare config caller op).Ensures (Catalog.Still s) (SchemaCache.Current · C s)
      (Write.Suits C (schema.relationFields.map Prod.fst) fun f => op.edits f) := by
  have hI := (Catalog.ofRecords_still s).stable
  cases op with
  | create className d =>
    refine .bind (ensures_plansCreate (Action.ensures_schema_current hs C className) d)
      fun out hout => .pure ?_
    obtain ⟨schema', hread, hplans⟩ := hout
    cases hplans with
    | intro d' r =>
      exact ⟨hread.named.2, trivial, fun session => Store.Call.allows_insert r⟩
  | update className objectId ops =>
    refine .mono ?_ (ensures_plansUpdate (Action.ensures_schema_current hs C className) _ ops false)
    rintro write ⟨schema', hread, hplans⟩
    have hspares := allows_of_plansUpdate hop (fun r id hid hp k hk => by
      obtain rfl := Option.some.inj hk
      exact (Catalog.id?_of_byId ((Predicate.eval_both _ _).1 hp).1 hid).symm) hplans
    cases hplans with
    | intro plan t hplan =>
      exact ⟨hread.named.2, fits_update hloaded hread hplan _ _ _, hspares⟩
  | updateMany className f ops =>
    refine .bind (Action.ensures_schema_current hs C className) fun _ _ => ?_
    refine .bind (.lift (ensures_scopedFilter_eq hI config caller _ _ f)) fun p _ => ?_
    refine .mono ?_ (ensures_plansUpdate (Action.ensures_schema_current hs C className) p ops true)
    rintro write ⟨schema', hread, hplans⟩
    have hspares := allows_of_plansUpdate hop (fun _ _ _ _ _ => nofun) hplans
    cases hplans with
    | intro plan t hplan =>
      exact ⟨hread.named.2, fits_update hloaded hread hplan _ _ _, hspares⟩
  | upsert className f ops =>
    refine .mono ?_ (ensures_plansUpsert (Action.ensures_schema_current hs C className)
      hI.keptByFinds f ops)
    rintro write ⟨schema', hread, hplans⟩
    have hspares := allows_of_plansUpsert hop hplans
    cases hplans with
    | intro => exact ⟨hread.named.2, trivial, hspares⟩
  | delete className f =>
    refine .bind (Action.ensures_schema_current hs C className) fun schema' hread => ?_
    refine .bind (.lift (ensures_scopedFilter_eq hI config caller schema' _ f)) fun p _ =>
      .pure ⟨hread.named.2, fun hname => ?_, fun session => Store.Call.allows_delete⟩
    obtain rfl : schema' = schema :=
      Option.some.inj (Except.ok.inj ((hread.loaded hname).symm.trans hloaded))
    rfl

/-- The writes that are planned for a batch suit the relations of a class. -/
theorem ensures_suits_all (hs : Catalog.Keyed s)
    (hloaded : Catalog.loaded s C = .ok (some schema)) {ops : List WriteOp}
    (hops : ∀ op ∈ ops, op.SparesIds) :
    (prepareAll config caller ops).Ensures (Catalog.Still s) (SchemaCache.Current · C s)
      (List.Forall₂ (fun op outcome => ∀ write, outcome = .ok write →
        Write.Suits C (schema.relationFields.map Prod.fst) (fun f => op.edits f) write) ops) :=
  (Action.judgement _ _).forall₂_mapM fun op hop => .outcomeOf (ensures_suits hs hloaded (hops op hop))

end Engine

end ObjectEngine
