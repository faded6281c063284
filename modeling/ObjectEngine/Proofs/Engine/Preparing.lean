import ObjectEngine.Proofs.Engine.Writes

/-!
# The writes planned for a caller

What is planned under a schema is said once for each kind of write (`Engine.PlansCreate`,
`Engine.PlansUpdate`, `Engine.PlansUpsert`), with whatever is known of the schemas that the cache
and the store give.

So whatever a caller asks for, the write that is planned keeps to the permission of the caller
(`Engine.ensures_prepare`): it is on a class, since its schema was loaded; its predicate stands
beside the permission to write; and its update, with the time stamps that the engine adds,
leaves the ids of records alone unless the caller has privilege.
-/

namespace ObjectEngine

/-- The class that a write is on. -/
def WriteOp.className : WriteOp → String
  | .create className _ | .update className .. | .updateMany className ..
  | .upsert className .. | .delete className _ => className

namespace Edit

/-- An update that also sets another member. -/
theorem Avoids.insert_set {key : String} {edit : Edit} (h : edit.Avoids key) {path : String}
    (hpath : Text.root path ≠ key) (d : Datum) :
    Avoids key { edit with set := Members.insert path d edit.set } := by
  refine { h with set := fun m hm => ?_ }
  rcases Members.mem_insert hm with rfl | hm
  · exact hpath
  · exact h.set m hm

/-- An update that also stores its time. -/
def stamped (edit : Edit) (t : Instant) : Edit :=
  { edit with set := Members.insert Stored.updatedAtKey (.date t) edit.set }

theorem Avoids.stamped {edit : Edit} (h : edit.Avoids Record.idKey) (t : Instant) :
    (edit.stamped t).Avoids Record.idKey :=
  h.insert_set (show Text.root Stored.updatedAtKey ≠ Record.idKey by decide) _

end Edit

namespace Engine

variable {I : Store → Prop} {J : SchemaCache → Prop} {P : ClassSchema → Prop} {caller : Caller}
  {config : Config} {className : String}

/-! ### What is planned under a schema -/

/-- **A planned creation** inserts the record of an object that has the fields given. -/
inductive PlansCreate (className : String) (d : Document) (schema : ClassSchema) :
    Write × Document → Prop
  | intro (d' : Document) (r : Record) (fields : d'.fields = d.fields)
    (encoded : Stored.encodeDocument schema d' = .ok r) :
    PlansCreate className d schema (.insert className r, d')

/-- **A planned update** does what is planned for the operators, and stores its time. -/
inductive PlansUpdate (caller : Caller) (className : String) (p : Predicate) (ops : UpdateMap)
    (many : Bool) (schema : ClassSchema) : Write → Prop
  | intro (plan : Plan.UpdatePlan) (t : Instant)
    (planned : Plan.update schema caller ops = .ok plan) :
    PlansUpdate caller className p ops many schema
      (.update className p { plan with edit := plan.edit.stamped t } many)

/-- **A planned update or insertion** is one within the scoped filter. An insertion needs an id,
which the filter may give. -/
inductive PlansUpsert (config : Config) (caller : Caller) (className : String) (f : Filter)
    (ops : UpdateMap) (schema : ClassSchema) : Write → Prop
  | intro (plan : Plan.UpdatePlan) (found : List (RelationLookup × List String))
    (scope : Plan.FilterPlan) (t : Instant) (onInsert : Members Datum)
    (planned : Plan.update schema caller ops = .ok plan) (unrelated : plan.relations = [])
    (within : Plan.filter { schema with indexes := [] } (policy config caller)
      (substitute found f) = .ok scope)
    (identified : onInsert = Members.insert Stored.createdAtKey (.date t) plan.edit.setOnInsert ∨
      ∃ id, onInsert = Members.insert Record.idKey (.string id)
        (Members.insert Stored.createdAtKey (.date t) plan.edit.setOnInsert)) :
    PlansUpsert config caller className f ops schema
      (.upsert className (scope.filter.both (Plan.permission Stored.writePermKey caller))
        { plan.edit.stamped t with setOnInsert := onInsert })

section

variable (hschema : (Action.schema className).Ensures I J P)

include hschema

theorem ensures_plansCreate (d : Document) :
    (prepareCreate caller className d).Ensures I J fun out =>
      ∃ schema, P schema ∧ PlansCreate className d schema out := by
  refine .bind hschema fun schema hP => ?_
  have hrest : Action.Ensures I J (fun out : Write × Document =>
      ∃ schema, P schema ∧ PlansCreate className d schema out) (do
        let objectId ← if d.objectId.isEmpty then Action.newId else pure d.objectId
        let t ← Action.now
        let d : Document :=
          { d with className, objectId, createdAt := d.createdAt <|> some t,
                   updatedAt := d.updatedAt <|> some t }
        let record ← (Stored.encodeDocument schema d : Outcome Record)
        return (.insert className record, d)) := by
    refine .ite_bind (Q := fun _ => True) (fun _ => .lift (Action.ensures_newId I))
      (fun _ => .pure trivial) fun objectId _ => ?_
    refine .bind (.lift (Action.ensures_now I)) fun t _ => ?_
    exact .bind (.outcome fun _ h => h) fun record hrecord =>
      .pure ⟨schema, hP, .intro _ record rfl hrecord⟩
  refine .ite (fun _ => ?_) fun _ => hrest
  split
  · exact .bind (Q := fun _ => False) .throw nofun
  · exact hrest

theorem ensures_plansUpdate (p : Predicate) (ops : UpdateMap) (many : Bool) :
    (prepareUpdate caller className p ops many).Ensures I J fun write =>
      ∃ schema, P schema ∧ PlansUpdate caller className p ops many schema write := by
  refine .bind hschema fun schema hP => ?_
  refine .bind (.outcome fun _ h => h) fun plan hplan => ?_
  exact .bind (.lift (Action.ensures_now I)) fun t _ => .pure ⟨schema, hP, .intro plan t hplan⟩

theorem ensures_plansUpsert (hI : Store.KeptByFinds I) (f : Filter) (ops : UpdateMap) :
    (prepareUpsert config caller className f ops).Ensures I J fun write =>
      ∃ schema, P schema ∧ PlansUpsert config caller className f ops schema write := by
  refine .bind hschema fun schema hP => ?_
  refine .bind (.outcome fun _ h => h) fun plan hplan => ?_
  refine .guard fun hrelations => ?_
  have hunrelated : plan.relations = [] := by simpa using hrelations
  refine .bind (.lift (ensures_scopedFilter_of_finds hI config caller schema _ f)) fun p hp => ?_
  obtain ⟨found, scope, hscope, rfl⟩ := hp
  refine .bind (.lift (Action.ensures_now I)) fun t _ => ?_
  refine .ite (fun _ => ?_) fun _ => ?_
  · exact .bind (.pure rfl) fun _ honInsert =>
      .pure ⟨schema, hP, .intro plan found scope t _ hplan hunrelated hscope (.inl honInsert.symm)⟩
  · refine .bind (.lift (Action.ensures_newId I)) fun id _ => ?_
    exact .bind (.pure rfl) fun _ honInsert => .pure
      ⟨schema, hP, .intro plan found scope t _ hplan hunrelated hscope (.inr ⟨id, honInsert.symm⟩)⟩

end

/-- **Planning one write**, with whatever cache, keeps all that queries keep. -/
theorem ensures_prepare_of_finds (hI : Store.KeptByFinds I) (op : WriteOp) :
    (prepare config caller op).Ensures I (fun _ => True) fun _ => True := by
  have hschema (className : String) := Action.ensures_schema_of_finds hI className
  cases op with
  | create className d =>
    exact .bind (ensures_plansCreate (hschema className) d) fun _ _ => .pure trivial
  | update className objectId ops =>
    exact (ensures_plansUpdate (hschema className) _ ops false).mono fun _ _ => trivial
  | updateMany className f ops =>
    refine .bind (hschema className) fun schema _ => ?_
    exact .bind (.lift (ensures_scopedFilter_of_finds hI config caller schema _ f)) fun p _ =>
      (ensures_plansUpdate (hschema className) p ops true).mono fun _ _ => trivial
  | upsert className f ops =>
    exact (ensures_plansUpsert (hschema className) hI f ops).mono fun _ _ => trivial
  | delete className f =>
    refine .bind (hschema className) fun schema _ => ?_
    exact .bind (.lift (ensures_scopedFilter_of_finds hI config caller schema _ f)) fun p _ =>
      .pure trivial

/-! ### Plans within the permission -/

/-- **A planned creation** inserts a record of the class, and the object has the fields given. -/
theorem ensures_prepareCreate (hI : Store.Stable I) (className : String) (d : Document) :
    (prepareCreate caller className d).Ensures I SchemaCache.Faithful fun out =>
      out.1.Authorized caller ∧ out.1.collection = className ∧ out.2.fields = d.fields := by
  refine .mono ?_ (ensures_plansCreate (Action.ensures_schema hI className) d)
  rintro _ ⟨schema, ⟨-, hclass⟩, hplans⟩
  cases hplans with
  | intro d' r hfields hencoded => exact ⟨hclass, rfl, hfields⟩

/-- **A planned update** keeps to a permission that its predicate keeps to. -/
theorem ensures_prepareUpdate (hI : Store.Stable I) (className : String) {p : Predicate}
    (hp : p.Within caller) (ops : UpdateMap) (many : Bool) :
    (prepareUpdate caller className p ops many).Ensures I SchemaCache.Faithful fun write =>
      write.Authorized caller ∧ write.collection = className := by
  refine .mono ?_ (ensures_plansUpdate (Action.ensures_schema hI className) p ops many)
  rintro _ ⟨schema, ⟨-, hclass⟩, hplans⟩
  cases hplans with
  | intro plan t hplan =>
    exact ⟨⟨hclass, hp, fun hcaller => (Plan.avoids_update hcaller hplan).stamped t⟩, rfl⟩

/-- **A planned update or insertion** keeps to the permission. -/
theorem ensures_prepareUpsert (hI : Store.Stable I) (config : Config) (className : String)
    (f : Filter) (ops : UpdateMap) :
    (prepareUpsert config caller className f ops).Ensures I SchemaCache.Faithful fun write =>
      write.Authorized caller ∧ write.collection = className := by
  refine .mono ?_ (ensures_plansUpsert (Action.ensures_schema hI className) hI.keptByFinds f ops)
  rintro _ ⟨schema, ⟨-, hclass⟩, hplans⟩
  cases hplans with
  | intro plan found scope t onInsert hplan hunrelated hscope hidentified =>
    have hwithin : Predicate.Within caller
        (scope.filter.both (Plan.permission Stored.writePermKey caller)) :=
      fun _ hr => Predicate.admits_of_eval_both split_writePermKey hr
    exact ⟨⟨hclass, hwithin, fun hcaller =>
      { (Plan.avoids_update hcaller hplan).stamped t with }⟩, rfl⟩

/-- **Whatever is planned** for a caller keeps to the permission. -/
theorem ensures_prepare (hI : Store.Stable I) (config : Config) (op : WriteOp) :
    (prepare config caller op).Ensures I SchemaCache.Faithful fun write =>
      write.Authorized caller ∧ write.collection = op.className := by
  cases op with
  | create className d =>
    exact .bind (ensures_prepareCreate hI className d) fun out hout =>
      .pure ⟨hout.1, hout.2.1⟩
  | update className objectId ops =>
    exact ensures_prepareUpdate hI className
      (fun _ hr => Predicate.admits_of_eval_both split_writePermKey hr) ops false
  | updateMany className f ops =>
    refine .bind (Action.ensures_schema hI className) fun schema _ => ?_
    exact .bind (.lift (ensures_scopedFilter hI config caller schema split_writePermKey f))
      fun p hp => ensures_prepareUpdate hI className hp ops true
  | upsert className f ops => exact ensures_prepareUpsert hI config className f ops
  | delete className f =>
    refine .bind (Action.ensures_schema hI className) fun schema hschema => ?_
    exact .bind (.lift (ensures_scopedFilter hI config caller schema split_writePermKey f))
      fun p hp => .pure ⟨⟨hschema.2, hp⟩, rfl⟩

end Engine

end ObjectEngine
