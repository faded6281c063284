import ObjectEngine.Plan.Edit
import ObjectEngine.Proofs.Store.Applying
import ObjectEngine.Proofs.Stored.Layout

/-!
# Updates leave the id alone

What a caller without privilege asks to update never touches the member that holds the id of a
record: the id is read-only under its own name, and its stored name is that of an internal
field, which such a caller may not use (`Plan.avoids_update`).
-/

namespace ObjectEngine

/-! ### Field paths -/

namespace Text

theorem takeWhile_of_splitFirstChars (cs : List Char) :
    cs.takeWhile (· ≠ '.') = ((splitFirstChars '.' cs).map Prod.fst).getD cs := by
  induction cs with
  | nil => rfl
  | cons c rest ih =>
    rw [splitFirstChars]
    by_cases hc : c = '.'
    · simp [hc]
    · rw [if_neg hc, List.takeWhile_cons_of_pos (by simpa using hc), ih]
      cases splitFirstChars '.' rest <;> rfl

/-- The root of a path is what stands before its first full stop. -/
theorem root_eq (path : String) :
    root path = ((splitFirst '.' path).map Prod.fst).getD path := by
  rw [root, takeWhile_of_splitFirstChars, splitFirst]
  cases splitFirstChars '.' path.toList with
  | none => exact String.ofList_toList
  | some parts => rfl

/-- The root of a path has no full stop. -/
theorem dot_not_mem_root (path : String) : '.' ∉ (root path).toList := by
  rw [root, String.toList_ofList]
  exact fun h => absurd (List.all_eq_true.1 List.all_takeWhile _ h) (by simp)

/-- A path is below its root. -/
theorem root_append {a : String} (ha : '.' ∉ a.toList) (b : String) : root (a ++ "." ++ b) = a := by
  refine String.toList_inj.1 ?_
  rw [root, String.toList_ofList, String.toList_append, String.toList_append,
    List.append_assoc, List.takeWhile_append_of_pos fun c hc => ?_]
  · exact List.append_nil _
  · simpa using fun he : c = '.' => ha (he ▸ hc)

end Text

/-- **The stored path of a field** starts with the key of the field's root. -/
theorem Stored.root_keyPath (schema : ClassSchema) (path : String) :
    Text.root (keyPath schema path) = rootKey schema (Text.root path) := by
  have hdot := Text.dot_not_mem_root path
  have hkey : '.' ∉ (rootKey schema (Text.root path)).toList := by
    generalize Text.root path = root at hdot
    unfold rootKey
    split
    case h_5 =>
      split
      · simpa [String.toList_append, pointerMark] using hdot
      · exact hdot
    all_goals decide
  have hroot := Text.root_eq path
  rw [keyPath]
  cases hsplit : Text.splitFirst '.' path with
  | none =>
    rw [hsplit] at hroot
    rw [show Text.root path = path from hroot] at hkey ⊢
    exact Text.root_of_split (Text.split_of_not_mem hkey)
  | some parts =>
    rw [hsplit] at hroot
    rw [show Text.root path = parts.1 from hroot] at hkey ⊢
    exact Text.root_append hkey parts.2

namespace Plan

variable {schema : ClassSchema} {caller : Caller}

/-- The root of a path that a caller without privilege may use is not internal. -/
theorem root_of_resolve (hcaller : caller.privileged = false) {path : String} {target : Target}
    (h : resolve schema caller path = .ok target) :
    isInternalField (Text.root path) = false := by
  rw [Text.root_eq]
  unfold resolve at h
  cases hsplit : Text.splitFirst '.' path with
  | none =>
    simp only [hsplit, pure_bind] at h
    obtain ⟨-, h⟩ := Outcome.guard_eq_ok.1 h
    obtain ⟨-, h⟩ := Outcome.guard_eq_ok.1 h
    obtain ⟨hinternal, -⟩ := Outcome.guard_eq_ok.1 h
    simpa [hcaller] using hinternal
  | some parts =>
    simp only [hsplit, pure_bind] at h
    obtain ⟨-, h⟩ := Outcome.guard_eq_ok.1 h
    obtain ⟨-, h⟩ := Outcome.guard_eq_ok.1 h
    obtain ⟨-, h⟩ := Outcome.guard_eq_ok.1 h
    obtain ⟨hinternal, -⟩ := Outcome.guard_eq_ok.1 h
    simpa [hcaller] using hinternal

/-- **The stored path of a field** does not start with the key of the id. -/
theorem root_keyPath_ne {path : String} (hinternal : isInternalField (Text.root path) = false)
    (hwritable : Text.root path ∉ readOnlyFields) :
    Text.root (Stored.keyPath schema path) ≠ Record.idKey := by
  rw [Stored.root_keyPath]
  generalize Text.root path = root at hinternal hwritable
  unfold Stored.rootKey
  split
  · simp [readOnlyFields] at hwritable
  · simp [readOnlyFields] at hwritable
  · simp [readOnlyFields] at hwritable
  · decide
  · split
    · exact fun he => absurd (congrArg String.toList he)
        (by simp [Record.idKey, Stored.pointerMark, String.toList_append])
    · rintro rfl
      exact absurd hinternal (by decide)

/-! ### One operator -/

/-- **What an operator on a field adds to an edit**, at its stored path. -/
inductive FieldEdited (e : Edit) (target : Target) (path stored : String) : UpdateOp → Edit → Prop
  | set {v : Value} {d : Datum} (hd : setValue target path v = .ok d) :
    FieldEdited e target path stored (.set v) { e with set := Members.insert stored d e.set }
  | setOnInsert {v : Value} {d : Datum} (hd : setValue target path v = .ok d) :
    FieldEdited e target path stored (.setOnInsert v)
      { e with setOnInsert := Members.insert stored d e.setOnInsert }
  | delete : FieldEdited e target path stored .delete
      { e with unset := NameSet.insert stored e.unset }
  | increment {amount : Value} {d : Datum}
      (hty : requireOperand target path .number (.increment amount) = .ok ())
      (hd : d.asDouble?.isSome) : FieldEdited e target path stored (.increment amount)
      { e with inc := Members.insert stored d e.inc }
  | add {vs : List Value} {ds : List Datum}
      (hty : requireOperand target path .array (.add vs) = .ok ())
      (hds : vs.mapM Stored.encodeFree = .ok ds) : FieldEdited e target path stored (.add vs)
      { e with push := Members.insert stored ds e.push }
  | addUnique {vs : List Value} {ds : List Datum}
      (hty : requireOperand target path .array (.addUnique vs) = .ok ())
      (hds : vs.mapM Stored.encodeFree = .ok ds) : FieldEdited e target path stored (.addUnique vs)
      { e with addToSet := Members.insert stored ds e.addToSet }
  | remove {vs : List Value} {ds : List Datum}
      (hty : requireOperand target path .array (.remove vs) = .ok ())
      (hds : vs.mapM Stored.encodeFree = .ok ds) : FieldEdited e target path stored (.remove vs)
      { e with pull := Members.insert stored ds e.pull }

theorem fieldEdited_of_ok {e e' : Edit} {target : Target} {path stored : String} {op : UpdateOp}
    (h : fieldEdit e target path stored op = .ok e') : FieldEdited e target path stored op e' := by
  cases op with
  | set v =>
    obtain ⟨d, hd, h⟩ := Outcome.bind_eq_ok.1 h
    obtain rfl := Except.ok.inj h
    exact .set hd
  | setOnInsert v =>
    obtain ⟨d, hd, h⟩ := Outcome.bind_eq_ok.1 h
    obtain rfl := Except.ok.inj h
    exact .setOnInsert hd
  | delete =>
    obtain rfl := Except.ok.inj h
    exact .delete
  | increment amount =>
    obtain ⟨⟨⟩, hty, h⟩ := Outcome.bind_eq_ok.1 h
    cases amount with
    | int n =>
      obtain rfl := Except.ok.inj h
      exact .increment hty rfl
    | float x =>
      obtain rfl := Except.ok.inj h
      exact .increment hty rfl
    | _ => exact absurd h (by simp [bind, Except.bind, throw, throwThe, MonadExceptOf.throw])
  | add vs =>
    obtain ⟨⟨⟩, hty, h⟩ := Outcome.bind_eq_ok.1 h
    obtain ⟨ds, hds, h⟩ := Outcome.bind_eq_ok.1 h
    obtain rfl := Except.ok.inj h
    exact .add hty hds
  | addUnique vs =>
    obtain ⟨⟨⟩, hty, h⟩ := Outcome.bind_eq_ok.1 h
    obtain ⟨ds, hds, h⟩ := Outcome.bind_eq_ok.1 h
    obtain rfl := Except.ok.inj h
    exact .addUnique hty hds
  | remove vs =>
    obtain ⟨⟨⟩, hty, h⟩ := Outcome.bind_eq_ok.1 h
    obtain ⟨ds, hds, h⟩ := Outcome.bind_eq_ok.1 h
    obtain rfl := Except.ok.inj h
    exact .remove hty hds
  | addRelation ps => exact absurd h (by simp [fieldEdit])
  | removeRelation ps => exact absurd h (by simp [fieldEdit])

/-- The names to be removed, with the keys of the access control list. -/
def withAclKeys (unset : NameSet) : NameSet := aclKeys.foldl (fun s k => NameSet.insert k s) unset

theorem mem_withAclKeys {key : String} {unset : NameSet} :
    key ∈ withAclKeys unset ↔ key ∈ aclKeys ∨ key ∈ unset := by
  simp only [withAclKeys, aclKeys, List.foldl, NameSet.mem_insert_iff, List.mem_cons,
    List.not_mem_nil, or_false]
  tauto

/-- **What an operator on the access control list adds to an edit**: all of its members are set
or all are removed. -/
inductive AclEdited (e : Edit) : UpdateOp → Edit → Prop
  | set (list : Acl) : AclEdited e (.set (.acl list))
      { e with set := Members.insertAll e.set (Stored.accessMembers list) }
  | clear : AclEdited e (.set .null) { e with unset := withAclKeys e.unset }
  | delete : AclEdited e .delete { e with unset := withAclKeys e.unset }

theorem aclEdited_of_ok {e e' : Edit} {path : String} {op : UpdateOp}
    (h : aclEdit e path op = .ok e') : AclEdited e op e' := by
  cases op with
  | set v =>
    cases v with
    | null =>
      obtain rfl := Except.ok.inj h
      exact .clear
    | acl list =>
      obtain rfl := Except.ok.inj h
      exact .set list
    | _ => exact absurd h (by simp [aclEdit, Stored.aclMembers, bind, Except.bind])
  | delete =>
    obtain rfl := Except.ok.inj h
    exact .delete
  | _ => exact absurd h (by simp [aclEdit])

/-- **Where an operator goes**: to a relation, to the access control list, or to a field. -/
inductive Routed (schema : ClassSchema) (target : Target) (out : UpdatePlan) (path : String)
    (op : UpdateOp) : UpdatePlan → Prop
  | relation {related : String} {edit : RelationEdit}
      (hty : target.wholeType? = some (.relation related)) :
    Routed schema target out path op { out with relations := out.relations ++ [edit] }
  | access {e : Edit} (hroot : Text.root path = "ACL") (he : AclEdited out.edit op e) :
    Routed schema target out path op { out with edit := e }
  | field {e : Edit} (hroot : Text.root path ≠ "ACL")
      (he : FieldEdited out.edit target path (Stored.keyPath schema path) op e) :
    Routed schema target out path op { out with edit := e }

/-- What is planned for an operator once its path has been accepted. -/
def route (schema : ClassSchema) (out : UpdatePlan) (target : Target) (path : String)
    (op : UpdateOp) : Outcome UpdatePlan :=
  match target.wholeType? with
  | some (.relation related) => do
    return { out with relations := out.relations ++ [← relationEdit path related op] }
  | _ =>
    if Text.root path = "ACL" then do return { out with edit := ← aclEdit out.edit path op }
    else do
      return { out with
        edit := ← fieldEdit out.edit target path (Stored.keyPath schema path) op }

theorem routed_of_route {out out' : UpdatePlan} {target : Target} {path : String} {op : UpdateOp}
    (h : route schema out target path op = .ok out') : Routed schema target out path op out' := by
  unfold route at h
  split at h
  · rename_i related hty
    obtain ⟨edit, -, h⟩ := Outcome.bind_eq_ok.1 h
    obtain rfl := Except.ok.inj h
    exact .relation hty
  · split at h
    · rename_i hroot
      obtain ⟨e, he, h⟩ := Outcome.bind_eq_ok.1 h
      obtain rfl := Except.ok.inj h
      exact .access hroot (aclEdited_of_ok he)
    · rename_i hroot
      obtain ⟨e, he, h⟩ := Outcome.bind_eq_ok.1 h
      obtain rfl := Except.ok.inj h
      exact .field hroot (fieldEdited_of_ok he)

/-- **An operator that is planned** is on a field that may be written, and on a subpath only of an
object; then it is sent where it goes. -/
theorem route_of_ok {out out' : UpdatePlan} {path : String} {op : UpdateOp}
    (h : updateStep schema caller out path op = .ok out') :
    Text.root path ∉ readOnlyFields ∧ ∃ target, resolve schema caller path = .ok target ∧
      (∀ ty, target = .declared ty true → ty = .object) ∧
      route schema out target path op = .ok out' := by
  obtain ⟨hwritable, h⟩ := Outcome.guard_eq_ok.1 h
  obtain ⟨-, h⟩ := Outcome.guard_eq_ok.1 h
  obtain ⟨target, htarget, h⟩ := Outcome.bind_eq_ok.1 h
  refine ⟨by simpa using hwritable, target, htarget, ?_⟩
  cases target with
  | free => exact ⟨fun _ hty => absurd hty (by simp), h⟩
  | declared ty dotted =>
    cases dotted with
    | false => exact ⟨fun _ hty => absurd hty (by simp), h⟩
    | true =>
      obtain ⟨hobject, h⟩ := Outcome.guard_eq_ok.1 h
      refine ⟨fun ty' hty => ?_, h⟩
      obtain ⟨rfl, -⟩ := Target.declared.inj hty
      exact not_not.1 hobject

theorem routed_of_ok {out out' : UpdatePlan} {path : String} {op : UpdateOp}
    (h : updateStep schema caller out path op = .ok out') :
    Text.root path ∉ readOnlyFields ∧ ∃ target, resolve schema caller path = .ok target ∧
      (∀ ty, target = .declared ty true → ty = .object) ∧
      Routed schema target out path op out' := by
  obtain ⟨hwritable, target, htarget, hobject, h⟩ := route_of_ok h
  exact ⟨hwritable, target, htarget, hobject, routed_of_route h⟩

/-! ### Plans -/

/-- What is added to an update that leaves the id alone may be any operator on another path. -/
theorem avoids_fieldEdited {edit edit' : Edit} (h : edit.Avoids Record.idKey) {target : Target}
    {path stored : String} (hstored : Text.root stored ≠ Record.idKey) {op : UpdateOp}
    (hedit : FieldEdited edit target path stored op edit') : edit'.Avoids Record.idKey := by
  have hinsert {α : Type} {members : Members α} (hmembers : ∀ m ∈ members,
      Text.root m.1 ≠ Record.idKey) (v : α) :
      ∀ m ∈ Members.insert stored v members, Text.root m.1 ≠ Record.idKey := by
    intro m hm
    rcases Members.mem_insert hm with rfl | hm
    · exact hstored
    · exact hmembers m hm
  cases hedit with
  | set => exact { h with set := hinsert h.set _ }
  | setOnInsert => exact { h with }
  | delete =>
    refine { h with unset := fun name hname => ?_ }
    rcases NameSet.mem_insert hname with rfl | hname
    · exact hstored
    · exact h.unset name hname
  | increment => exact { h with inc := hinsert h.inc _ }
  | add => exact { h with push := hinsert h.push _ }
  | addUnique => exact { h with addToSet := hinsert h.addToSet _ }
  | remove => exact { h with pull := hinsert h.pull _ }

/-- The members of an access control list are none of the id. -/
theorem root_ne_of_mem_aclKeys : ∀ key ∈ aclKeys, Text.root key ≠ Record.idKey := by decide

theorem key_mem_aclKeys {list : Acl} : ∀ m ∈ Stored.accessMembers list, m.1 ∈ aclKeys := by
  simp [Stored.accessMembers, aclKeys]

theorem avoids_aclEdited {edit edit' : Edit} (h : edit.Avoids Record.idKey) {op : UpdateOp}
    (hedit : AclEdited edit op edit') : edit'.Avoids Record.idKey := by
  have hunset (name : String) (hname : name ∈ withAclKeys edit.unset) :
      Text.root name ≠ Record.idKey :=
    (mem_withAclKeys.1 hname).elim (root_ne_of_mem_aclKeys name) (h.unset name)
  cases hedit with
  | set list =>
    refine { h with set := fun m hm => ?_ }
    rcases Members.mem_insertAll hm with hm | hm
    · exact root_ne_of_mem_aclKeys _ (key_mem_aclKeys m hm)
    · exact h.set m hm
  | clear => exact { h with unset := hunset }
  | delete => exact { h with unset := hunset }

theorem avoids_updateStep (hcaller : caller.privileged = false) {out out' : UpdatePlan}
    (h : out.edit.Avoids Record.idKey) {path : String} {op : UpdateOp}
    (hstep : updateStep schema caller out path op = .ok out') :
    out'.edit.Avoids Record.idKey := by
  obtain ⟨hwritable, target, htarget, -, hroute⟩ := routed_of_ok hstep
  have hinternal := root_of_resolve hcaller htarget
  cases hroute with
  | relation => exact h
  | access _ he => exact avoids_aclEdited h he
  | field _ he => exact avoids_fieldEdited h (root_keyPath_ne hinternal hwritable) he

/-- **The update of a caller without privilege** leaves the id of every record alone. -/
theorem avoids_update (hcaller : caller.privileged = false) {ops : UpdateMap} {out : UpdatePlan}
    (h : update schema caller ops = .ok out) : out.edit.Avoids Record.idKey := by
  obtain ⟨planned, hplanned, h⟩ := Outcome.bind_eq_ok.1 h
  obtain ⟨-, -, h⟩ := Outcome.bind_eq_ok.1 h
  obtain rfl := Except.ok.inj h
  refine Outcome.foldlM_induction (P := fun p => p.edit.Avoids Record.idKey) hplanned ?_
    fun p hp m _ p' hp' => avoids_updateStep hcaller hp hp'
  constructor <;> exact fun _ hm => absurd hm List.not_mem_nil

end Plan

end ObjectEngine
