import ObjectEngine.Proofs.Engine.Suiting
import ObjectEngine.Proofs.Engine.Tallying
import ObjectEngine.Proofs.Store.Operators

/-!
# Updates under the key policy

Every operator of an update asks for operations of the store (`Plan.Asks`), at the stored path of
its own path, or for an edit of a relation (`Plan.relationAsked?`). A plan is gathered from what
its operators ask for, one after another (`Edit.including`). So a plan that is accepted has no
operation that was not asked for, its paths are apart from each other, and what a caller without
privilege asks for stays below the keys of fields that are theirs to write (`Plan.Confined`).

What is gathered goes by operator and path. Two operators of one map that ask for operations of
one kind at one stored path collapse into one before the conflicts are looked for
(`Plan.Collapse`), so that the later one counts and nothing is refused. That is the only way in
which operators with overlapping stored paths are accepted, and in which an operation that is
asked for is lost; it takes a privileged caller who names an internal key
(`Plan.confined_update`).
-/

namespace ObjectEngine

/-! ### Gathering operations -/

namespace Members

variable {α : Type} {members : Members α} {key : String}

theorem mem_insert_self (key : String) (v : α) (members : Members α) :
    (key, v) ∈ insert key v members :=
  mem_of_lookup (by rw [lookup_insert, if_pos rfl])

/-- Inserting removes at most what was bound to the key. -/
theorem mem_insert_or {m : String × α} (h : m ∈ members) (key : String) (v : α) :
    m ∈ insert key v members ∨ m.1 = key := by
  induction members with
  | nil => exact absurd h List.not_mem_nil
  | cons first rest ih =>
    rw [insert]
    split
    · exact .inl (List.mem_cons_of_mem _ h)
    split
    · rcases List.mem_cons.1 h with rfl | h
      · exact .inr (Eq.symm ‹_›)
      · exact .inl (List.mem_cons_of_mem _ h)
    · rcases List.mem_cons.1 h with rfl | h
      · exact .inl List.mem_cons_self
      · exact (ih h).imp_left (List.mem_cons_of_mem _)

end Members

namespace Edit

/-- An update with one more operation, which takes the place of the one that the same operator had
at the same path. -/
def including (e : Edit) : Operation → Edit
  | .set path d => { e with set := Members.insert path d e.set }
  | .unset path => { e with unset := NameSet.insert path e.unset }
  | .inc path d => { e with inc := Members.insert path d e.inc }
  | .push path ds => { e with push := Members.insert path ds e.push }
  | .addToSet path ds => { e with addToSet := Members.insert path ds e.addToSet }
  | .pull path ds => { e with pull := Members.insert path ds e.pull }
  | .setOnInsert path d => { e with setOnInsert := Members.insert path d e.setOnInsert }

/-- Whether an update has an operation. -/
def Has (e : Edit) : Operation → Prop
  | .set path d => (path, d) ∈ e.set
  | .unset path => path ∈ e.unset
  | .inc path d => (path, d) ∈ e.inc
  | .push path ds => (path, ds) ∈ e.push
  | .addToSet path ds => (path, ds) ∈ e.addToSet
  | .pull path ds => (path, ds) ∈ e.pull
  | .setOnInsert path d => (path, d) ∈ e.setOnInsert

variable {e : Edit} {o x : Operation} {os : List Operation}

theorem mem_operations : o ∈ e.operations ↔ e.Has o := by
  cases o <;> simp [operations, always, onInsertion, Has]

/-- An operation that is added is there, and no other is. -/
theorem mem_including (h : x ∈ (e.including o).operations) : x = o ∨ x ∈ e.operations := by
  rw [mem_operations] at h ⊢
  have hinsert {α : Type} {path key : String} {v u : α} {members : Members α}
      (h : (path, v) ∈ Members.insert key u members) :
      (path = key ∧ v = u) ∨ (path, v) ∈ members :=
    (Members.mem_insert h).imp_left Prod.mk.inj
  cases o <;> cases x <;>
    first
    | exact .inr h
    | exact (hinsert h).imp_left fun h => by rw [h.1, h.2]
    | exact (NameSet.mem_insert h).imp_left fun h => by rw [h]

theorem including_self (e : Edit) (o : Operation) : o ∈ (e.including o).operations := by
  rw [mem_operations]
  cases o <;>
    first
    | exact Members.mem_insert_self _ _ _
    | exact NameSet.mem_insert_iff.2 (.inl rfl)

/-- An operation that was there is there still, unless another took its place. -/
theorem mem_including_or (h : x ∈ e.operations) (o : Operation) :
    x ∈ (e.including o).operations ∨ x.touch = o.touch := by
  rw [mem_operations] at h ⊢
  cases o <;> cases x <;>
    first
    | exact .inl h
    | exact (Members.mem_insert_or h _ _).imp_right (congrArg (Prod.mk · _))
    | exact .inl (NameSet.mem_insert_iff.2 (.inr h))

/-- **What is gathered** was there or was added. -/
theorem mem_foldl_including (h : x ∈ (os.foldl including e).operations) :
    x ∈ os ∨ x ∈ e.operations := by
  induction os generalizing e with
  | nil => exact .inr h
  | cons o os ih =>
    rcases ih h with h | h
    · exact .inl (List.mem_cons_of_mem _ h)
    · rcases mem_including h with rfl | h
      · exact .inl List.mem_cons_self
      · exact .inr h

/-- **What was there or was added** is gathered, or another operation in its place. -/
theorem exists_touch_foldl_including (h : x ∈ os ∨ x ∈ e.operations) :
    ∃ y ∈ (os.foldl including e).operations, y.touch = x.touch := by
  induction os generalizing e x with
  | nil => exact ⟨x, h.resolve_left List.not_mem_nil, rfl⟩
  | cons o os ih =>
    have hstep (hx : x = o ∨ x ∈ e.operations) :
        ∃ y ∈ (e.including o).operations, y.touch = x.touch := by
      rcases hx with rfl | hx
      · exact ⟨x, including_self e x, rfl⟩
      · rcases mem_including_or hx o with hx | htouch
        · exact ⟨x, hx, rfl⟩
        · exact ⟨o, including_self e o, htouch.symm⟩
    rcases h with h | h
    · rcases List.mem_cons.1 h with rfl | h
      · obtain ⟨y, hy, htouch⟩ := hstep (.inl rfl)
        obtain ⟨z, hz, hzy⟩ := ih (.inr hy)
        exact ⟨z, hz, hzy.trans htouch⟩
      · exact ih (.inl h)
    · obtain ⟨y, hy, htouch⟩ := hstep (.inr h)
      obtain ⟨z, hz, hzy⟩ := ih (.inr hy)
      exact ⟨z, hz, hzy.trans htouch⟩

end Edit

/-! ### What operators ask for -/

namespace Plan

open Edit (Operation)
open Stored (keyPath rootKey)

variable {schema : ClassSchema} {caller : Caller} {m n : String × UpdateOp} {o p : Operation}
  {ops done : UpdateMap} {out out' : UpdatePlan}

/-- **What an operator asks of the store**: on a field one operation at the stored path, on the
access control list one for each of the keys that store it. -/
inductive Asks (schema : ClassSchema) (caller : Caller) : String × UpdateOp → Operation → Prop
  | set {path : String} {v : Value} {target : Target} {d : Datum} (hroot : Text.root path ≠ "ACL")
    (htarget : resolve schema caller path = .ok target) (hd : setValue target path v = .ok d) :
    Asks schema caller (path, .set v) (.set (keyPath schema path) d)
  | setOnInsert {path : String} {v : Value} {target : Target} {d : Datum}
    (hroot : Text.root path ≠ "ACL") (htarget : resolve schema caller path = .ok target)
    (hd : setValue target path v = .ok d) :
    Asks schema caller (path, .setOnInsert v) (.setOnInsert (keyPath schema path) d)
  | delete {path : String} (hroot : Text.root path ≠ "ACL") :
    Asks schema caller (path, .delete) (.unset (keyPath schema path))
  | incrementInt {path : String} {n : Int64} (hroot : Text.root path ≠ "ACL") :
    Asks schema caller (path, .increment (.int n)) (.inc (keyPath schema path) (.int n))
  | incrementFloat {path : String} {x : Double} (hroot : Text.root path ≠ "ACL") :
    Asks schema caller (path, .increment (.float x)) (.inc (keyPath schema path) (.double x))
  | add {path : String} {vs : List Value} {ds : List Datum} (hroot : Text.root path ≠ "ACL")
    (hds : vs.mapM Stored.encodeFree = .ok ds) :
    Asks schema caller (path, .add vs) (.push (keyPath schema path) ds)
  | addUnique {path : String} {vs : List Value} {ds : List Datum}
    (hroot : Text.root path ≠ "ACL") (hds : vs.mapM Stored.encodeFree = .ok ds) :
    Asks schema caller (path, .addUnique vs) (.addToSet (keyPath schema path) ds)
  | remove {path : String} {vs : List Value} {ds : List Datum} (hroot : Text.root path ≠ "ACL")
    (hds : vs.mapM Stored.encodeFree = .ok ds) :
    Asks schema caller (path, .remove vs) (.pull (keyPath schema path) ds)
  | access {path : String} {list : Acl} {x : String × Datum} (hroot : Text.root path = "ACL")
    (hx : x ∈ Stored.accessMembers list) :
    Asks schema caller (path, .set (.acl list)) (.set x.1 x.2)
  | clearAccess {path key : String} (hroot : Text.root path = "ACL") (hkey : key ∈ aclKeys) :
    Asks schema caller (path, .set .null) (.unset key)
  | deleteAccess {path key : String} (hroot : Text.root path = "ACL") (hkey : key ∈ aclKeys) :
    Asks schema caller (path, .delete) (.unset key)

/-- The edit of a relation that an operator on a relation field asks for. -/
def relationAsked? (schema : ClassSchema) (m : String × UpdateOp) : Option RelationEdit :=
  match schema.fieldType? m.1, m.2.relationEdit? with
  | some (.relation target), some (add, remove) => some { field := m.1, target, add, remove }
  | _, _ => none

/-- **The path of what is asked** is that of the field, or a key of the access control list. -/
theorem Asks.path (h : Asks schema caller m o) :
    (Text.root m.1 ≠ "ACL" ∧ o.path = keyPath schema m.1) ∨
      (Text.root m.1 = "ACL" ∧ o.path ∈ aclKeys) := by
  cases h with
  | access hroot hx => exact .inr ⟨hroot, key_mem_aclKeys _ hx⟩
  | clearAccess hroot hkey | deleteAccess hroot hkey => exact .inr ⟨hroot, hkey⟩
  | _ => exact .inl ⟨‹_›, rfl⟩

/-- On a field, an operator asks for one operation. -/
theorem Asks.unique (hroot : Text.root m.1 ≠ "ACL") (h : Asks schema caller m o)
    (h' : Asks schema caller m p) : p = o := by
  cases h with
  | set _ htarget hd =>
    cases h' with
    | set _ htarget' hd' =>
      obtain rfl := Except.ok.inj (htarget.symm.trans htarget')
      rw [Except.ok.inj (hd.symm.trans hd')]
    | access hacl | clearAccess hacl => exact absurd hacl hroot
  | setOnInsert _ htarget hd =>
    cases h' with
    | setOnInsert _ htarget' hd' =>
      obtain rfl := Except.ok.inj (htarget.symm.trans htarget')
      rw [Except.ok.inj (hd.symm.trans hd')]
  | delete =>
    cases h' with
    | delete => rfl
    | deleteAccess hacl => exact absurd hacl hroot
  | incrementInt | incrementFloat =>
    cases h'
    rfl
  | add _ hds =>
    cases h' with
    | add _ hds' => rw [Except.ok.inj (hds.symm.trans hds')]
  | addUnique _ hds =>
    cases h' with
    | addUnique _ hds' => rw [Except.ok.inj (hds.symm.trans hds')]
  | remove _ hds =>
    cases h' with
    | remove _ hds' => rw [Except.ok.inj (hds.symm.trans hds')]
  | access hacl | clearAccess hacl | deleteAccess hacl => exact absurd hacl hroot

theorem not_asks_of_relationEdit? (h : m.2.relationEdit?.isSome) : ¬Asks schema caller m o := by
  intro ho
  cases ho <;> exact absurd h (by simp [UpdateOp.relationEdit?])

theorem relationAsked?_of_none (h : m.2.relationEdit? = none) : relationAsked? schema m = none := by
  unfold relationAsked?
  rw [h]
  split <;> simp_all

/-! ### One operator -/

variable {path : String} {op : UpdateOp}

/-- **What an operator adds to a plan**: the edit of a relation that it asks for, or the operations
that it asks for. -/
inductive Adds (schema : ClassSchema) (caller : Caller) (out : UpdatePlan) (m : String × UpdateOp) :
    UpdatePlan → Prop
  | relation {edit : RelationEdit} (hedit : relationAsked? schema m = some edit)
    (hnone : ∀ o, ¬Asks schema caller m o) :
    Adds schema caller out m { out with relations := out.relations ++ [edit] }
  | operations (os : List Operation) (hedit : relationAsked? schema m = none) (hne : os ≠ [])
    (hos : ∀ o, Asks schema caller m o ↔ o ∈ os)
    (hdistinct : ∀ o ∈ os, ∀ p ∈ os, o.touch = p.touch → o = p) :
    Adds schema caller out m { out with edit := os.foldl Edit.including out.edit }

/-- All of the keys of the access control list are removed by such an operator. -/
theorem adds_unset_aclKeys (hroot : Text.root path = "ACL") (hop : op = .set .null ∨ op = .delete) :
    Adds schema caller out (path, op)
      { out with edit := { out.edit with unset := withAclKeys out.edit.unset } } := by
  refine .operations (aclKeys.map .unset) (relationAsked?_of_none ?_) (by simp [aclKeys])
    (fun o => ?_) fun o ho p hp htouch => ?_
  · rcases hop with rfl | rfl <;> rfl
  rotate_left
  · obtain ⟨key, -, rfl⟩ := List.mem_map.1 ho
    obtain ⟨key', -, rfl⟩ := List.mem_map.1 hp
    exact congrArg Operation.unset (Prod.mk.inj htouch).1
  constructor
  · intro ho
    rcases hop with rfl | rfl
    · cases ho with
      | set hne => exact absurd hroot hne
      | clearAccess _ hkey => exact List.mem_map_of_mem hkey
    · cases ho with
      | delete hne => exact absurd hroot hne
      | deleteAccess _ hkey => exact List.mem_map_of_mem hkey
  · intro ho
    obtain ⟨key, hkey, rfl⟩ := List.mem_map.1 ho
    rcases hop with rfl | rfl
    · exact .clearAccess hroot hkey
    · exact .deleteAccess hroot hkey

theorem sorted_accessMembers (list : Acl) : Members.Sorted (Stored.accessMembers list) :=
  Members.sorted_of_keys aclKeys (by decide) rfl

theorem adds_of_aclEdit {e : Edit} (hroot : Text.root path = "ACL")
    (h : aclEdit out.edit path op = .ok e) :
    Adds schema caller out (path, op) { out with edit := e } := by
  cases aclEdited_of_ok h with
  | set list =>
    refine .operations ((Stored.accessMembers list).map fun x => .set x.1 x.2)
      (relationAsked?_of_none ?_) (by simp [Stored.accessMembers]) (fun o => ?_)
      fun o ho p hp htouch => ?_
    · rfl
    rotate_left
    · obtain ⟨x, hx, rfl⟩ := List.mem_map.1 ho
      obtain ⟨y, hy, rfl⟩ := List.mem_map.1 hp
      rw [(sorted_accessMembers list).eq_of_key hx hy (Prod.mk.inj htouch).1]
    constructor
    · intro ho
      cases ho with
      | set hne => exact absurd hroot hne
      | access _ hx => exact List.mem_map_of_mem hx
    · intro ho
      obtain ⟨x, hx, rfl⟩ := List.mem_map.1 ho
      exact .access hroot hx
  | clear => exact adds_unset_aclKeys hroot (.inl rfl)
  | delete => exact adds_unset_aclKeys hroot (.inr rfl)

/-- The operation that an operator on a field asks for is added. -/
theorem adds_including (hroot : Text.root path ≠ "ACL") (hedit : op.relationEdit? = none)
    (ho : Asks schema caller (path, op) o) :
    Adds schema caller out (path, op) { out with edit := out.edit.including o } := by
  refine .operations [o] (relationAsked?_of_none hedit) (List.cons_ne_nil _ _) (fun p => ?_)
    fun p hp q hq _ => (List.mem_singleton.1 hp).trans (List.mem_singleton.1 hq).symm
  rw [List.mem_singleton]
  constructor
  · exact ho.unique hroot
  · rintro rfl
    exact ho

theorem adds_of_fieldEdit {e : Edit} {target : Target} (hroot : Text.root path ≠ "ACL")
    (htarget : resolve schema caller path = .ok target)
    (h : fieldEdit out.edit target path (keyPath schema path) op = .ok e) :
    Adds schema caller out (path, op) { out with edit := e } := by
  cases op with
  | set v =>
    obtain ⟨d, hd, h⟩ := Outcome.bind_eq_ok.1 h
    obtain rfl := Except.ok.inj h
    exact adds_including hroot rfl (.set hroot htarget hd)
  | setOnInsert v =>
    obtain ⟨d, hd, h⟩ := Outcome.bind_eq_ok.1 h
    obtain rfl := Except.ok.inj h
    exact adds_including hroot rfl (.setOnInsert hroot htarget hd)
  | delete =>
    obtain rfl := Except.ok.inj h
    exact adds_including hroot rfl (.delete hroot)
  | increment amount =>
    obtain ⟨-, -, h⟩ := Outcome.bind_eq_ok.1 h
    cases amount with
    | int n =>
      obtain rfl := Except.ok.inj h
      exact adds_including hroot rfl (.incrementInt hroot)
    | float x =>
      obtain rfl := Except.ok.inj h
      exact adds_including hroot rfl (.incrementFloat hroot)
    | _ => exact absurd h (by simp [bind, Except.bind, throw, throwThe, MonadExceptOf.throw])
  | add vs =>
    obtain ⟨-, -, h⟩ := Outcome.bind_eq_ok.1 h
    obtain ⟨ds, hds, h⟩ := Outcome.bind_eq_ok.1 h
    obtain rfl := Except.ok.inj h
    exact adds_including hroot rfl (.add hroot hds)
  | addUnique vs =>
    obtain ⟨-, -, h⟩ := Outcome.bind_eq_ok.1 h
    obtain ⟨ds, hds, h⟩ := Outcome.bind_eq_ok.1 h
    obtain rfl := Except.ok.inj h
    exact adds_including hroot rfl (.addUnique hroot hds)
  | remove vs =>
    obtain ⟨-, -, h⟩ := Outcome.bind_eq_ok.1 h
    obtain ⟨ds, hds, h⟩ := Outcome.bind_eq_ok.1 h
    obtain rfl := Except.ok.inj h
    exact adds_including hroot rfl (.remove hroot hds)
  | addRelation ps => exact absurd h (by simp [fieldEdit])
  | removeRelation ps => exact absurd h (by simp [fieldEdit])

/-- What a whole path refers to. -/
theorem fieldType?_of_wholeType? {target : Target} {ty : FieldType}
    (h : resolve schema caller path = .ok target) (hty : target.wholeType? = some ty) :
    schema.fieldType? path = some ty := by
  cases target with
  | free => exact absurd hty (by simp [Target.wholeType?])
  | declared ty' dotted =>
    cases dotted with
    | true => exact absurd hty (by simp [Target.wholeType?])
    | false => exact Option.some.inj hty ▸ fieldType?_of_resolve h

theorem target_of_relationEdit {target : String} {edit : RelationEdit}
    (h : relationEdit path target op = .ok edit) : edit.target = target := by
  cases op with
  | addRelation ps | removeRelation ps =>
    obtain ⟨ids, -, h⟩ := Outcome.bind_eq_ok.1 h
    obtain rfl := Except.ok.inj h
    rfl
  | _ => exact absurd h (by simp [relationEdit])

/-- **An operator that is accepted** adds what it asks for. -/
theorem adds_of_updateStep (h : updateStep schema caller out m.1 m.2 = .ok out') :
    Adds schema caller out m out' := by
  obtain ⟨path, op⟩ := m
  obtain ⟨-, target, htarget, -, h⟩ := route_of_ok h
  unfold route at h
  split at h
  case h_1 related hty =>
    obtain ⟨edit, hedit, h⟩ := Outcome.bind_eq_ok.1 h
    obtain rfl := Except.ok.inj h
    obtain ⟨hfield, hids⟩ := relationEdit_eq_ok hedit
    refine .relation ?_ fun o => not_asks_of_relationEdit? (hids ▸ rfl)
    rw [relationAsked?, hids, fieldType?_of_wholeType? htarget hty, ← hfield,
      ← target_of_relationEdit hedit]
  case h_2 =>
    split at h
    · obtain ⟨e, he, h⟩ := Outcome.bind_eq_ok.1 h
      obtain rfl := Except.ok.inj h
      exact adds_of_aclEdit ‹_› he
    · obtain ⟨e, he, h⟩ := Outcome.bind_eq_ok.1 h
      obtain rfl := Except.ok.inj h
      exact adds_of_fieldEdit ‹_› htarget he

/-! ### A map of operators -/

/-- **A plan that is gathered** from what operators ask for. -/
structure Gathered (schema : ClassSchema) (caller : Caller) (done : UpdateMap) (out : UpdatePlan) :
    Prop where
  relations : out.relations = done.filterMap (relationAsked? schema)
  sound : ∀ o ∈ out.edit.operations, ∃ m ∈ done, Asks schema caller m o
  touched : ∀ m ∈ done, ∀ o, Asks schema caller m o → ∃ p ∈ out.edit.operations, p.touch = o.touch
  distinct : ∀ m ∈ done, ∀ o p, Asks schema caller m o → Asks schema caller m p →
    o.touch = p.touch → o = p
  answered : ∀ m ∈ done, (relationAsked? schema m).isSome ∨ ∃ o, Asks schema caller m o

theorem gathered_nil : Gathered schema caller [] {} :=
  ⟨rfl, fun _ ho => absurd ho List.not_mem_nil, fun _ hm => absurd hm List.not_mem_nil,
    fun _ hm => absurd hm List.not_mem_nil, fun _ hm => absurd hm List.not_mem_nil⟩

/-- **The step**: one operator more. -/
theorem Gathered.snoc (h : Gathered schema caller done out) (hm : Adds schema caller out m out') :
    Gathered schema caller (done ++ [m]) out' := by
  have hlast {P : String × UpdateOp → Prop} (hdone : ∀ m ∈ done, P m) (hP : P m) :
      ∀ x ∈ done ++ [m], P x := by
    intro x hx
    rcases List.mem_append.1 hx with hx | hx
    · exact hdone x hx
    · exact List.mem_singleton.1 hx ▸ hP
  cases hm with
  | relation hedit hnone =>
    refine ⟨?_, fun o ho => ?_, hlast h.touched fun o ho => absurd ho (hnone o),
      hlast h.distinct fun o _ ho => absurd ho (hnone o), hlast h.answered (.inl (hedit ▸ rfl))⟩
    · simp [List.filterMap_append, h.relations, hedit]
    · obtain ⟨x, hx, hasks⟩ := h.sound o ho
      exact ⟨x, List.mem_append_left _ hx, hasks⟩
  | operations os hedit hne hos hdistinct =>
    refine ⟨?_, fun o ho => ?_, hlast (fun x hx o ho => ?_) fun o ho => ?_,
      hlast h.distinct fun o p ho hp => hdistinct o ((hos o).1 ho) p ((hos p).1 hp),
      hlast h.answered (.inr ?_)⟩
    · simp [List.filterMap_append, h.relations, hedit]
    · rcases Edit.mem_foldl_including ho with ho | ho
      · exact ⟨m, List.mem_append_right _ List.mem_cons_self, (hos o).2 ho⟩
      · obtain ⟨x, hx, hasks⟩ := h.sound o ho
        exact ⟨x, List.mem_append_left _ hx, hasks⟩
    · obtain ⟨p, hp, htouch⟩ := h.touched x hx o ho
      obtain ⟨q, hq, hqp⟩ := Edit.exists_touch_foldl_including (.inr hp)
      exact ⟨q, hq, hqp.trans htouch⟩
    · exact Edit.exists_touch_foldl_including (.inl ((hos o).1 ho))
    · obtain ⟨o, os, rfl⟩ := List.exists_cons_of_ne_nil hne
      exact ⟨o, (hos o).2 List.mem_cons_self⟩

/-- **The run**: one operator after another. -/
theorem Gathered.foldlM (hdone : Gathered schema caller done out)
    (h : ops.foldlM (fun out m => updateStep schema caller out m.1 m.2) out = .ok out') :
    Gathered schema caller (done ++ ops) out' ∧
      ∀ m ∈ ops, ∃ out out', updateStep schema caller out m.1 m.2 = .ok out' := by
  induction ops generalizing done out with
  | nil =>
    obtain rfl := Except.ok.inj h
    rw [List.append_nil]
    exact ⟨hdone, fun m hm => absurd hm List.not_mem_nil⟩
  | cons m rest ih =>
    rw [List.foldlM_cons] at h
    obtain ⟨next, hnext, h⟩ := Outcome.bind_eq_ok.1 h
    obtain ⟨hgathered, hrest⟩ := ih (hdone.snoc (adds_of_updateStep hnext)) h
    rw [List.append_assoc, List.singleton_append] at hgathered
    exact ⟨hgathered, List.forall_mem_cons.2 ⟨⟨_, _, hnext⟩, hrest⟩⟩

/-- **A plan that is accepted** is gathered from its operators, each of which is accepted, and has
no conflicts. -/
theorem gathered_of_update (h : update schema caller ops = .ok out) :
    Gathered schema caller ops out ∧ checkConflicts out.edit = .ok () ∧
      ∀ m ∈ ops, ∃ out out', updateStep schema caller out m.1 m.2 = .ok out' := by
  obtain ⟨planned, hplanned, h⟩ := Outcome.bind_eq_ok.1 h
  obtain ⟨⟨⟩, hconflicts, h⟩ := Outcome.bind_eq_ok.1 h
  obtain rfl := Except.ok.inj h
  obtain ⟨hgathered, hsteps⟩ := gathered_nil.foldlM hplanned
  exact ⟨hgathered, hconflicts, hsteps⟩

/-! ### Operators that collapse -/

/-- **Two operators collapse**: they ask for operations of one kind at one stored path. -/
def Collapse (schema : ClassSchema) (caller : Caller) (ops : UpdateMap) : Prop :=
  ∃ m ∈ ops, ∃ n ∈ ops, m ≠ n ∧
    ∃ o p, Asks schema caller m o ∧ Asks schema caller n p ∧ o.touch = p.touch

/-- **Stored paths overlap**: different operators ask for operations at paths of which one is the
other or lies below it. -/
def Overlap (schema : ClassSchema) (caller : Caller) (ops : UpdateMap) : Prop :=
  ∃ m ∈ ops, ∃ n ∈ ops, m ≠ n ∧
    ∃ o p, Asks schema caller m o ∧ Asks schema caller n p ∧ ¬Text.Apart o.path p.path

/-- **A field that a caller may write**, by its key in the store. -/
def OwnKey (schema : ClassSchema) (caller : Caller) (key : String) : Prop :=
  ∃ name ty, schema.fieldType? name = some ty ∧ (∀ target, ty ≠ .relation target) ∧
    name ∉ defaultFields ∧ caller.isProtected name = false ∧ key = rootKey schema name

/-- **An update under the key policy**: its paths are apart from each other, it does only what its
operators ask for, the operators on relations edit relations and nothing else, and without
privilege it stays below the keys of fields that the caller may write, or those of the access
control list if an operator is on it. -/
structure Confined (schema : ClassSchema) (caller : Caller) (ops : UpdateMap) (out : UpdatePlan) :
    Prop extends Gathered schema caller ops out where
  apart : (out.edit.touched.map Prod.fst).Pairwise Text.Apart
  own : caller.privileged = false → ∀ o ∈ out.edit.operations,
    OwnKey schema caller (Text.root o.path) ∨
      (o.path ∈ aclKeys ∧ "ACL" ∈ Members.keys ops)

/-! ### What operators collapse -/

/-- What a path into a declared field refers to. -/
theorem target_of_resolve {target : Target} {ty : FieldType}
    (h : resolve schema caller path = .ok target)
    (hty : schema.fieldType? (Text.root path) = some ty) :
    (target = .declared ty false ∧ Text.root path = path) ∨ target = .declared ty true := by
  have hroot := Text.root_eq path
  unfold resolve at h
  cases hsplit : Text.splitFirst '.' path with
  | none =>
    rw [hsplit] at hroot
    rw [show Text.root path = path from hroot] at hty
    simp only [hsplit, pure_bind] at h
    obtain ⟨-, h⟩ := Outcome.guard_eq_ok.1 h
    obtain ⟨-, h⟩ := Outcome.guard_eq_ok.1 h
    obtain ⟨-, h⟩ := Outcome.guard_eq_ok.1 h
    rw [hty] at h
    exact .inl ⟨(Except.ok.inj h).symm, hroot⟩
  | some parts =>
    rw [hsplit] at hroot
    rw [show Text.root path = parts.1 from hroot] at hty
    simp only [hsplit, pure_bind] at h
    obtain ⟨-, h⟩ := Outcome.guard_eq_ok.1 h
    obtain ⟨-, h⟩ := Outcome.guard_eq_ok.1 h
    obtain ⟨-, h⟩ := Outcome.guard_eq_ok.1 h
    obtain ⟨-, h⟩ := Outcome.guard_eq_ok.1 h
    rw [hty] at h
    exact .inr (Except.ok.inj h).symm

/-- An operator on the access control list is on the whole of it. -/
theorem eq_of_root_acl (hs : schema.Built) (h : updateStep schema caller out path op = .ok out')
    (hroot : Text.root path = "ACL") : path = "ACL" := by
  obtain ⟨-, target, htarget, hobject, -⟩ := route_of_ok h
  have hty : schema.fieldType? "ACL" = some .acl := hs.fieldType?_of_default ("ACL", .acl) (by simp)
  rcases target_of_resolve htarget (hroot.symm ▸ hty) with ⟨-, hwhole⟩ | hdotted
  · exact hwhole.symm.trans hroot
  · exact absurd (hobject _ hdotted) (by simp)

/-- The key of a pointer is internal. -/
theorem isInternalField_of_pointerMark {name : String}
    (h : (Text.afterStart? Stored.pointerMark name).isSome) : isInternalField name = true := by
  rw [Text.afterStart?, Option.isSome_map,
    show Stored.pointerMark.toList = ['_', 'p', '_'] by decide] at h
  rw [isInternalField]
  cases hchars : name.toList with
  | nil => exact absurd h (by simp [hchars, Text.dropStart?])
  | cons c rest =>
    by_cases hc : '_' = c
    · rw [← hc]
      rfl
    · exact absurd h (by simp [hchars, Text.dropStart?, hc])

/-- An accepted operator on a field, but not on an internal one, is on a field of the caller's
own. -/
theorem own_of_updateStep (h : updateStep schema caller out path op = .ok out')
    (hacl : Text.root path ≠ "ACL") (hinternal : isInternalField (Text.root path) = false) :
    Stored.Own (Text.root path) := by
  obtain ⟨hwritable, -⟩ := route_of_ok h
  generalize Text.root path = root at hwritable hacl hinternal
  refine ⟨?_, ?_⟩
  · simp only [readOnlyFields, defaultFields, List.mem_cons, List.not_mem_nil, or_false,
      not_or] at hwritable ⊢
    exact ⟨hwritable.1, hwritable.2.1, hwritable.2.2, hacl⟩
  · rintro (hstamp | hpointer)
    · exact absurd hinternal
        ((by decide : ∀ key ∈ Stored.stampKeys, ¬isInternalField key = false) root hstamp)
    · exact absurd (isInternalField_of_pointerMark hpointer) (by simp [hinternal])

/-- The key of a field of the caller's own is none that stores the access control list. -/
theorem rootKey_not_mem_aclKeys {name : String} (h : Stored.Own name)
    (hinternal : isInternalField name = false) : rootKey schema name ∉ aclKeys := by
  rw [Stored.rootKey_eq h.notDefault]
  split
  · intro hmem
    have hmark := (by decide :
      ∀ key ∈ aclKeys, (Text.afterStart? Stored.pointerMark key).isSome = false) _ hmem
    rw [Text.afterStart?_append] at hmark
    exact absurd hmark (by simp)
  · exact fun hmem => absurd hinternal
      ((by decide : ∀ key ∈ aclKeys, ¬isInternalField key = false) name hmem)

/-- **Operators on fields that are not internal** do not collapse. -/
theorem eq_of_touch (hs : schema.Built) (hops : ops.Sorted) (hm : m ∈ ops) (hn : n ∈ ops)
    (hsteps : ∀ m ∈ ops, ∃ out out', updateStep schema caller out m.1 m.2 = .ok out')
    (hinternal : ∀ m ∈ ops, isInternalField (Text.root m.1) = false)
    (ho : Asks schema caller m o) (hp : Asks schema caller n p) (h : o.touch = p.touch) :
    m = n := by
  obtain ⟨_, _, hstepm⟩ := hsteps m hm
  obtain ⟨_, _, hstepn⟩ := hsteps n hn
  have hpath : o.path = p.path := (Prod.mk.inj h).1
  have hrootKey : ∀ key ∈ aclKeys, Text.root key = key := by decide
  refine hops.eq_of_key hm hn ?_
  rcases ho.path with ⟨hacl, hom⟩ | ⟨hacl, hom⟩ <;> rcases hp.path with ⟨hacl', hpn⟩ | ⟨hacl', hpn⟩
  · have hkey : keyPath schema m.1 = keyPath schema n.1 := by rw [← hom, ← hpn, hpath]
    exact Stored.keyPath_inj (own_of_updateStep hstepm hacl (hinternal m hm))
      (own_of_updateStep hstepn hacl' (hinternal n hn)) hkey
  · have hkey : rootKey schema (Text.root m.1) ∉ aclKeys := rootKey_not_mem_aclKeys
      (own_of_updateStep hstepm hacl (hinternal m hm)) (hinternal m hm)
    rw [← Stored.root_keyPath, ← hom, hpath, hrootKey _ hpn] at hkey
    exact absurd hpn hkey
  · have hkey : rootKey schema (Text.root n.1) ∉ aclKeys := rootKey_not_mem_aclKeys
      (own_of_updateStep hstepn hacl' (hinternal n hn)) (hinternal n hn)
    rw [← Stored.root_keyPath, ← hpn, ← hpath, hrootKey _ hom] at hkey
    exact absurd hom hkey
  · rw [eq_of_root_acl hs hstepm hacl, eq_of_root_acl hs hstepn hacl']

/-- **Operators that collapse** are a privileged caller's, one of them on an internal field. -/
theorem internal_of_collapse (hs : schema.Built) (hops : ops.Sorted)
    (hsteps : ∀ m ∈ ops, ∃ out out', updateStep schema caller out m.1 m.2 = .ok out')
    (h : Collapse schema caller ops) :
    caller.privileged = true ∧ ∃ m ∈ ops, isInternalField (Text.root m.1) = true := by
  obtain ⟨m, hm, n, hn, hne, o, p, ho, hp, htouch⟩ := h
  have hinternal : ∃ m ∈ ops, isInternalField (Text.root m.1) = true := by
    by_contra hnone
    refine hne (eq_of_touch hs hops hm hn hsteps (fun x hx => ?_) ho hp htouch)
    exact Bool.eq_false_iff.2 fun hx' => hnone ⟨x, hx, hx'⟩
  refine ⟨?_, hinternal⟩
  by_contra hcaller
  obtain ⟨x, hx, hx'⟩ := hinternal
  obtain ⟨_, _, hstep⟩ := hsteps x hx
  obtain ⟨-, target, htarget, -⟩ := route_of_ok hstep
  rw [root_of_resolve (Bool.eq_false_iff.2 hcaller) htarget] at hx'
  exact absurd hx' (by simp)

/-! ### The whole update -/

/-- **Without privilege** an update stays below keys of the caller's own. -/
theorem own_of_mem_operations (hs : schema.Built) (hcaller : caller.privileged = false)
    (hstep : updateStep schema caller out m.1 m.2 = .ok out') (hm : m ∈ ops)
    (ho : Asks schema caller m o) :
    OwnKey schema caller (Text.root o.path) ∨ (o.path ∈ aclKeys ∧ "ACL" ∈ Members.keys ops) := by
  obtain ⟨hwritable, target, htarget, hobject, hroute⟩ := route_of_ok hstep
  rcases ho.path with ⟨hacl, hpath⟩ | ⟨hacl, hpath⟩
  · refine .inl ⟨Text.root m.1, ?_⟩
    obtain ⟨ty, hty, hwhole⟩ := declared_of_resolve hcaller htarget
    refine ⟨ty, hty, ?_, ?_, not_isProtected_of_resolve htarget, ?_⟩
    · rintro related rfl
      rcases hwhole with ⟨rfl, hroot⟩ | ⟨rfl, -⟩
      · -- An operator that is accepted on a relation asks for no operation.
        obtain ⟨edit, hedit, -⟩ := Outcome.bind_eq_ok.1 hroute
        exact not_asks_of_relationEdit? ((relationEdit_eq_ok hedit).2 ▸ rfl) ho
      · exact absurd (hobject _ rfl) (by simp)
    · simp only [readOnlyFields, defaultFields, List.mem_cons, List.not_mem_nil, or_false,
        not_or] at hwritable ⊢
      exact ⟨hwritable.1, hwritable.2.1, hwritable.2.2, hacl⟩
    · rw [hpath, Stored.root_keyPath]
  · exact .inr ⟨hpath, eq_of_root_acl hs hstep hacl ▸ List.mem_map_of_mem hm⟩

/-- Different touches of a plan without conflicts are at paths apart from each other. -/
theorem apart_of_touch_ne (h : (out.edit.touched.map Prod.fst).Pairwise Text.Apart)
    (ho : o ∈ out.edit.operations) (hp : p ∈ out.edit.operations) (hne : o.touch ≠ p.touch) :
    Text.Apart o.path p.path := by
  rw [List.pairwise_map] at h
  have : Std.Symm fun t t' : String × String => Text.Apart t.1 t'.1 :=
    ⟨fun _ _ hapart => hapart.symm⟩
  have hmem {o : Operation} (ho : o ∈ out.edit.operations) : o.touch ∈ out.edit.touched :=
    out.edit.touched_eq ▸ List.mem_map_of_mem ho
  exact h.forall (hmem ho) (hmem hp) hne

/-- **An update that is accepted** is confined; its operators overlap if and only if two of them
collapse, which takes a privileged caller who names an internal field; and if none collapse, it has
every operation that is asked for. -/
theorem confined_update (hs : schema.Built) (hops : ops.Sorted)
    (h : update schema caller ops = .ok out) :
    Confined schema caller ops out ∧
      (Overlap schema caller ops ↔ Collapse schema caller ops) ∧
      (¬Collapse schema caller ops →
        ∀ m ∈ ops, ∀ o, Asks schema caller m o → o ∈ out.edit.operations) ∧
      (Collapse schema caller ops →
        caller.privileged = true ∧ ∃ m ∈ ops, isInternalField (Text.root m.1) = true) := by
  obtain ⟨hgathered, hconflicts, hsteps⟩ := gathered_of_update h
  have hapart := pairwise_apart hconflicts
  refine ⟨⟨hgathered, hapart, fun hcaller o ho => ?_⟩, ⟨?_, ?_⟩, fun hnot m hm o ho => ?_,
    internal_of_collapse hs hops hsteps⟩
  · obtain ⟨m, hm, hasks⟩ := hgathered.sound o ho
    obtain ⟨_, _, hstep⟩ := hsteps m hm
    exact own_of_mem_operations hs hcaller hstep hm hasks
  · rintro ⟨m, hm, n, hn, hne, o, p, ho, hp, hoverlap⟩
    obtain ⟨o', ho', hoo'⟩ := hgathered.touched m hm o ho
    obtain ⟨p', hp', hpp'⟩ := hgathered.touched n hn p hp
    refine ⟨m, hm, n, hn, hne, o, p, ho, hp, ?_⟩
    by_contra htouch
    have hapart' := apart_of_touch_ne hapart ho' hp' (by rwa [hoo', hpp'])
    rw [(Prod.mk.inj hoo').1, (Prod.mk.inj hpp').1] at hapart'
    exact hoverlap hapart'
  · rintro ⟨m, hm, n, hn, hne, o, p, ho, hp, htouch⟩
    refine ⟨m, hm, n, hn, hne, o, p, ho, hp, fun hapart => hapart.1 ?_⟩
    exact (Prod.mk.inj htouch).1 ▸ List.prefix_refl _
  · obtain ⟨p, hp, htouch⟩ := hgathered.touched m hm o ho
    obtain ⟨n, hn, hasks⟩ := hgathered.sound p hp
    by_cases hmn : m = n
    · subst hmn
      exact hgathered.distinct m hm o p ho hasks htouch.symm ▸ hp
    · exact absurd ⟨m, hm, n, hn, hmn, o, p, ho, hasks, htouch.symm⟩ hnot

theorem confined_update_annotate : ∃ out, update notedSchema {} annotate = .ok out ∧
    Confined notedSchema {} annotate out ∧ ¬Overlap notedSchema {} annotate := by
  have hplan : ∃ out, update notedSchema {} annotate = .ok out := ⟨_, rfl⟩
  obtain ⟨out, hout⟩ := hplan
  obtain ⟨hconfined, hoverlap, -, hcollapse⟩ :=
    confined_update built_notedSchema (by decide) hout
  refine ⟨out, hout, hconfined, fun h => ?_⟩
  exact absurd (hcollapse (hoverlap.1 h)).1 (by simp)

/-- A reference that is set under the name of its field and under its key in the store. -/
def setTwice : UpdateMap :=
  [("_p_author", .set (.string "nobody")), ("author", .set (.pointer ⟨"_User", "u1"⟩))]

/-- **Two operators on one stored path** are accepted: the later one counts, and the other is
lost. -/
theorem not_rejected_setTwice :
    ¬∀ (schema : ClassSchema) (caller : Caller) (ops : UpdateMap) (out : UpdatePlan), schema.Built →
      ops.Sorted → update schema caller ops = .ok out → ¬Overlap schema caller ops := by
  intro h
  refine h notedSchema { privileged := true } setTwice
    { edit := { set := [("_p_author", .string "_User$u1")] } } built_notedSchema (by decide) rfl ?_
  refine ⟨_, List.mem_cons_self, _, List.mem_cons_of_mem _ List.mem_cons_self, ?_, _, _,
    .set (by decide) rfl rfl, .set (by decide) rfl rfl, by decide⟩
  exact fun heq => absurd (Prod.mk.inj heq).1 (by decide)

end Plan

end ObjectEngine
