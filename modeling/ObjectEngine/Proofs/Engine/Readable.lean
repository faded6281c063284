import Mathlib.Data.List.Pairwise
import ObjectEngine.Proofs.Engine.Updates
import ObjectEngine.Proofs.Store.Applying
import ObjectEngine.Proofs.Stored.Reading

/-!
# Updates and readable records

The update of a caller without privilege puts into a record what `Stored.encode` and
`Stored.encodeFree` store (`Plan.asked_update`), so whatever it does to a whole field is read
again, references with a malformed key aside. A path below an object field is another matter:
nothing checks its last segment the way the keys of an object are checked, so such a path can
write a type tag, or take from a tagged record what its tag asks for. These are the two ways in
which an update makes a record unreadable (`Plan.decodes_update_iff`).
-/

namespace ObjectEngine

namespace Plan

variable {schema : ClassSchema} {caller : Caller} {ops : UpdateMap} {inserting : Bool} {e : Edit}

/-! ### Touched paths -/

/-- What comes earlier neither equals nor lies above what comes later. -/
theorem pairwise_of_conflict? {touched : List (String × String)} (h : conflict? touched = none) :
    touched.Pairwise fun a b => a.1 ≠ b.1 ∧ isBelow b.1 a.1 = false := by
  induction touched with
  | nil => exact .nil
  | cons a rest ih =>
    rw [conflict?] at h
    split at h
    · exact absurd h (by simp)
    · rename_i hnone
      refine .cons (fun b hb => ?_) (ih h)
      simpa using List.find?_eq_none.1 hnone b hb

theorem conflict?_of_checkConflicts (h : checkConflicts e = .ok ()) :
    conflict? (Sorting.sort touchedLe e.touched) = none := by
  unfold checkConflicts at h
  split at h
  · exact absurd h (by simp)
  · assumption

/-- **The key of a declared field** that not every class has. -/
structure KeyOf (schema : ClassSchema) (name : String) (ty : FieldType) (key : String) : Prop where
  isIdentifier : isIdentifier name = true
  notDefault : name ∉ defaultFields
  hasType : schema.fieldType? name = some ty
  eq : key = Stored.rootKey schema name

/-- **An object field that is changed below**: some operator has a path that goes into it. -/
def Below (schema : ClassSchema) (ops : UpdateMap) (name : String) : Prop :=
  schema.fieldType? name = some .object ∧ ∃ m ∈ ops, Text.root m.1 = name ∧ m.1 ≠ name

namespace KeyOf

variable {name key : String} {ty : FieldType}

theorem split (h : KeyOf schema name ty key) : Text.split '.' key = [key] := by
  refine Text.split_of_not_mem ?_
  have hname := not_mem_of_isIdentifier h.isIdentifier
  rw [h.eq, Stored.rootKey_eq h.notDefault]
  split
  · have hmark : '.' ∉ Stored.pointerMark.toList := by decide
    simp [String.toList_append, hmark, hname]
  · exact hname

theorem ne_of_default (h : KeyOf schema name ty key) {other : String}
    (hother : Stored.fieldOf other ∈ defaultFields) : key ≠ other := by
  rintro rfl
  rw [h.eq, Stored.fieldOf_rootKey h.isIdentifier] at hother
  exact h.notDefault hother

theorem reads_iff (h : KeyOf schema name ty key) {x : Datum} :
    Stored.Reads schema (key, x) ↔ ∃ w, Stored.decode ty x = .ok w := by
  rw [h.eq]
  exact Stored.reads_rootKey_iff h.isIdentifier h.notDefault h.hasType

/-- No object field has the key of a field of another type. -/
theorem not_below (h : KeyOf schema name ty key) (hs : schema.Built) (hty : ty ≠ .object) :
    ¬Below schema ops key := by
  rintro ⟨hobject, -⟩
  have hkey : ObjectEngine.isIdentifier key = true :=
    hs.isIdentifier (Members.mem_of_lookup hobject)
  have hfield := @Stored.fieldOf_rootKey schema _ h.isIdentifier
  rw [← h.eq, Stored.fieldOf_identifier hkey] at hfield
  rw [hfield, h.hasType] at hobject
  exact hty (Option.some.inj hobject)

end KeyOf

/-- An object field has its name for a key. -/
theorem Below.keyOf {name : String} (h : Below schema ops name) (hs : schema.Built) :
    KeyOf schema name .object name := by
  have hdefault : name ∉ defaultFields := fun hmem => by
    have htypes := hs.fieldType?_of_default
    simp only [defaultFields, List.mem_cons, List.not_mem_nil, or_false] at hmem
    rcases hmem with rfl | rfl | rfl | rfl <;> simp [h.1] at htypes
  refine ⟨hs.isIdentifier (Members.mem_of_lookup h.1), hdefault, h.1, ?_⟩
  rw [Stored.rootKey_eq hdefault, h.1]

/-- What a path of a caller without privilege refers to. -/
theorem declared_of_resolve (hcaller : caller.privileged = false) {path : String}
    {target : Target} (h : resolve schema caller path = .ok target) :
    ∃ ty, schema.fieldType? (Text.root path) = some ty ∧
      (target = .declared ty false ∧ Text.root path = path ∨
        target = .declared ty true ∧
          ∃ rest, Text.splitFirst '.' path = some (Text.root path, rest)) := by
  have hroot := Text.root_eq path
  unfold resolve at h
  cases hsplit : Text.splitFirst '.' path with
  | none =>
    simp only [hsplit, pure_bind] at h
    rw [hsplit] at hroot
    obtain ⟨-, h⟩ := Outcome.guard_eq_ok.1 h
    obtain ⟨-, h⟩ := Outcome.guard_eq_ok.1 h
    obtain ⟨-, h⟩ := Outcome.guard_eq_ok.1 h
    split at h
    · rename_i ty hty
      exact ⟨ty, hroot ▸ hty, .inl ⟨(Except.ok.inj h).symm, hroot⟩⟩
    · exact absurd h (by simp [hcaller, throw, throwThe, MonadExceptOf.throw])
  | some parts =>
    obtain ⟨root, rest⟩ := parts
    simp only [hsplit, pure_bind] at h
    rw [hsplit] at hroot
    obtain rfl : Text.root path = root := hroot
    obtain ⟨-, h⟩ := Outcome.guard_eq_ok.1 h
    obtain ⟨-, h⟩ := Outcome.guard_eq_ok.1 h
    obtain ⟨-, h⟩ := Outcome.guard_eq_ok.1 h
    obtain ⟨-, h⟩ := Outcome.guard_eq_ok.1 h
    split at h
    · rename_i ty hty
      exact ⟨ty, hty, .inr ⟨(Except.ok.inj h).symm, rest, rfl⟩⟩
    · exact absurd h (by simp [hcaller, throw, throwThe, MonadExceptOf.throw])

/-- **A member that is set**: of an access control list, the value of a whole field, or something
below an object field. -/
inductive PutBy (schema : ClassSchema) (ops : UpdateMap) (op : Value → UpdateOp) :
    String × Datum → Prop
  | access {list : Acl} {m : String × Datum} (hm : m ∈ Stored.accessMembers list) :
    PutBy schema ops op m
  | whole {name key : String} {ty : FieldType} {v : Value} {x : Datum} (hop : (name, op v) ∈ ops)
      (h : KeyOf schema name ty key) (hx : Stored.encode ty v = .ok x) :
      PutBy schema ops op (key, x)
  | below {stored : String} (x : Datum) (h : Below schema ops (Text.root stored)) :
    PutBy schema ops op (stored, x)

/-- **A path to values of one type**: the key of a field of the type, or a path below an object
field. -/
def At (schema : ClassSchema) (ops : UpdateMap) (ty : FieldType) (stored : String) : Prop :=
  (∃ name, KeyOf schema name ty stored) ∨ Below schema ops (Text.root stored)

/-- **A record that is being updated**: it has its id, and its members are read, except perhaps
for object fields that are changed below. -/
structure Kept (schema : ClassSchema) (ops : UpdateMap) (id : Option Datum) (r : Record) :
    Prop where
  id : r.lookup Record.idKey = id
  reads : ∀ m ∈ r, Stored.Reads schema m ∨ Below schema ops m.1

namespace Kept

variable {id : Option Datum} {r r' : Record} {path key : String} {ty : FieldType}

theorem insert (h : Kept schema ops id r) {x : Datum} (hkey : key ≠ Record.idKey)
    (hx : Stored.Reads schema (key, x)) : Kept schema ops id (Members.insert key x r) where
  id := by rw [Members.lookup_insert, if_neg hkey.symm, h.id]
  reads m hm := by
    rcases Members.mem_insert hm with rfl | hm
    · exact .inl hx
    · exact h.reads m hm

theorem erase (h : Kept schema ops id r) (hkey : key ≠ Record.idKey) :
    Kept schema ops id (Members.erase key r) where
  id := by rw [Members.lookup_erase, if_neg hkey.symm, h.id]
  reads m hm := h.reads m (List.mem_filter.1 hm).1

/-- A step below an object field may leave anything there. -/
theorem below (h : Kept schema ops id r) (hs : schema.Built)
    (hpath : Below schema ops (Text.root path)) {step : Outcome Unit × Record}
    (hkeeps : Text.root path ≠ Record.idKey →
      step.2.lookup Record.idKey = r.lookup Record.idKey)
    (hmem : ∀ m ∈ step.2, m ∈ r ∨ Text.root path = m.1) (hstep : step = (.ok (), r')) :
    Kept schema ops id r' := by
  subst hstep
  refine ⟨(hkeeps fun he => ?_).trans h.id, fun m hm => ?_⟩
  · have hname := hs.isIdentifier (Members.mem_of_lookup hpath.1)
    rw [he] at hname
    exact absurd hname (by decide)
  · rcases hmem m hm with hm | hroot
    · exact h.reads m hm
    · exact .inr (hroot ▸ hpath)

/-- The array under the key of an array field is legible. -/
theorem legible_of_lookup (h : Kept schema ops id r) (hs : schema.Built) {name : String}
    (hkey : KeyOf schema name .array key) {items : List Datum}
    (hitems : r.lookup key = some (.array items)) : ∀ d ∈ items, d.Legible := by
  have hreads := (h.reads _ (Members.mem_of_lookup hitems)).resolve_right
    (hkey.not_below hs (by simp))
  exact Datum.legible_array_iff.1 (hkey.reads_iff.1 hreads)

/-- A member that is set is read again, references that are not aside. -/
theorem setPath (h : Kept schema ops id r) (hs : schema.Built) {op : Value → UpdateOp}
    {m : String × Datum} (hm : PutBy schema ops op m)
    (hreferences : ∀ name v, (name, op v) ∈ ops → ∀ target,
      schema.fieldType? name = some (.pointer target) → ∀ p, v.asPointer? = some p → p.Readable)
    (hstep : r.setPath m.1 m.2 = (.ok (), r')) : Kept schema ops id r' := by
  cases hm with
  | access hm =>
    have hkey : m.1 ∈ aclKeys := List.mem_map_of_mem hm
    have hplain : ∀ key ∈ aclKeys, Text.split '.' key = [key] ∧ key ≠ Record.idKey := by decide
    rw [Record.setPath_key (hplain _ hkey).1] at hstep
    obtain ⟨-, rfl⟩ := Prod.mk.inj hstep
    exact h.insert (hplain _ hkey).2 (Stored.reads_of_mem_accessMembers hm)
  | @whole name key ty v x hop hkey hx =>
    rw [Record.setPath_key hkey.split] at hstep
    obtain ⟨-, rfl⟩ := Prod.mk.inj hstep
    refine h.insert (hkey.ne_of_default (by decide)) (hkey.reads_iff.2 ?_)
    by_cases hpointer : ∃ target, ty = .pointer target
    · obtain ⟨target, rfl⟩ := hpointer
      exact (Stored.exists_decode_of_encode_pointer hx).2
        (hreferences name v hop target hkey.hasType)
    · exact Stored.exists_decode_of_encode (fun target hty => hpointer ⟨target, hty⟩) hx
  | below x hbelow =>
    exact h.below hs hbelow (fun hne => Record.lookup_setPath hne x r)
      (fun m => Record.mem_of_mem_setPath) hstep

theorem unsetPath (h : Kept schema ops id r) (hs : schema.Built)
    (hpath : path ∈ aclKeys ∨ ∃ ty, At schema ops ty path) :
    Kept schema ops id (r.unsetPath path) := by
  rcases hpath with hacl | ⟨ty, ⟨name, hkey⟩ | hbelow⟩
  · have hplain : ∀ key ∈ aclKeys, Text.split '.' key = [key] ∧ key ≠ Record.idKey := by decide
    rw [Record.unsetPath_key (hplain _ hacl).1]
    exact h.erase (hplain _ hacl).2
  · rw [Record.unsetPath_key hkey.split]
    exact h.erase (hkey.ne_of_default (by decide))
  · refine h.below hs hbelow ?_ ?_ (rfl : (Except.ok (), r.unsetPath path) = _)
    · exact fun hne => Record.lookup_unsetPath hne r
    · exact fun m => Record.mem_of_mem_unsetPath

theorem incPath (h : Kept schema ops id r) (hs : schema.Built) {amount : Datum}
    (hpath : At schema ops .number path) (hamount : amount.asDouble?.isSome)
    (hstep : Edit.incPath r path amount = (.ok (), r')) : Kept schema ops id r' := by
  rcases hpath with ⟨name, hkey⟩ | hbelow
  · obtain ⟨d, hd, rfl⟩ := Edit.incPath_key hkey.split hamount hstep
    refine h.insert (hkey.ne_of_default (by decide)) (hkey.reads_iff.2 ?_)
    cases d with
    | int _ | double _ => exact ⟨_, rfl⟩
    | _ => exact absurd hd (by simp [Datum.asDouble?])
  · exact h.below hs hbelow (fun hne => Edit.lookup_incPath hne r amount)
      (fun m => Edit.mem_of_mem_incPath) hstep

theorem arrayPath (h : Kept schema ops id r) (hs : schema.Built) {op : String}
    {change : List Datum → List Datum} (hpath : At schema ops .array path)
    (hchange : ∀ items : List Datum, (∀ d ∈ items, d.Legible) → ∀ d ∈ change items, d.Legible)
    (hstep : Edit.arrayPath op change r path = (.ok (), r')) : Kept schema ops id r' := by
  rcases hpath with ⟨name, hkey⟩ | hbelow
  · obtain ⟨items, hitems, rfl⟩ := Edit.arrayPath_key hkey.split hstep
    refine h.insert (hkey.ne_of_default (by decide)) (hkey.reads_iff.2 ?_)
    refine Datum.legible_array_iff.2 (hchange items ?_)
    rcases hitems with hitems | rfl
    · exact h.legible_of_lookup hs hkey hitems
    · exact fun d hd => absurd hd List.not_mem_nil
  · exact h.below hs hbelow (fun hne => Edit.lookup_arrayPath hne op change r)
      (fun m => Edit.mem_of_mem_arrayPath) hstep

theorem pullPath (h : Kept schema ops id r) (hs : schema.Built) {ds : List Datum}
    (hpath : At schema ops .array path) (hstep : Edit.pullPath r path ds = (.ok (), r')) :
    Kept schema ops id r' := by
  rcases hpath with ⟨name, hkey⟩ | hbelow
  · rcases Edit.pullPath_key hkey.split hstep with rfl | ⟨items, hitems, rfl⟩
    · exact h
    · refine h.insert (hkey.ne_of_default (by decide)) (hkey.reads_iff.2 ?_)
      exact Datum.legible_array_iff.2 fun d hd =>
        h.legible_of_lookup hs hkey hitems d (List.mem_filter.1 hd).1
  · exact h.below hs hbelow (fun hne => Edit.lookup_pullPath hne r ds)
      (fun m => Edit.mem_of_mem_pullPath) hstep

end Kept

variable {e' : Edit} {name path key : String} {ty : FieldType} {op : UpdateOp}

/-- The schema of a class with an object field and a reference. -/
def notedSchema : ClassSchema :=
  ⟨"Post", [("ACL", .acl), ("author", .pointer "_User"), ("createdAt", .date), ("meta", .object),
    ("objectId", .string), ("updatedAt", .date)], []⟩

theorem built_notedSchema : notedSchema.Built :=
  .of_withFields "Post" [("author", .pointer "_User"), ("meta", .object)] rfl

/-- A record of the class. -/
def noted : Record := [("_id", .string "p1"), ("meta", .record [("n", .int 1)])]

/-- Operators that put in a reference, and change the object below its root. -/
def annotate : UpdateMap :=
  [("author", .set (.pointer ⟨"_User", "u1"⟩)), ("meta.by.name", .setOnInsert (.string "Ann")),
    ("meta.tags", .add [.bool true])]

end Plan

end ObjectEngine
