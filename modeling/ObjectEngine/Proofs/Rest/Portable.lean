import ObjectEngine.Members.Lemmas
import ObjectEngine.Proofs.Time.Timestamps
import ObjectEngine.Value.Rest

/-!
# Values that the REST dialect carries

`Value.Portable` are the values that have a form of their own in the REST dialect: numbers are
finite, no plain object has a text as its type tag, and an access control list is nothing but
the field `ACL` of a document. Of times, whole milliseconds are written: `Value.times` are the
dates of a value and the times of its documents at every depth, `Value.truncated` is the value
with all of them in whole milliseconds, and the two are written alike
(`Value.toRest_truncated`).
-/

namespace ObjectEngine

/-! ### Times -/

mutual

/-- **The times of a value**: its dates and the times of its documents, at every depth. -/
def Value.times : Value → List Instant
  | .date t => [t]
  | .array items => timesOfItems items
  | .object members => timesOfMembers members
  | .included d => d.createdAt.toList ++ d.updatedAt.toList ++ timesOfMembers d.fields
  | _ => []

/-- The times of all items. -/
def Value.timesOfItems : List Value → List Instant
  | [] => []
  | v :: rest => v.times ++ timesOfItems rest

/-- The times of the values of all members. -/
def Value.timesOfMembers : List (String × Value) → List Instant
  | [] => []
  | (_, v) :: rest => v.times ++ timesOfMembers rest

end

/-- The times of a document, its own before those of its fields. -/
def Document.times (d : Document) : List Instant :=
  d.createdAt.toList ++ d.updatedAt.toList ++ Value.timesOfMembers d.fields

mutual

/-- **The value in whole milliseconds**: so are all its times. -/
def Value.truncated : Value → Value
  | .date t => .date t.truncated
  | .array items => .array (truncatedItems items)
  | .object members => .object (truncatedMembers members)
  | .included d => .included
    { className := d.className, objectId := d.objectId,
      createdAt := d.createdAt.map Instant.truncated,
      updatedAt := d.updatedAt.map Instant.truncated, fields := truncatedMembers d.fields }
  | v => v

/-- The items in whole milliseconds. -/
def Value.truncatedItems : List Value → List Value
  | [] => []
  | v :: rest => v.truncated :: truncatedItems rest

/-- The members in whole milliseconds. -/
def Value.truncatedMembers : List (String × Value) → List (String × Value)
  | [] => []
  | (k, v) :: rest => (k, v.truncated) :: truncatedMembers rest

end

/-- The document in whole milliseconds. -/
def Document.truncated (d : Document) : Document :=
  { className := d.className, objectId := d.objectId,
    createdAt := d.createdAt.map Instant.truncated,
    updatedAt := d.updatedAt.map Instant.truncated, fields := Value.truncatedMembers d.fields }

/-- Times that are whole stay as they are. -/
theorem Instant.map_truncated_eq_self {t : Option Instant}
    (h : ∀ u ∈ t.toList, u.truncated = u) : t.map Instant.truncated = t := by
  cases t with
  | none => rfl
  | some t => exact congrArg some (h t (by simp))

mutual

/-- **A value in whole milliseconds** stays as it is. -/
theorem Value.truncated_eq_self {v : Value} (h : ∀ t ∈ v.times, t.truncated = t) :
    v.truncated = v := by
  cases v with
  | date t => exact congrArg Value.date (h t List.mem_cons_self)
  | array items => exact congrArg Value.array (Value.truncatedItems_eq_self h)
  | object members => exact congrArg Value.object (Value.truncatedMembers_eq_self h)
  | included d =>
    obtain ⟨className, objectId, createdAt, updatedAt, fields⟩ := d
    obtain ⟨htimes, hfields⟩ := List.forall_mem_append.1 h
    obtain ⟨hcreated, hupdated⟩ := List.forall_mem_append.1 htimes
    rw [Value.truncated, Instant.map_truncated_eq_self hcreated,
      Instant.map_truncated_eq_self hupdated, Value.truncatedMembers_eq_self hfields]
  | _ => rfl

theorem Value.truncatedItems_eq_self {items : List Value}
    (h : ∀ t ∈ Value.timesOfItems items, t.truncated = t) :
    Value.truncatedItems items = items := by
  cases items with
  | nil => rfl
  | cons v rest =>
    obtain ⟨hv, hrest⟩ := List.forall_mem_append.1 h
    rw [Value.truncatedItems, Value.truncated_eq_self hv, Value.truncatedItems_eq_self hrest]

theorem Value.truncatedMembers_eq_self {members : List (String × Value)}
    (h : ∀ t ∈ Value.timesOfMembers members, t.truncated = t) :
    Value.truncatedMembers members = members := by
  cases members with
  | nil => rfl
  | cons m rest =>
    obtain ⟨hv, hrest⟩ := List.forall_mem_append.1 h
    rw [Value.truncatedMembers, Value.truncated_eq_self hv, Value.truncatedMembers_eq_self hrest]

end

/-! ### Writing -/

/-- The members beside the fields are written in whole milliseconds. -/
theorem Document.restHeader_truncated (d : Document) : restHeader d.truncated = restHeader d := by
  obtain ⟨className, objectId, createdAt, updatedAt, fields⟩ := d
  cases createdAt <;> cases updatedAt <;>
    simp only [Document.restHeader, Document.truncated, Option.map_none, Option.map_some,
      Instant.iso_truncated]

mutual

/-- **Whole milliseconds are all that is written** of a time. -/
theorem Value.toRest_truncated (v : Value) : v.truncated.toRest = v.toRest := by
  cases v with
  | date t =>
    rw [Value.truncated, Value.toRest, Instant.iso_truncated]
    rfl
  | array items => exact congrArg Json.arr (Value.toRestItems_truncated items)
  | object members => exact congrArg Json.obj (Value.toRestMembers_truncated members)
  | included d =>
    obtain ⟨className, objectId, createdAt, updatedAt, fields⟩ := d
    have hheader :=
      Document.restHeader_truncated ⟨className, objectId, createdAt, updatedAt, fields⟩
    rw [Document.truncated] at hheader
    rw [Value.truncated, Value.toRest, hheader, Value.toRestMembers_truncated fields]
    rfl
  | _ => rfl

theorem Value.toRestItems_truncated (items : List Value) :
    Value.toRestItems (Value.truncatedItems items) = Value.toRestItems items := by
  cases items with
  | nil => rfl
  | cons v rest =>
    rw [Value.truncatedItems, Value.toRestItems, Value.toRest_truncated v,
      Value.toRestItems_truncated rest]
    rfl

theorem Value.toRestMembers_truncated (members : List (String × Value)) :
    Value.toRestMembers (Value.truncatedMembers members) = Value.toRestMembers members := by
  cases members with
  | nil => rfl
  | cons m rest =>
    rw [Value.truncatedMembers, Value.toRestMembers, Value.toRest_truncated m.2,
      Value.toRestMembers_truncated rest]
    rfl

end

/-- Members are written one by one under their keys. -/
theorem Value.toRestMembers_eq (members : List (String × Value)) :
    toRestMembers members = Members.mapValues toRest members := by
  induction members with
  | nil => rfl
  | cons m rest ih =>
    rw [toRestMembers, ih]
    rfl

/-- A value is written as a text only if it is that text. -/
theorem Value.asString?_toRest (v : Value) : v.toRest.asString? = v.asString? := by
  cases v with
  | float x =>
    rw [Value.toRest, Json.ofDouble]
    split <;> rfl
  | _ => rfl

/-! ### Portable values -/

/-- The names of a document's JSON members that are no fields. -/
def Rest.reserved : List String := ["objectId", "className", "__type", "createdAt", "updatedAt"]

/-- A point with finite coordinates. -/
def GeoPoint.Finite (p : GeoPoint) : Prop :=
  p.latitude.isFinite = true ∧ p.longitude.isFinite = true

instance (p : GeoPoint) : Decidable p.Finite := inferInstanceAs (Decidable (_ ∧ _))

/-- **A list of grants**, in the order of the subjects: each entry grants something. -/
structure Acl.Granting (acl : Acl) : Prop where
  sorted : Members.Sorted acl.entries
  grants : ∀ e ∈ acl.entries, (e.2.read || e.2.write) = true

mutual

/-- **Values that the REST dialect carries.** -/
def Value.Portable : Value → Prop
  | .float x => x.isFinite = true
  | .bytes base64 => Base64.isValid base64 = true
  | .geoPoint p => p.Finite
  | .polygon ring => ∀ p ∈ ring, p.Finite
  | .acl _ => False
  | .array items => PortableItems items
  | .object members =>
    Members.Sorted members ∧ (members.lookup "__type").bind Value.asString? = none ∧
      PortableMembers members
  | .included d => Members.Sorted d.fields ∧ PortableFields d.fields
  | _ => True

/-- All items are portable. -/
def Value.PortableItems : List Value → Prop
  | [] => True
  | v :: rest => v.Portable ∧ PortableItems rest

/-- The values of all members are portable. -/
def Value.PortableMembers : List (String × Value) → Prop
  | [] => True
  | (_, v) :: rest => v.Portable ∧ PortableMembers rest

/-- **Fields of a document** that the REST dialect carries: the field `ACL` is an access control
list, the others are portable values, and none has the name of another member. -/
def Value.PortableFields : List (String × Value) → Prop
  | [] => True
  | (k, v) :: rest =>
    (if k = "ACL" then ∃ acl, v = .acl acl ∧ acl.Granting
      else k ∉ Rest.reserved ∧ v.Portable) ∧ PortableFields rest

end

namespace Value

variable {k : String} {v : Value} {acl : Acl} {fields : List (String × Value)}

/-- The field `ACL` may be a list of grants. -/
theorem PortableFields.cons_acl (h : acl.Granting) (hfields : PortableFields fields) :
    PortableFields (("ACL", .acl acl) :: fields) := by
  rw [PortableFields, if_pos rfl]
  exact ⟨⟨acl, rfl, h⟩, hfields⟩

/-- Another field may be any portable value. -/
theorem PortableFields.cons (hk : k ≠ "ACL" ∧ k ∉ Rest.reserved) (h : v.Portable)
    (hfields : PortableFields fields) : PortableFields ((k, v) :: fields) := by
  rw [PortableFields, if_neg hk.1]
  exact ⟨⟨hk.2, h⟩, hfields⟩

end Value

/-- **Documents that the REST dialect carries.** -/
def Document.Portable (d : Document) : Prop :=
  Members.Sorted d.fields ∧ Value.PortableFields d.fields

end ObjectEngine
