import ObjectEngine.Proofs.Stored.Documents

/-!
# Typed documents

What a field of each type may hold (`Stored.HasType`) and what can be stored without a type
(`Value.Storable`) is said here without a store. Storing a value succeeds if and only if the value
has the type (`Stored.exists_encode_iff`), and storing a document if and only if all of its fields
are well typed (`Stored.accepted_iff_typed`), with one exception: a relation field is
accepted with whatever value it has, because relations are not stored with the document, and
that value is lost. Other than that, what an accepted document holds is lost only where an
internal field is laid over another member (`Stored.Overlaid`).
-/

namespace ObjectEngine

/-! ### Points on the globe -/

/-- **A point on the globe**: finite coordinates, of a latitude of at most 90 degrees and a
longitude of at most 180. -/
structure GeoPoint.OnGlobe (p : GeoPoint) : Prop where
  latitude : p.latitude.isFinite = true ∧
    (Double.ofInt (-90)).le p.latitude = true ∧ p.latitude.le (Double.ofInt 90) = true
  longitude : p.longitude.isFinite = true ∧
    (Double.ofInt (-180)).le p.longitude = true ∧ p.longitude.le (Double.ofInt 180) = true

theorem GeoPoint.validate_eq_ok {p : GeoPoint} : p.validate = .ok () ↔ p.OnGlobe := by
  have hbounds : p.validate = .ok () ↔
      inBounds 90 p.latitude = true ∧ inBounds 180 p.longitude = true := by
    rw [validate]
    cases inBounds 90 p.latitude <;> cases inBounds 180 p.longitude <;> simp
  rw [hbounds, inBounds, inBounds]
  simp only [Bool.and_eq_true, and_assoc]
  exact ⟨fun ⟨h₁, h₂, h₃, h⟩ => ⟨⟨h₁, h₂, h₃⟩, h⟩,
    fun ⟨⟨h₁, h₂, h₃⟩, h⟩ => ⟨h₁, h₂, h₃, h⟩⟩

theorem GeoPoint.forM_validate_eq_ok {ring : List GeoPoint} :
    ring.forM validate = .ok () ↔ ∀ p ∈ ring, p.OnGlobe :=
  Outcome.forM_eq_ok.trans (forall₂_congr fun _ _ => validate_eq_ok)

/-! ### Values without a declared type -/

mutual

/-- **A value that can be stored without a type**: at every depth below arrays and objects the
bytes are the text of some, and no key of an object is an operator, a path or the type tag. -/
def Value.Storable : Value → Prop
  | .bytes text => ∃ bytes, text = Base64.encode bytes
  | .array items => StorableItems items
  | .object members => StorableMembers members
  | _ => True

/-- All items can be stored without a type. -/
def Value.StorableItems : List Value → Prop
  | [] => True
  | v :: rest => v.Storable ∧ StorableItems rest

/-- All members can be stored without a type, under their keys. -/
def Value.StorableMembers : List (String × Value) → Prop
  | [] => True
  | (k, v) :: rest =>
    (k.toList.head? ≠ some '$' ∧ '.' ∉ k.toList ∧ k ≠ "__type") ∧ v.Storable ∧
      StorableMembers rest

end

namespace Stored

theorem isObjectKey_eq_true {key : String} : isObjectKey key = true ↔
    key.toList.head? ≠ some '$' ∧ '.' ∉ key.toList ∧ key ≠ "__type" := by
  rw [isObjectKey, Bool.not_eq_true', Bool.eq_false_iff]
  simp only [ne_eq, Bool.or_eq_true, decide_eq_true_eq, List.contains_eq_mem, not_or, and_assoc]

/-- Bytes are read from the texts of byte sequences. -/
theorem exists_bytesOfBase64_iff {text : String} :
    (∃ bytes, bytesOfBase64 text = .ok bytes) ↔ ∃ bytes, text = Base64.encode bytes := by
  simp only [bytesOfBase64, Outcome.ofOption_eq_ok]
  constructor
  · rintro ⟨bytes, h⟩
    exact ⟨bytes, (Base64.encode_of_decode? h).symm⟩
  · rintro ⟨bytes, rfl⟩
    exact ⟨bytes, Base64.decode?_encode bytes⟩

mutual

/-- **Storing a value without a type** succeeds exactly for the storable ones. -/
theorem exists_encodeFree_iff {v : Value} : (∃ d, encodeFree v = .ok d) ↔ v.Storable := by
  cases v with
  | bytes text => exact Outcome.exists_map_iff.trans exists_bytesOfBase64_iff
  | array items => exact Outcome.exists_map_iff.trans exists_encodeItems_iff
  | object members => exact Outcome.exists_map_iff.trans exists_encodeMembers_iff
  | _ => exact ⟨fun _ => trivial, fun _ => ⟨_, rfl⟩⟩

/-- So it does for items. -/
theorem exists_encodeItems_iff {items : List Value} :
    (∃ ds, encodeItems items = .ok ds) ↔ Value.StorableItems items := by
  cases items with
  | nil => exact ⟨fun _ => trivial, fun _ => ⟨_, rfl⟩⟩
  | cons v rest =>
    exact Outcome.exists_map₂_iff.trans (and_congr exists_encodeFree_iff exists_encodeItems_iff)

/-- So it does for members, if the store can hold their keys. -/
theorem exists_encodeMembers_iff {members : List (String × Value)} :
    (∃ ds, encodeMembers members = .ok ds) ↔ Value.StorableMembers members := by
  cases members with
  | nil => exact ⟨fun _ => trivial, fun _ => ⟨_, rfl⟩⟩
  | cons m rest =>
    obtain ⟨k, v⟩ := m
    simp only [encodeMembers, Outcome.guard_eq_ok, exists_and_left]
    exact and_congr (by simpa using isObjectKey_eq_true)
      (Outcome.exists_map₂_iff.trans (and_congr exists_encodeFree_iff exists_encodeMembers_iff))

end

/-! ### Values of a declared type -/

/-- **A value of a type**: null, or of the kind that the type names; points lie on the globe and
three of them make a polygon, references and relations lead to the class of the type, and what
objects and arrays hold can be stored without a type. -/
inductive HasType : FieldType → Value → Prop
  | null (ty : FieldType) : HasType ty .null
  | string (s : String) : HasType .string (.string s)
  | int (n : Int64) : HasType .number (.int n)
  | float (x : Double) : HasType .number (.float x)
  | boolean (b : Bool) : HasType .boolean (.bool b)
  | date (t : Instant) : HasType .date (.date t)
  | bytes (bytes : List UInt8) : HasType .bytes (.bytes (Base64.encode bytes))
  | file (name : String) : HasType .file (.file name)
  | geoPoint {p : GeoPoint} (hp : p.OnGlobe) : HasType .geoPoint (.geoPoint p)
  | polygon {ring : List GeoPoint} (hlength : 3 ≤ ring.length) (hring : ∀ p ∈ ring, p.OnGlobe) :
    HasType .polygon (.polygon ring)
  | pointer (p : Pointer) : HasType (.pointer p.className) (.pointer p)
  | included (d : Document) : HasType (.pointer d.className) (.included d)
  | relation (target : String) : HasType (.relation target) (.relation target)
  | acl (list : Acl) : HasType .acl (.acl list)
  | object {members : List (String × Value)} (h : (Value.object members).Storable) :
    HasType .object (.object members)
  | array {items : List Value} (h : (Value.array items).Storable) : HasType .array (.array items)

theorem exists_encodePolygon_iff {ring : List GeoPoint} :
    (∃ x, encodePolygon ring = .ok x) ↔ 3 ≤ ring.length ∧ ∀ p ∈ ring, p.OnGlobe := by
  simp only [encodePolygon, Outcome.guard_eq_ok, exists_and_left, Nat.not_lt]
  rw [Outcome.exists_map_iff, ← GeoPoint.forM_validate_eq_ok]
  exact and_congr_right fun _ => ⟨fun ⟨_, h⟩ => h, fun h => ⟨(), h⟩⟩

/-- **Storing a value of a declared type** succeeds exactly for the values of the type. -/
theorem exists_encode_iff {ty : FieldType} {v : Value} :
    (∃ x, encode ty v = .ok x) ↔ HasType ty v := by
  constructor
  · rintro ⟨x, h⟩
    unfold encode at h
    dsimp only at h
    split at h
    case h_1 => exact .null _
    case h_2 => exact .string _
    case h_3 => exact .int _
    case h_4 => exact .float _
    case h_5 => exact .boolean _
    case h_6 => exact .date _
    case h_7 =>
      obtain ⟨bytes, hbytes, -⟩ := Outcome.bind_eq_ok.1 h
      obtain ⟨bytes, rfl⟩ := exists_bytesOfBase64_iff.1 ⟨bytes, hbytes⟩
      exact .bytes bytes
    case h_8 => exact .file _
    case h_9 =>
      obtain ⟨u, hp, -⟩ := Outcome.bind_eq_ok.1 h
      exact .geoPoint (GeoPoint.validate_eq_ok.1 hp)
    case h_10 =>
      obtain ⟨hlength, hring⟩ := exists_encodePolygon_iff.1 ⟨x, h⟩
      exact .polygon hlength hring
    case h_11 target v _ =>
      split at h
      case h_2 => exact absurd h (by simp)
      case h_1 p hp =>
        split at h
        case isFalse => exact absurd h (by simp)
        case isTrue hclass =>
          subst hclass
          cases v with
          | pointer q =>
            obtain rfl := Option.some.inj hp
            exact .pointer q
          | included d =>
            obtain rfl := Option.some.inj hp
            exact .included d
          | _ => exact absurd hp (by simp [Value.asPointer?])
    case h_12 =>
      split at h
      case isFalse => exact absurd h (by simp)
      case isTrue hclass => exact hclass ▸ .relation _
    case h_13 => exact .acl _
    case h_14 => exact .object (exists_encodeFree_iff.1 ⟨x, h⟩)
    case h_15 => exact .array (exists_encodeFree_iff.1 ⟨x, h⟩)
    case h_16 => exact absurd h (by simp)
  · intro h
    cases h with
    | null => exact ⟨.null, by cases ty <;> rfl⟩
    | bytes bytes => exact Outcome.exists_map_iff.2 (exists_bytesOfBase64_iff.2 ⟨bytes, rfl⟩)
    | geoPoint hp => exact Outcome.exists_map_iff.2 ⟨(), GeoPoint.validate_eq_ok.2 hp⟩
    | polygon hlength hring => exact exists_encodePolygon_iff.2 ⟨hlength, hring⟩
    | pointer p => exact ⟨.string (pointerKey p), by simp [encode, Value.asPointer?]⟩
    | included d =>
      exact ⟨.string (pointerKey ⟨d.className, d.objectId⟩),
        by simp [encode, Value.asPointer?, Document.pointer]⟩
    | relation target => exact ⟨_, if_pos rfl⟩
    | object h => exact exists_encodeFree_iff.2 h
    | array h => exact exists_encodeFree_iff.2 h
    | _ => exact ⟨_, rfl⟩

/-! ### Fields -/

variable {schema : ClassSchema} {d : Document} {r : Record}

/-- The names of what a document has beside its fields. -/
def headerNames : List String := ["objectId", "createdAt", "updatedAt"]

/-- **A well-typed field**: named as a part of the header, whose value then does not count; or
internal and undeclared, with a value that can be stored without a type; or declared, with a value
of its type. -/
inductive WellTyped (schema : ClassSchema) : String × Value → Prop
  | header {name : String} (v : Value) (h : name ∈ headerNames) : WellTyped schema (name, v)
  | internal {name : String} {v : Value} (hnone : schema.fieldType? name = none)
      (hinternal : isInternalField name = true) (hv : v.Storable) : WellTyped schema (name, v)
  | declared {name : String} {ty : FieldType} {v : Value} (hty : schema.fieldType? name = some ty)
      (hv : HasType ty v) : WellTyped schema (name, v)

/-- The field is a relation of the class. -/
def IsRelation (schema : ClassSchema) (name : String) : Prop :=
  ∃ target, schema.fieldType? name = some (.relation target)

theorem fieldType?_access (hs : schema.Built) : schema.fieldType? "ACL" = some .acl :=
  hs.fieldType?_of_default ("ACL", .acl) (by simp)

theorem exists_aclMembers_iff {v : Value} : (∃ ms, aclMembers v = .ok ms) ↔ HasType .acl v := by
  constructor
  · rintro ⟨ms, h⟩
    cases v with
    | null => exact .null _
    | acl list => exact .acl list
    | _ => exact absurd h (by simp [aclMembers])
  · intro h
    cases h with
    | null | acl => exact ⟨_, rfl⟩

/-- **Storing a field** succeeds if it is well typed, and if it is a relation. -/
theorem exists_encodeField_iff (hs : schema.Built) {f : String × Value}
    (hf : f.1 ∉ headerNames) :
    (∃ ms, encodeField schema f.1 f.2 = .ok ms) ↔ WellTyped schema f ∨ IsRelation schema f.1 := by
  obtain ⟨name, v⟩ := f
  rw [encodeField]
  split
  case isTrue hacl =>
    obtain rfl : name = "ACL" := hacl
    have hty := fieldType?_access hs
    rw [exists_aclMembers_iff]
    constructor
    · exact fun hv => .inl (.declared hty hv)
    · rintro (h | ⟨target, h⟩)
      · cases h with
        | header _ h => exact absurd h hf
        | internal hnone => exact absurd (hty.symm.trans hnone) (by simp)
        | declared hty' hv => exact Option.some.inj (hty'.symm.trans hty) ▸ hv
      · exact absurd (hty.symm.trans h) (by simp)
  case isFalse =>
    split
    case h_1 target hty => exact ⟨fun _ => .inr ⟨target, hty⟩, fun _ => ⟨[], rfl⟩⟩
    case h_2 ty hrelation hty =>
      rw [Outcome.exists_map_iff]
      simp only [Outcome.inField_eq_ok, exists_encode_iff]
      constructor
      · exact fun hv => .inl (.declared hty hv)
      · rintro (h | ⟨target, h⟩)
        · cases h with
          | header _ h => exact absurd h hf
          | internal hnone => exact absurd (hty.symm.trans hnone) (by simp)
          | declared hty' hv => exact Option.some.inj (hty'.symm.trans hty) ▸ hv
        · exact absurd (Option.some.inj (hty.symm.trans h)) (hrelation target)
    case h_3 hnone =>
      have hdeclared {ty : FieldType} : schema.fieldType? name ≠ some ty := by simp [hnone]
      split
      case isTrue hinternal =>
        rw [Outcome.exists_map_iff, exists_encodeFree_iff]
        constructor
        · exact fun hv => .inl (.internal hnone hinternal hv)
        · rintro (h | ⟨target, h⟩)
          · cases h with
            | header _ h => exact absurd h hf
            | internal _ _ hv => exact hv
            | declared hty => exact absurd hty hdeclared
          · exact absurd h hdeclared
      case isFalse hinternal =>
        constructor
        · rintro ⟨ms, h⟩
          exact absurd h (by simp)
        · rintro (h | ⟨target, h⟩)
          · cases h with
            | header _ h => exact absurd h hf
            | internal _ h => exact absurd h hinternal
            | declared hty => exact absurd hty hdeclared
          · exact absurd h hdeclared

/-! ### Documents -/

/-- The document without the fields that are named as a part of its header. -/
def body (d : Document) : Document :=
  { d with fields := d.fields.filter fun f => f.1 ∉ headerNames }

theorem mem_body {f : String × Value} :
    f ∈ (body d).fields ↔ f ∈ d.fields ∧ f.1 ∉ headerNames := by
  simp [body, List.mem_filter]

/-- **Fields named as a part of the header** are passed over. -/
theorem encodeDocument_body (schema : ClassSchema) (d : Document) :
    encodeDocument schema (body d) = encodeDocument schema d := by
  rw [encodeDocument, encodeDocument, body, List.foldlM_filter]
  refine congrArg (fun step => d.fields.foldlM step (headerMembers d)) ?_
  funext record f
  by_cases hf : f.1 ∈ headerNames
  · simp only [headerNames, List.mem_cons, List.not_mem_nil, or_false] at hf
    rcases hf with hf | hf | hf <;> simp [hf, headerNames] <;> rfl
  · simp [hf]

/-- **Storing a document** succeeds exactly if storing each of its fields does. -/
theorem exists_encodeDocument_iff_fields :
    (∃ r, encodeDocument schema d = .ok r) ↔
      ∀ f ∈ d.fields, f.1 ∉ headerNames → ∃ ms, encodeField schema f.1 f.2 = .ok ms := by
  rw [← encodeDocument_body]
  constructor
  · rintro ⟨r, h⟩ f hf hname
    exact (exists_of_foldlM_encodeField (fun f hf => (mem_body.1 hf).2) h).1 f
      (mem_body.2 ⟨hf, hname⟩)
  · intro h
    refine Outcome.exists_foldlM fun f hf record => ?_
    obtain ⟨hf, hname⟩ := mem_body.1 hf
    obtain ⟨ms, hms⟩ := h f hf hname
    have hskip : ¬((f.1 = "objectId" || f.1 = "createdAt" || f.1 = "updatedAt") = true) := by
      simpa [headerNames, and_assoc] using hname
    exact ⟨_, by rw [if_neg hskip, hms]; rfl⟩

/-! ### What an accepted document leaves in its record -/

/-- **A stored value that stands for a value**: reading it gives what is left of the value, and
what stands for a reference is its key. -/
inductive StandsFor : FieldType → Datum → Value → Prop
  | value {ty : FieldType} {x : Datum} {v : Value} (h : decode ty x = .ok v.detached) :
    StandsFor ty x v
  | reference {target : String} {p : Pointer} {v : Value} (hv : v.asPointer? = some p) :
    StandsFor (.pointer target) (.string (pointerKey p)) v

theorem standsFor_of_encode {ty : FieldType} {v : Value} {x : Datum} (hv : v.Ordered)
    (h : encode ty v = .ok x) : StandsFor ty x v := by
  by_cases hty : ∃ target, ty = .pointer target
  · obtain ⟨target, rfl⟩ := hty
    cases exists_encode_iff.1 ⟨x, h⟩ with
    | null =>
      obtain rfl := Except.ok.inj h
      exact .value rfl
    | pointer p =>
      have hkey : encode (.pointer p.className) (.pointer p) = .ok (.string (pointerKey p)) := by
        simp [encode, Value.asPointer?]
      obtain rfl := Except.ok.inj (hkey.symm.trans h)
      exact .reference rfl
    | included d =>
      have hkey : encode (.pointer d.className) (.included d) =
          .ok (.string (pointerKey (Document.pointer d))) := by
        simp [encode, Value.asPointer?, Document.pointer]
      obtain rfl := Except.ok.inj (hkey.symm.trans h)
      exact .reference rfl
  · exact .value (decode_encode hv (fun target h => hty ⟨target, h⟩) h)

/-- **A field that its record keeps**: what it is stored as is there and stands for its value. Of a
relation nothing is stored, and nothing is lost if its value is what the class declares. -/
inductive Kept (schema : ClassSchema) (r : Record) : String × Value → Prop
  | noAccess : Kept schema r ("ACL", .null)
  | access {list : Acl} (h : ∀ m ∈ accessMembers list, m ∈ r) : Kept schema r ("ACL", .acl list)
  | relation {name target : String} {v : Value}
    (hty : schema.fieldType? name = some (.relation target)) (hv : HasType (.relation target) v) :
    Kept schema r (name, v)
  | declared {name : String} {ty : FieldType} {v : Value} {x : Datum} (hne : name ≠ "ACL")
    (hty : schema.fieldType? name = some ty) (hx : encode ty v = .ok x) (hback : StandsFor ty x v)
    (hm : (rootKey schema name, x) ∈ r) : Kept schema r (name, v)
  | internal {name : String} {v : Value} {x : Datum} (hnone : schema.fieldType? name = none)
    (hx : encodeFree v = .ok x) (hback : decodeFree x = .ok v.detached) (hm : (name, x) ∈ r) :
    Kept schema r (name, v)

/-- **An internal field laid over another member**: its name is the key of another member of the
document, which stores something else. -/
def Overlaid (schema : ClassSchema) (d : Document) : Prop :=
  ∃ f ∈ d.fields, schema.fieldType? f.1 = none ∧
    ∃ n m, MemberStored schema (body d) n m ∧ m.1 = f.1 ∧ encodeFree f.2 ≠ .ok m.2

/-- Whether a field is declared and stored with the document. -/
def isStoredField (schema : ClassSchema) (name : String) : Bool :=
  match schema.fieldType? name with
  | none | some (.relation _) => false
  | _ => true

/-- The document with the declared fields that are stored with it. -/
def declaredPart (schema : ClassSchema) (d : Document) : Document :=
  { d with fields := (body d).fields.filter fun f => isStoredField schema f.1 }

theorem fits_declaredPart (hsorted : Members.Sorted d.fields)
    (hordered : Value.OrderedMembers d.fields) : Fits schema (declaredPart schema d) := by
  have hstored {f : String × Value} (hf : f ∈ (declaredPart schema d).fields) :
      isStoredField schema f.1 = true := (List.mem_filter.1 hf).2
  have hbody {f : String × Value} (hf : f ∈ (declaredPart schema d).fields) :
      f ∈ d.fields ∧ f.1 ∉ headerNames := mem_body.1 (List.mem_filter.1 hf).1
  refine ⟨List.Pairwise.filter _ (List.Pairwise.filter _ hsorted),
    Value.orderedMembers_iff.2 fun f hf => Value.orderedMembers_iff.1 hordered f (hbody hf).1,
    fun f hf => ?_, fun f hf => (hbody hf).2, fun f hf target hty => ?_⟩
  · have hf := hstored hf
    rw [isStoredField] at hf
    rw [ClassSchema.hasField]
    cases hty : schema.fieldType? f.1 with
    | none => simp [hty] at hf
    | some ty => rfl
  · have hf := hstored hf
    simp [isStoredField, hty] at hf

/-- An undeclared field is stored under its own name. -/
theorem of_encodeField_internal (hs : schema.Built) {f : String × Value}
    {ms : List (String × Datum)} (hnone : schema.fieldType? f.1 = none)
    (h : encodeField schema f.1 f.2 = .ok ms) :
    ∃ x, encodeFree f.2 = .ok x ∧ ms = [(f.1, x)] := by
  have hne : f.1 ≠ "ACL" := fun hacl => by
    rw [hacl, fieldType?_access hs] at hnone
    exact absurd hnone (by simp)
  rw [encodeField, if_neg hne] at h
  simp only [hnone] at h
  split at h
  · obtain ⟨x, hx, h⟩ := Outcome.bind_eq_ok.1 h
    exact ⟨x, hx, (Except.ok.inj h).symm⟩
  · exact absurd h (by simp)

/-- A relation field stores nothing. -/
theorem eq_nil_of_encodeField_relation (hs : schema.Built) {name target : String} {v : Value}
    {ms : List (String × Datum)} (hty : schema.fieldType? name = some (.relation target))
    (h : encodeField schema name v = .ok ms) : ms = [] := by
  have hne : name ≠ "ACL" := fun hacl => by
    rw [hacl, fieldType?_access hs] at hty
    exact absurd hty (by simp)
  rw [encodeField, if_neg hne] at h
  simp only [hty] at h
  exact (Except.ok.inj h).symm

/-- A member of a document is one of its declared part or an internal field. -/
theorem MemberStored.of_body (hs : schema.Built) {n : String} {m : String × Datum}
    (h : MemberStored schema (body d) n m) :
    MemberStored schema (declaredPart schema d) n m ∨
      ∃ f ∈ d.fields, schema.fieldType? f.1 = none ∧ f.1 = m.1 ∧ encodeFree f.2 = .ok m.2 := by
  cases h with
  | objectId => exact .inl .objectId
  | createdAt ht => exact .inl (.createdAt ht)
  | updatedAt ht => exact .inl (.updatedAt ht)
  | @field f ms m hf hms hm =>
    cases hty : schema.fieldType? f.1 with
    | none =>
      obtain ⟨x, hx, rfl⟩ := of_encodeField_internal hs hty hms
      obtain rfl := List.mem_singleton.1 hm
      exact .inr ⟨f, (mem_body.1 hf).1, hty, rfl, hx⟩
    | some ty =>
      by_cases hstored : isStoredField schema f.1 = true
      · exact .inl (.field (List.mem_filter.2 ⟨hf, hstored⟩) hms hm)
      · rw [isStoredField, hty] at hstored
        split at hstored
        case h_1 h => exact absurd h (by simp)
        case h_2 h =>
          obtain rfl := eq_nil_of_encodeField_relation hs (hty.trans h) hms
          exact absurd hm List.not_mem_nil
        case h_3 => exact absurd rfl hstored

/-- **Without overlaid fields**, no two members have one key. -/
theorem MemberStored.eq_of_not_overlaid (hs : schema.Built) (hsorted : Members.Sorted d.fields)
    (hordered : Value.OrderedMembers d.fields) (hoverlaid : ¬Overlaid schema d) {n n' : String}
    {m m' : String × Datum} (h : MemberStored schema (body d) n m)
    (h' : MemberStored schema (body d) n' m') (hkey : m.1 = m'.1) : m = m' := by
  -- an internal field stores the same as any member under its name
  have hinternal {f : String × Value} (hf : f ∈ d.fields) (hnone : schema.fieldType? f.1 = none)
      {n : String} {m : String × Datum} (hm : MemberStored schema (body d) n m)
      (hkey : m.1 = f.1) : encodeFree f.2 = .ok m.2 :=
    Classical.byContradiction fun hx => hoverlaid ⟨f, hf, hnone, n, m, hm, hkey, hx⟩
  rcases h.of_body hs with hd | ⟨f, hf, hnone, hname, hx⟩
  · rcases h'.of_body hs with hd' | ⟨f, hf, hnone, hname, hx⟩
    · exact hd.eq_of_key hs (fits_declaredPart hsorted hordered) hd' hkey
    · have hx' := hinternal hf hnone h (hkey.trans hname.symm)
      exact Prod.ext hkey (Except.ok.inj (hx'.symm.trans hx))
  · have hx' := hinternal hf hnone h' (hkey.symm.trans hname.symm)
    exact Prod.ext hkey (Except.ok.inj (hx.symm.trans hx'))

/-- A well-typed field whose members are all in a record is kept there. -/
theorem kept_of_subset (hs : schema.Built) {f : String × Value} {ms : List (String × Datum)}
    (hname : f.1 ∉ headerNames) (hv : f.2.Ordered) (hf : WellTyped schema f)
    (hms : encodeField schema f.1 f.2 = .ok ms) (hr : ∀ m ∈ ms, m ∈ r) : Kept schema r f := by
  cases hf with
  | header _ h => exact absurd h hname
  | internal hnone =>
    obtain ⟨x, hx, rfl⟩ := of_encodeField_internal hs hnone hms
    exact .internal hnone hx (decodeFree_encodeFree hv hx) (hr _ (List.mem_singleton.2 rfl))
  | declared hty hval =>
    have hidentifier := hs.isIdentifier (Members.mem_of_lookup hty)
    cases fieldStored_of_encodeField hidentifier (by simp [ClassSchema.hasField, hty]) hms with
    | noAccess => exact .noAccess
    | access => exact .access hr
    | relation _ _ hrelation =>
      obtain rfl := Option.some.inj (hty.symm.trans hrelation)
      exact .relation hty hval
    | typed hne hty' _ hx =>
      exact .declared hne hty' hx (standsFor_of_encode hv hx) (hr _ (List.mem_singleton.2 rfl))

/-- A kept field of an accepted document is well typed, and its members are in the record. -/
theorem Kept.wellTyped (hs : schema.Built) {f : String × Value} {ms : List (String × Datum)}
    (hname : f.1 ∉ headerNames) (hms : encodeField schema f.1 f.2 = .ok ms)
    (h : Kept schema r f) : WellTyped schema f ∧ ∀ m ∈ ms, m ∈ r := by
  cases h with
  | noAccess =>
    obtain rfl := Except.ok.inj hms
    exact ⟨.declared (fieldType?_access hs) (.null _), fun m hm => absurd hm List.not_mem_nil⟩
  | access h =>
    obtain rfl := Except.ok.inj hms
    exact ⟨.declared (fieldType?_access hs) (.acl _), h⟩
  | relation hty hv =>
    obtain rfl := eq_nil_of_encodeField_relation hs hty hms
    exact ⟨.declared hty hv, fun m hm => absurd hm List.not_mem_nil⟩
  | internal hnone hx _ hm =>
    have hwell := (exists_encodeField_iff hs hname).1 ⟨ms, hms⟩
    obtain ⟨x', hx', rfl⟩ := of_encodeField_internal hs hnone hms
    obtain rfl := Except.ok.inj (hx.symm.trans hx')
    refine ⟨hwell.resolve_right fun ⟨target, hty⟩ => ?_, fun m hm' => ?_⟩
    · exact absurd (hnone.symm.trans hty) (by simp)
    · exact List.mem_singleton.1 hm' ▸ hm
  | declared hne hty hx _ hm =>
    refine ⟨.declared hty (exists_encode_iff.1 ⟨_, hx⟩), fun m hm' => ?_⟩
    have hidentifier := hs.isIdentifier (Members.mem_of_lookup hty)
    cases fieldStored_of_encodeField hidentifier (by simp [ClassSchema.hasField, hty]) hms with
    | noAccess | access => exact absurd rfl hne
    | relation => exact absurd hm' List.not_mem_nil
    | typed _ hty' _ hx' =>
      obtain rfl := Option.some.inj (hty.symm.trans hty')
      obtain rfl := Except.ok.inj (hx.symm.trans hx')
      exact List.mem_singleton.1 hm' ▸ hm

/-- The members of a document in which every field is kept are in its record. -/
theorem mem_of_kept (hs : schema.Built) (hheader : ∀ m ∈ header d, m ∈ r)
    (hkept : ∀ f ∈ d.fields, f.1 ∉ headerNames → Kept schema r f) {n : String}
    {m : String × Datum} (hm : MemberStored schema (body d) n m) : m ∈ r := by
  cases hm with
  | objectId => exact hheader _ (mem_header.2 (.inl rfl))
  | createdAt ht => exact hheader _ (mem_header.2 (.inr (.inl ⟨_, ht, rfl⟩)))
  | updatedAt ht => exact hheader _ (mem_header.2 (.inr (.inr ⟨_, ht, rfl⟩)))
  | field hf hms hm =>
    obtain ⟨hf, hname⟩ := mem_body.1 hf
    exact ((hkept _ hf hname).wellTyped hs hname hms).2 _ hm

/-- **What an accepted document holds** is all in its record, if and only if its fields are all
well typed and no internal field is laid over another member. -/
theorem kept_iff_not_overlaid (hs : schema.Built) (hsorted : Members.Sorted d.fields)
    (hordered : Value.OrderedMembers d.fields) (hr : encodeDocument schema d = .ok r) :
    ((∀ m ∈ header d, m ∈ r) ∧ ∀ f ∈ d.fields, f.1 ∉ headerNames → Kept schema r f) ↔
      (∀ f ∈ d.fields, WellTyped schema f) ∧ ¬Overlaid schema d := by
  have hfields := exists_encodeDocument_iff_fields.1 ⟨r, hr⟩
  have hbody : ∀ f ∈ (body d).fields, f.1 ∉ headerNames := fun f hf => (mem_body.1 hf).2
  obtain ⟨members, rfl, hmem⟩ :=
    exists_ofList_of_encodeDocument hbody ((encodeDocument_body schema d).trans hr)
  constructor
  · rintro ⟨hheader, hkept⟩
    refine ⟨fun f hf => ?_, ?_⟩
    · by_cases hname : f.1 ∈ headerNames
      · exact .header f.2 hname
      · obtain ⟨ms, hms⟩ := hfields f hf hname
        exact ((hkept f hf hname).wellTyped hs hname hms).1
    · rintro ⟨f, hf, hnone, n, m, hm, hkey, hx⟩
      have hname : f.1 ∉ headerNames := fun h => by
        simp only [headerNames, List.mem_cons, List.not_mem_nil, or_false] at h
        have htypes := hs.fieldType?_of_default
        rcases h with h | h | h <;> simp [← h, hnone] at htypes
      obtain ⟨ms, hms⟩ := hfields f hf hname
      obtain ⟨x, hx', rfl⟩ := of_encodeField_internal hs hnone hms
      have hin := mem_of_kept hs hheader hkept hm
      have hin' := ((hkept f hf hname).wellTyped hs hname hms).2 _ (List.mem_singleton.2 rfl)
      obtain rfl := (Members.sorted_ofList members).eq_of_key hin hin' hkey
      exact hx hx'
  · rintro ⟨hwell, hoverlaid⟩
    have hall {n : String} {m : String × Datum} (hm : MemberStored schema (body d) n m) :
        m ∈ Members.ofList members := by
      refine (Members.mem_ofList_iff fun key x y hx hy => ?_).2 ((hmem m).2 ⟨n, hm⟩)
      obtain ⟨n, hx⟩ := (hmem _).1 hx
      obtain ⟨n', hy⟩ := (hmem _).1 hy
      exact congrArg Prod.snd (hx.eq_of_not_overlaid hs hsorted hordered hoverlaid hy rfl)
    refine ⟨fun m hm => ?_, fun f hf hname => ?_⟩
    · rcases mem_header.1 hm with rfl | ⟨t, ht, rfl⟩ | ⟨t, ht, rfl⟩
      · exact hall .objectId
      · exact hall (.createdAt ht)
      · exact hall (.updatedAt ht)
    · obtain ⟨ms, hms⟩ := hfields f hf hname
      exact kept_of_subset hs hname (Value.orderedMembers_iff.1 hordered f hf) (hwell f hf) hms
        fun m hm => hall (.field (mem_body.2 ⟨hf, hname⟩) hms hm)

/-- **A document is accepted** if and only if each of its fields is well typed or a relation, which
may have any value. What an accepted document holds is all in its record, if and only if its
fields are all well typed and no internal field is laid over another member. -/
theorem accepted_iff_typed (hs : schema.Built) (d : Document) :
    ((∃ r, encodeDocument schema d = .ok r) ↔
      ∀ f ∈ d.fields, WellTyped schema f ∨ IsRelation schema f.1) ∧
    (Members.Sorted d.fields → Value.OrderedMembers d.fields →
      ∀ r, encodeDocument schema d = .ok r →
        (((∀ m ∈ header d, m ∈ r) ∧ ∀ f ∈ d.fields, f.1 ∉ headerNames → Kept schema r f) ↔
          (∀ f ∈ d.fields, WellTyped schema f) ∧ ¬Overlaid schema d)) := by
  refine ⟨exists_encodeDocument_iff_fields.trans ⟨fun h f hf => ?_, fun h f hf hname => ?_⟩,
    fun hsorted hordered r => kept_iff_not_overlaid hs hsorted hordered⟩
  · by_cases hname : f.1 ∈ headerNames
    · exact .inl (.header f.2 hname)
    · exact (exists_encodeField_iff hs hname).1 (h f hf hname)
  · exact (exists_encodeField_iff hs hname).2 (h f hf)

theorem accepted_iff_typed_post : postSchema.Built ∧ Members.Sorted post.fields ∧
    Value.OrderedMembers post.fields ∧ ∃ r, encodeDocument postSchema post = .ok r ∧
      (∀ m ∈ header post, m ∈ r) ∧
      ∀ f ∈ post.fields, f.1 ∉ headerNames → Kept postSchema r f := by
  obtain ⟨haccepted, hkept⟩ := accepted_iff_typed built_postSchema post
  obtain ⟨r, hr⟩ : ∃ r, encodeDocument postSchema post = .ok r := ⟨_, rfl⟩
  have hwell : ∀ f ∈ post.fields, WellTyped postSchema f := fun f hf => by
    refine (haccepted.1 ⟨r, hr⟩ f hf).resolve_right fun ⟨target, hty⟩ => ?_
    have hrelation := fits_post.relation f hf target hty
    revert hf hrelation
    simp only [post, List.mem_cons, List.not_mem_nil, or_false]
    rintro (rfl | rfl | rfl | rfl | rfl | rfl) <;> simp
  refine ⟨built_postSchema, fits_post.sorted, fits_post.ordered, r, hr,
    (hkept fits_post.sorted fits_post.ordered r hr).2 ⟨hwell, ?_⟩⟩
  rintro ⟨f, hf, hnone, -⟩
  have hdeclared := fits_post.declared f hf
  simp [ClassSchema.hasField, hnone] at hdeclared

/-- **A text in a relation field** is accepted, and is lost. -/
theorem not_accepted_iff_typed_likes :
    ¬∀ (schema : ClassSchema) (d : Document), schema.Built → Members.Sorted d.fields →
      ((∃ r, encodeDocument schema d = .ok r) ↔ ∀ f ∈ d.fields, WellTyped schema f) := by
  intro h
  obtain ⟨haccepted, -⟩ := h postSchema ⟨"Post", "p1", none, none, [("likes", .string "all")]⟩
    built_postSchema (by decide)
  cases haccepted ⟨_, rfl⟩ _ (List.mem_singleton.2 rfl) with
  | header _ hname => exact absurd hname (by decide)
  | internal hnone => exact absurd hnone (by decide)
  | declared hty hv =>
    obtain rfl := Option.some.inj hty
    cases hv

end Stored

end ObjectEngine
