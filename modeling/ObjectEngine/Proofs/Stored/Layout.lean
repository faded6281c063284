import ObjectEngine.Proofs.Stored.Values
import ObjectEngine.Stored.Document

/-!
# The record that stores a document

The schema of a class is built field by field, so its fields have identifiers for names
(`ClassSchema.Built.isIdentifier`). Therefore the key of a stored member says which field it
belongs to (`Stored.fieldOf`), no member takes the place of another, and the record that stores a
document has exactly the members of its header and of its fields (`Stored.mem_encodeDocument`).
-/

namespace ObjectEngine

/-! ### Schemas built field by field -/

/-- **A schema that was built** from that of a new class, field by field. -/
inductive ClassSchema.Built : ClassSchema → Prop
  | create {className : String} {schema : ClassSchema}
      (h : ClassSchema.create className = .ok schema) : Built schema
  | addField {schema schema' : ClassSchema} {name : String} {ty : FieldType}
      (hs : Built schema) (h : schema.addField name ty = .ok schema') : Built schema'

namespace ClassSchema

theorem fields_of_create {className : String} {schema : ClassSchema}
    (h : create className = .ok schema) : schema.fields = initialFields className := by
  rw [create] at h
  split at h
  · obtain rfl := Except.ok.inj h
    rfl
  · exact absurd h (by simp)

/-- To declare a field adds it or changes nothing. -/
theorem fields_of_addField {schema schema' : ClassSchema} {name : String} {ty : FieldType}
    (h : schema.addField name ty = .ok schema') : isFieldName name = true ∧
      (schema'.fields = schema.fields ∨ schema'.fields = Members.insert name ty schema.fields) := by
  rw [addField] at h
  split at h
  case isTrue => exact absurd h (by simp)
  case isFalse hname =>
    refine ⟨by simpa using hname, ?_⟩
    split at h
    · split at h
      · obtain rfl := Except.ok.inj h
        exact .inl rfl
      · exact absurd h (by simp)
    · obtain rfl := Except.ok.inj h
      exact .inr rfl

theorem isIdentifier_of_initialFields {className : String} :
    ∀ f ∈ initialFields className, isIdentifier f.1 = true := by
  have hsystem : ∀ f ∈ systemFields className, isIdentifier f.1 = true := by
    unfold systemFields
    split <;> decide
  intro f hf
  rcases List.mem_append.1 ((Members.mem_insertAll hf).resolve_right List.not_mem_nil) with hf | hf
  · have hdefault : ∀ f ∈ [("objectId", FieldType.string), ("createdAt", .date),
        ("updatedAt", .date), ("ACL", .acl)], isIdentifier f.1 = true := by decide
    exact hdefault f hf
  · exact hsystem f hf

namespace Built

variable {schema : ClassSchema}

theorem sorted (hs : schema.Built) : Members.Sorted schema.fields := by
  induction hs with
  | create h => exact fields_of_create h ▸ Members.sorted_ofList _
  | addField _ h ih =>
    rcases (fields_of_addField h).2 with h | h
    · exact h ▸ ih
    · exact h ▸ Members.sorted_insert ih _ _

/-- The fields of a class have identifiers for names. -/
theorem isIdentifier (hs : schema.Built) {f : String × FieldType} (h : f ∈ schema.fields) :
    isIdentifier f.1 = true := by
  induction hs with
  | create hcreate => exact isIdentifier_of_initialFields f (fields_of_create hcreate ▸ h)
  | addField _ hadd ih =>
    obtain ⟨hname, hadd | hadd⟩ := fields_of_addField hadd
    · exact ih (hadd ▸ h)
    · rcases Members.mem_insert (hadd ▸ h) with rfl | h
      · exact hname
      · exact ih h

/-- **The default fields** of a class have the same types in every class. -/
theorem fieldType?_of_default (hs : schema.Built) :
    ∀ f ∈ [("objectId", FieldType.string), ("createdAt", .date), ("updatedAt", .date),
      ("ACL", .acl)], schema.fieldType? f.1 = some f.2 := by
  induction hs with
  | create h =>
    simp only [ClassSchema.fieldType?, ClassSchema.fields_of_create h, ClassSchema.initialFields]
    unfold ClassSchema.systemFields
    split <;> decide
  | @addField schema schema' name ty _ h ih =>
    intro f hf
    rw [ClassSchema.addField] at h
    split at h
    · exact absurd h (by simp)
    · split at h
      · split at h
        · obtain rfl := Except.ok.inj h
          exact ih f hf
        · exact absurd h (by simp)
      · rename_i hnone
        obtain rfl := Except.ok.inj h
        have hne : f.1 ≠ name := fun he => by
          rw [← he, ih f hf] at hnone
          exact absurd hnone (by simp)
        exact (Members.lookup_insert ..).trans ((if_neg hne).trans (ih f hf))

/-- A schema made of a class and a list of fields is built field by field. -/
theorem of_withFields (className : String) (fields : List (String × FieldType))
    (h : withFields className fields = .ok schema) : schema.Built := by
  obtain ⟨start, hstart, h⟩ := Outcome.bind_eq_ok.1 h
  exact Outcome.foldlM_induction h (.create hstart) fun _ hs _ _ _ hadd => .addField hs hadd

end Built

end ClassSchema

namespace Stored

variable {schema : ClassSchema} {d : Document} {r : Record}

/-! ### Relation fields -/

theorem mem_relationFields {name target : String} :
    (name, target) ∈ schema.relationFields ↔ (name, .relation target) ∈ schema.fields := by
  rw [ClassSchema.relationFields, List.mem_filterMap]
  constructor
  · rintro ⟨⟨name', ty⟩, hf, h⟩
    cases ty with
    | relation target' =>
      obtain ⟨rfl, rfl⟩ := Prod.mk.inj (Option.some.inj h)
      exact hf
    | _ => exact absurd h (by simp)
  · intro h
    exact ⟨_, h, rfl⟩

theorem sorted_relationFields (hs : Members.Sorted schema.fields) :
    Members.Sorted schema.relationFields := by
  refine List.Pairwise.filterMap _ (fun f f' hlt t ht t' ht' => ?_) hs
  split at ht
  case h_2 => exact absurd ht (by simp)
  split at ht'
  case h_2 => exact absurd ht' (by simp)
  obtain rfl := Option.some.inj ht
  obtain rfl := Option.some.inj ht'
  exact hlt

/-- **Relation fields come from the schema**, the others from the document. -/
theorem lookup_withRelations (hs : Members.Sorted schema.fields) (doc : Document) (name : String) :
    (withRelations schema doc).fields.lookup name =
      match schema.fieldType? name with
      | some (.relation target) => some (.relation target)
      | _ => doc.fields.lookup name := by
  have hsorted : Members.Sorted
      (Members.mapValues Value.relation schema.relationFields) :=
    Members.sorted_mapValues (sorted_relationFields hs) _
  have hlookup : (withRelations schema doc).fields.lookup name =
      ((schema.relationFields.lookup name).map Value.relation).or (doc.fields.lookup name) := by
    rw [← Members.lookup_mapValues, ← hsorted.lookup_reverse, ← Members.lookup_insertAll]
    rfl
  rw [hlookup]
  split
  case h_1 target hty =>
    have hmem := mem_relationFields.2 (Members.mem_of_lookup hty)
    rw [(sorted_relationFields hs).lookup_of_mem hmem]
    rfl
  case h_2 hother =>
    cases hrelation : schema.relationFields.lookup name with
    | none => rfl
    | some target =>
      have hmem := mem_relationFields.1 (Members.mem_of_lookup hrelation)
      exact absurd (hs.lookup_of_mem hmem) (hother target)

/-! ### The keys of a field -/

/-- The field of a document that a stored member belongs to, by its key. -/
def fieldOf (key : String) : String :=
  match key with
  | "_id" => "objectId"
  | "_created_at" => "createdAt"
  | "_updated_at" => "updatedAt"
  | "_acl" | "_rperm" | "_wperm" => "ACL"
  | key => (Text.afterStart? pointerMark key).getD key

/-- No identifier begins with an underscore. -/
theorem afterStart?_pointerMark {name : String} (hname : isIdentifier name = true) :
    Text.afterStart? pointerMark name = none := by
  obtain ⟨c, rest, hchars, hc⟩ := head_of_isIdentifier hname
  have hne : '_' ≠ c := fun h => absurd (h ▸ hc) (by decide)
  rw [Text.afterStart?, hchars, show pointerMark.toList = ['_', 'p', '_'] by decide,
    Text.dropStart?, if_neg hne, Option.map_none]

/-- A key without a full stop is not taken apart. -/
theorem keyPath_eq {name : String} (hname : isIdentifier name = true) :
    keyPath schema name = rootKey schema name := by
  rw [keyPath, Text.splitFirst_eq_none (not_mem_of_isIdentifier hname)]

/-- The key of a field that not every class has. -/
theorem rootKey_eq {name : String} (hdefault : name ∉ defaultFields) :
    rootKey schema name = match schema.fieldType? name with
      | some (.pointer _) => pointerMark ++ name
      | _ => name := by
  unfold rootKey
  split
  case h_1 | h_2 | h_3 | h_4 => exact absurd (by decide) hdefault
  case h_5 => rfl

theorem fieldOf_identifier {name : String} (hname : isIdentifier name = true) :
    fieldOf name = name := by
  unfold fieldOf
  split
  case h_7 => rw [afterStart?_pointerMark hname, Option.getD_none]
  all_goals exact absurd hname (by decide)

theorem fieldOf_pointerMark (name : String) : fieldOf (pointerMark ++ name) = name := by
  have hafter := Text.afterStart?_append pointerMark name
  unfold fieldOf
  split
  case h_7 => rw [hafter, Option.getD_some]
  -- no key of a header begins with the mark
  all_goals
    rename_i hkey
    rw [hkey] at hafter
    exact absurd (Option.isSome_of_eq_some hafter) (by decide)

/-- **The key of a field** says which field it is. -/
theorem fieldOf_rootKey {name : String} (hname : isIdentifier name = true) :
    fieldOf (rootKey schema name) = name := by
  by_cases hdefault : name ∈ defaultFields
  · simp only [defaultFields, List.mem_cons, List.not_mem_nil, or_false] at hdefault
    rcases hdefault with rfl | rfl | rfl | rfl <;> rfl
  · rw [rootKey_eq hdefault]
    split
    · exact fieldOf_pointerMark name
    · exact fieldOf_identifier hname

/-! ### The members that store a field -/

/-- The members that store an access control list. -/
def accessMembers (list : Acl) : List (String × Datum) :=
  [(aclKey, .record (encodeAcl list)), (readPermKey, .array (list.readers.map .string)),
    (writePermKey, .array (list.writers.map .string))]

/-- **The members that store a declared field**: three for an access control list, none for a
relation, and one for anything else. -/
inductive FieldStored (schema : ClassSchema) : String × Value → List (String × Datum) → Prop
  | noAccess : FieldStored schema ("ACL", .null) []
  | access (list : Acl) : FieldStored schema ("ACL", .acl list) (accessMembers list)
  | relation {name target : String} (v : Value) (hne : name ≠ "ACL")
      (hty : schema.fieldType? name = some (.relation target)) : FieldStored schema (name, v) []
  | typed {name : String} {ty : FieldType} {v : Value} {x : Datum} (hne : name ≠ "ACL")
      (hty : schema.fieldType? name = some ty) (hrelation : ∀ target, ty ≠ .relation target)
      (hx : encode ty v = .ok x) : FieldStored schema (name, v) [(rootKey schema name, x)]

theorem fieldStored_of_encodeField {name : String} {v : Value} {ms : List (String × Datum)}
    (hname : isIdentifier name = true) (hdeclared : schema.hasField name = true)
    (h : encodeField schema name v = .ok ms) : FieldStored schema (name, v) ms := by
  obtain ⟨ty, hty⟩ := Option.isSome_iff_exists.1 hdeclared
  rw [encodeField] at h
  split at h
  case isTrue hacl =>
    subst hacl
    cases v with
    | null =>
      obtain rfl := Except.ok.inj h
      exact .noAccess
    | acl list =>
      obtain rfl := Except.ok.inj h
      exact .access list
    | _ => exact absurd h (by simp [aclMembers])
  case isFalse hne =>
    cases ty with
    | relation target =>
      simp only [hty] at h
      obtain rfl := Except.ok.inj h
      exact .relation v hne hty
    | _ =>
      simp only [hty] at h
      obtain ⟨x, hx, h⟩ := Outcome.bind_eq_ok.1 h
      obtain rfl := Except.ok.inj h
      rw [keyPath_eq hname]
      exact .typed hne hty (by simp) (Outcome.inField_eq_ok.1 hx)

namespace FieldStored

variable {f : String × Value} {ms : List (String × Datum)} {m m' : String × Datum}

/-- Each of the members belongs to the field. -/
theorem fieldOf_eq (h : FieldStored schema f ms) (hname : isIdentifier f.1 = true) (hm : m ∈ ms) :
    fieldOf m.1 = f.1 := by
  cases h with
  | noAccess | relation => exact absurd hm List.not_mem_nil
  | access list =>
    have hkey : m.1 ∈ (accessMembers list).map Prod.fst := List.mem_map_of_mem hm
    have hkeys : ∀ key ∈ (accessMembers list).map Prod.fst, fieldOf key = "ACL" := by
      change ∀ key ∈ [aclKey, readPermKey, writePermKey], fieldOf key = "ACL"
      decide
    exact hkeys _ hkey
  | typed =>
    obtain rfl := List.mem_singleton.1 hm
    exact fieldOf_rootKey hname

/-- No two of the members have one key. -/
theorem eq_of_key (h : FieldStored schema f ms) (hm : m ∈ ms) (hm' : m' ∈ ms)
    (hkey : m.1 = m'.1) : m = m' := by
  cases h with
  | noAccess | relation => exact absurd hm List.not_mem_nil
  | access list =>
    have hdistinct : Members.Sorted (accessMembers list) :=
      Members.sorted_of_keys [aclKey, readPermKey, writePermKey] (by decide) rfl
    exact hdistinct.eq_of_key hm hm' hkey
  | typed =>
    exact (List.mem_singleton.1 hm).trans (List.mem_singleton.1 hm').symm

end FieldStored

/-! ### The members that store a document -/

/-- **A document as its class stores it**: maps in key order, every field declared and none of
them part of the header, and relation fields that hold the relation that the class declares. -/
structure Fits (schema : ClassSchema) (d : Document) : Prop where
  sorted : Members.Sorted d.fields
  ordered : Value.OrderedMembers d.fields
  declared : ∀ f ∈ d.fields, schema.hasField f.1 = true
  notHeader : ∀ f ∈ d.fields, f.1 ∉ ["objectId", "createdAt", "updatedAt"]
  relation : ∀ f ∈ d.fields, ∀ target, schema.fieldType? f.1 = some (.relation target) →
    f.2 = .relation target

theorem Fits.isIdentifier (hd : Fits schema d) (hs : schema.Built) {f : String × Value}
    (hf : f ∈ d.fields) : isIdentifier f.1 = true := by
  obtain ⟨ty, hty⟩ := Option.isSome_iff_exists.1 (hd.declared _ hf)
  exact hs.isIdentifier (Members.mem_of_lookup hty)

theorem Fits.not_default (hd : Fits schema d) {f : String × Value} (hf : f ∈ d.fields)
    (hne : f.1 ≠ "ACL") : f.1 ∉ defaultFields := by
  have hheader := hd.notHeader f hf
  simp only [defaultFields, List.mem_cons, List.not_mem_nil, or_false, not_or] at hheader ⊢
  exact ⟨hheader.1, hheader.2.1, hheader.2.2, hne⟩

/-- **The members that store a document**, each with the field it belongs to. -/
inductive MemberStored (schema : ClassSchema) (d : Document) : String → String × Datum → Prop
  | objectId : MemberStored schema d "objectId" (Record.idKey, .string d.objectId)
  | createdAt {t : Instant} (h : d.createdAt = some t) :
    MemberStored schema d "createdAt" (createdAtKey, .date t)
  | updatedAt {t : Instant} (h : d.updatedAt = some t) :
    MemberStored schema d "updatedAt" (updatedAtKey, .date t)
  | field {f : String × Value} {ms : List (String × Datum)} {m : String × Datum}
    (hf : f ∈ d.fields) (hms : encodeField schema f.1 f.2 = .ok ms) (hm : m ∈ ms) :
    MemberStored schema d f.1 m

/-- The members of the header, in the order they are put together. -/
def header (d : Document) : List (String × Datum) :=
  (Record.idKey, .string d.objectId) ::
    ((d.createdAt.toList.map fun t => (createdAtKey, Datum.date t)) ++
      d.updatedAt.toList.map fun t => (updatedAtKey, Datum.date t))

theorem headerMembers_eq (d : Document) : headerMembers d = Members.ofList (header d) := by
  rw [headerMembers, header]
  cases d.createdAt <;> cases d.updatedAt <;> rfl

theorem mem_header {m : String × Datum} :
    m ∈ header d ↔ m = (Record.idKey, .string d.objectId) ∨
      (∃ t, d.createdAt = some t ∧ m = (createdAtKey, .date t)) ∨
      ∃ t, d.updatedAt = some t ∧ m = (updatedAtKey, .date t) := by
  simp only [header, List.mem_cons, List.mem_append, List.mem_map, Option.mem_toList, eq_comm]

namespace MemberStored

variable {n n' : String} {m m' : String × Datum}

/-- The key of a member says which field it belongs to. -/
theorem fieldOf_eq (hs : schema.Built) (hd : Fits schema d) (h : MemberStored schema d n m) :
    fieldOf m.1 = n := by
  cases h with
  | objectId | createdAt | updatedAt => rfl
  | field hf hms hm =>
    have hname := hd.isIdentifier hs hf
    have hstored := fieldStored_of_encodeField hname (hd.declared _ hf) hms
    exact hstored.fieldOf_eq hname hm

/-- **No two members have one key.** -/
theorem eq_of_key (hs : schema.Built) (hd : Fits schema d) (h : MemberStored schema d n m)
    (h' : MemberStored schema d n' m') (hkey : m.1 = m'.1) : m = m' := by
  have hn : n = n' := by rw [← h.fieldOf_eq hs hd, ← h'.fieldOf_eq hs hd, hkey]
  have outside {f : String × Value} (hf : f ∈ d.fields) {name : String}
      (hname : name ∈ ["objectId", "createdAt", "updatedAt"]) : f.1 ≠ name :=
    fun he => hd.notHeader f hf (he ▸ hname)
  cases h with
  | objectId =>
    cases h' with
    | objectId => rfl
    | createdAt | updatedAt => exact absurd hn (by decide)
    | field hf => exact absurd hn.symm (outside hf (by decide))
  | createdAt h =>
    cases h' with
    | createdAt h' => rw [Option.some.inj (h.symm.trans h')]
    | objectId | updatedAt => exact absurd hn (by decide)
    | field hf => exact absurd hn.symm (outside hf (by decide))
  | updatedAt h =>
    cases h' with
    | updatedAt h' => rw [Option.some.inj (h.symm.trans h')]
    | objectId | createdAt => exact absurd hn (by decide)
    | field hf => exact absurd hn.symm (outside hf (by decide))
  | field hf hms hm =>
    cases h' with
    | objectId | createdAt | updatedAt => exact absurd hn (outside hf (by decide))
    | field hf' hms' hm' =>
      obtain rfl := hd.sorted.eq_of_key hf hf' hn
      obtain rfl := Except.ok.inj (hms.symm.trans hms')
      have hstored := fieldStored_of_encodeField (hd.isIdentifier hs hf) (hd.declared _ hf) hms
      exact hstored.eq_of_key hm hm' hkey

end MemberStored

/-- Fields are stored one after another on top of what is there. -/
theorem exists_of_foldlM_encodeField {fields : List (String × Value)} {start r : Record}
    (hheader : ∀ f ∈ fields, f.1 ∉ ["objectId", "createdAt", "updatedAt"])
    (h : fields.foldlM (fun record f =>
      if f.1 = "objectId" || f.1 = "createdAt" || f.1 = "updatedAt" then .ok record
      else do return Members.insertAll record (← encodeField schema f.1 f.2)) start = .ok r) :
    (∀ f ∈ fields, ∃ ms, encodeField schema f.1 f.2 = .ok ms) ∧
      ∃ news, r = Members.insertAll start news ∧
        ∀ m, m ∈ news ↔ ∃ f ∈ fields, ∃ ms, encodeField schema f.1 f.2 = .ok ms ∧ m ∈ ms := by
  induction fields generalizing start with
  | nil =>
    obtain rfl := Except.ok.inj h
    exact ⟨fun f hf => absurd hf List.not_mem_nil, [], rfl, by simp⟩
  | cons f rest ih =>
    obtain ⟨hfirst, hrest⟩ := List.forall_mem_cons.1 hheader
    rw [List.foldlM_cons, if_neg (by simpa [and_assoc] using hfirst)] at h
    obtain ⟨record, hrecord, h⟩ := Outcome.bind_eq_ok.1 h
    obtain ⟨ms, hms, hrecord⟩ := Outcome.bind_eq_ok.1 hrecord
    obtain rfl := Except.ok.inj hrecord
    obtain ⟨hall, news, rfl, hnews⟩ := ih hrest h
    refine ⟨List.forall_mem_cons.2 ⟨⟨ms, hms⟩, hall⟩, ms ++ news, ?_, fun m => ?_⟩
    · rw [Members.insertAll_append]
    · simp [hnews, hms]

/-- The record is put together from the members of the header and of the fields. -/
theorem exists_ofList_of_encodeDocument
    (hheader : ∀ f ∈ d.fields, f.1 ∉ ["objectId", "createdAt", "updatedAt"])
    (h : encodeDocument schema d = .ok r) :
    ∃ members, r = Members.ofList members ∧ ∀ m, m ∈ members ↔ ∃ n, MemberStored schema d n m := by
  obtain ⟨-, news, rfl, hnews⟩ := exists_of_foldlM_encodeField hheader h
  refine ⟨header d ++ news, ?_, fun m => ?_⟩
  · rw [headerMembers_eq, Members.ofList, Members.ofList, Members.insertAll_append]
  rw [List.mem_append, mem_header, hnews]
  constructor
  · rintro ((rfl | ⟨t, ht, rfl⟩ | ⟨t, ht, rfl⟩) | ⟨f, hf, ms, hms, hm⟩)
    · exact ⟨_, .objectId⟩
    · exact ⟨_, .createdAt ht⟩
    · exact ⟨_, .updatedAt ht⟩
    · exact ⟨_, .field hf hms hm⟩
  · rintro ⟨n, hm⟩
    cases hm with
    | objectId => exact .inl (.inl rfl)
    | createdAt ht => exact .inl (.inr (.inl ⟨_, ht, rfl⟩))
    | updatedAt ht => exact .inl (.inr (.inr ⟨_, ht, rfl⟩))
    | field hf hms hm => exact .inr ⟨_, hf, _, hms, hm⟩

/-- **The record that stores a document** has these members and no other. -/
theorem mem_encodeDocument (hs : schema.Built) (hd : Fits schema d)
    (h : encodeDocument schema d = .ok r) {m : String × Datum} :
    m ∈ r ↔ ∃ n, MemberStored schema d n m := by
  obtain ⟨members, rfl, hmem⟩ := exists_ofList_of_encodeDocument hd.notHeader h
  refine (Members.mem_ofList_iff fun key x y hx hy => ?_).trans (hmem m)
  obtain ⟨n, hx⟩ := (hmem _).1 hx
  obtain ⟨n', hy⟩ := (hmem _).1 hy
  exact congrArg Prod.snd (hx.eq_of_key hs hd hy rfl)

end Stored

end ObjectEngine
