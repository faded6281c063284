import ObjectEngine.Proofs.Stored.Layout

/-!
# Stored documents are read back

A stored document is read member by member in the order of their keys. What each says on its own
(`Stored.said`) is put together in any order, because no two members say something of the same
field. So a stored document is read back as what is left of it (`Stored.remaining`), if its
references come apart where their keys were put together, and only then
(`Stored.decodeDocument_encodeDocument_iff`): nothing stops a schema from naming a class with a
dollar sign as the target of a pointer, nor a document from referring to an object without an id.
-/

namespace ObjectEngine

namespace Stored

variable {schema : ClassSchema} {d : Document} {r : Record}

/-! ### What the members say -/

/-- A document that nothing has been said of yet. -/
def blank : Document :=
  { className := "", objectId := "", createdAt := none, updatedAt := none, fields := [] }

/-- What a stored member says of its document on its own. -/
def said (schema : ClassSchema) (m : String × Datum) : Outcome Document :=
  decodeMember schema blank m.1 m.2

/-- A document with what one more member says of it. -/
def adding (doc part : Document) : Document :=
  { doc with
    createdAt := part.createdAt.or doc.createdAt
    updatedAt := part.updatedAt.or doc.updatedAt
    fields := Members.insertAll doc.fields part.fields }

theorem decodeMember_eq (doc : Document) (key : String) (x : Datum) :
    decodeMember schema doc key x = (said schema (key, x)).map (adding doc) := by
  have htime (t : Option Instant) : timeOr t x = (timeOr none x).or t := by
    cases x <;> rfl
  have hfield (outcome : Outcome Value) (name : String) :
      (do return { doc with fields := Members.insert name (← outcome) doc.fields } :
        Outcome Document) =
      (do return { blank with fields := Members.insert name (← outcome) blank.fields } :
        Outcome Document).map (adding doc) := by
    cases outcome <;> rfl
  unfold said decodeMember
  dsimp only
  split
  · rfl
  split
  · rw [htime]
    rfl
  split
  · rw [htime]
    rfl
  split
  · split <;> rfl
  split
  · exact hfield _ _
  split
  · exact hfield _ _
  · exact hfield _ _

/-- **Members are read on their own** and then put together. -/
theorem foldlM_decodeMember (members : List (String × Datum)) (doc : Document) :
    members.foldlM (fun doc m => decodeMember schema doc m.1 m.2) doc =
      (members.mapM (said schema)).map fun parts => parts.foldl adding doc := by
  induction members generalizing doc with
  | nil => rfl
  | cons m rest ih =>
    rw [List.foldlM_cons, List.mapM_cons, decodeMember_eq]
    cases said schema (m.1, m.2) with
    | error e => rfl
    | ok part =>
      change rest.foldlM _ (adding doc part) = _
      rw [ih]
      change _ = (rest.mapM (said schema) >>= _).map _
      cases rest.mapM (said schema) <;> rfl

/-- **A stored document** is put together from what its members say. -/
theorem decodeDocument_eq {id : String} (hid : r.id? = some id) :
    decodeDocument schema r = (r.mapM (said schema)).map fun parts =>
      withRelations schema
        (parts.foldl adding { blank with className := schema.className, objectId := id }) := by
  rw [decodeDocument, hid]
  change (r.foldlM (fun doc m => decodeMember schema doc m.1 m.2)
    { blank with className := schema.className, objectId := id } >>= _) = _
  rw [foldlM_decodeMember]
  cases r.mapM (said schema) <;> rfl

theorem foldl_adding_className (parts : List Document) (doc : Document) :
    (parts.foldl adding doc).className = doc.className ∧
      (parts.foldl adding doc).objectId = doc.objectId := by
  induction parts generalizing doc with
  | nil => exact ⟨rfl, rfl⟩
  | cons part rest ih => exact ih (adding doc part)

theorem foldl_adding_fields (parts : List Document) (doc : Document) :
    (parts.foldl adding doc).fields =
      Members.insertAll doc.fields (parts.flatMap (·.fields)) := by
  induction parts generalizing doc with
  | nil => rfl
  | cons part rest ih =>
    rw [List.foldl_cons, ih, List.flatMap_cons, Members.insertAll_append]
    rfl

/-- A time is known as soon as one part says it, if no part says another. -/
theorem foldl_adding_time {time : Document → Option Instant}
    (htime : ∀ doc part, time (adding doc part) = (time part).or (time doc))
    {t : Option Instant} {parts : List Document} {doc : Document}
    (hall : ∀ part ∈ parts, time part = none ∨ time part = t)
    (hdoc : time doc = none ∨ time doc = t)
    (hsaid : time doc = t ∨ ∃ part ∈ parts, time part = t) :
    time (parts.foldl adding doc) = t := by
  induction parts generalizing doc with
  | nil => exact hsaid.resolve_right (by simp)
  | cons part rest ih =>
    obtain ⟨hpart, hrest⟩ := List.forall_mem_cons.1 hall
    refine ih hrest ?_ ?_
    · rw [htime]
      rcases hpart with h | h <;> rcases hdoc with h' | h' <;> cases t <;> simp [h, h']
    · rw [htime]
      rcases hsaid with h | ⟨part', hmem, h⟩
      · rcases hpart with h' | h' <;> cases t <;> simp [h, h']
      rcases List.mem_cons.1 hmem with rfl | hmem
      · left
        rcases hdoc with h' | h' <;> cases t <;> simp [h, h']
      · exact .inr ⟨part', hmem, h⟩

/-- **What a stored field is read back as.** -/
inductive ReadsBack (schema : ClassSchema) : String × Value → Value → Prop
  | access (list : Acl) : ReadsBack schema ("ACL", .acl list) (.acl (decodeAcl (encodeAcl list)))
  | typed {name : String} {ty : FieldType} {v w : Value} {x : Datum} (hne : name ≠ "ACL")
      (hty : schema.fieldType? name = some ty) (hrelation : ∀ target, ty ≠ .relation target)
      (hx : encode ty v = .ok x) (hw : decode ty x = .ok w) : ReadsBack schema (name, v) w

theorem ReadsBack.unique {f : String × Value} {w w' : Value} (h : ReadsBack schema f w)
    (h' : ReadsBack schema f w') : w = w' := by
  cases h with
  | access list =>
    cases h' with
    | access => rfl
    | typed hne => exact absurd rfl hne
  | typed hne hty _ hx hw =>
    cases h' with
    | access => exact absurd rfl hne
    | typed _ hty' _ hx' hw' =>
      obtain rfl := Option.some.inj (hty.symm.trans hty')
      obtain rfl := Except.ok.inj (hx.symm.trans hx')
      exact Except.ok.inj (hw.symm.trans hw')

/-- A reference is read back as a value of its declared type. -/
theorem ReadsBack.of_reference {f : String × Value} {w : Value} {ty : FieldType} {p : Pointer}
    (h : ReadsBack schema f w) (hty : schema.fieldType? f.1 = some ty)
    (hp : f.2.asPointer? = some p) : ∃ x, encode ty f.2 = .ok x ∧ decode ty x = .ok w := by
  cases h with
  | access list => exact absurd hp (by simp [Value.asPointer?])
  | typed _ hty' _ hx hw =>
    obtain rfl := Option.some.inj (hty'.symm.trans hty)
    exact ⟨_, hx, hw⟩

/-- The member that stores a typed field says what the field is read back as. -/
theorem said_rootKey {name : String} {ty : FieldType} (hname : isIdentifier name = true)
    (hdefault : name ∉ defaultFields) (hty : schema.fieldType? name = some ty) (x : Datum) :
    said schema (rootKey schema name, x) =
      ((decode ty x).inField name).map fun w => { blank with fields := [(name, w)] } := by
  have hkeys (key : String) (hkey : fieldOf key ∈ defaultFields) : rootKey schema name ≠ key :=
    fun he => hdefault (by rwa [← he, fieldOf_rootKey hname] at hkey)
  have hid := hkeys Record.idKey (by decide)
  have hread := hkeys readPermKey (by decide)
  have hwrite := hkeys writePermKey (by decide)
  have hcreated := hkeys createdAtKey (by decide)
  have hupdated := hkeys updatedAtKey (by decide)
  have hacl := hkeys aclKey (by decide)
  simp only [said, decodeMember, hid, hread, hwrite, hcreated, hupdated, hacl, decide_false,
    Bool.or_self, Bool.false_eq_true, if_false]
  rw [rootKey_eq hdefault, hty]
  cases ty with
  | pointer target =>
    simp only [Text.afterStart?_append, hty]
    cases (decode (.pointer target) x).inField name <;> rfl
  | _ =>
    simp only [afterStart?_pointerMark hname, hty]
    generalize Outcome.inField name _ = outcome
    cases outcome <;> rfl

/-- What the header says. -/
theorem said_header (schema : ClassSchema) (id : String) (t : Instant) :
    said schema (Record.idKey, .string id) = .ok blank ∧
      said schema (createdAtKey, .date t) = .ok { blank with createdAt := some t } ∧
      said schema (updatedAtKey, .date t) = .ok { blank with updatedAt := some t } :=
  ⟨rfl, rfl, rfl⟩

/-- What the members of an access control list say. -/
theorem said_accessMembers (schema : ClassSchema) (list : Acl) :
    (accessMembers list).map (said schema) =
      [.ok { blank with fields := [("ACL", .acl (decodeAcl (encodeAcl list)))] },
        .ok blank, .ok blank] :=
  rfl

/-- **What a member says** is a time of the document, or what one of its fields is read back
as. -/
theorem of_said (hs : schema.Built) (hd : Fits schema d) {n : String} {m : String × Datum}
    {part : Document} (h : MemberStored schema d n m) (hpart : said schema m = .ok part) :
    (part.createdAt = none ∨ part.createdAt = d.createdAt) ∧
      (part.updatedAt = none ∨ part.updatedAt = d.updatedAt) ∧
      ∀ g ∈ part.fields, ∃ f ∈ d.fields, f.1 = g.1 ∧ ReadsBack schema f g.2 := by
  have hblank {g : String × Value} (hg : g ∈ blank.fields) :
      ∃ f ∈ d.fields, f.1 = g.1 ∧ ReadsBack schema f g.2 := absurd hg List.not_mem_nil
  cases h with
  | objectId =>
    obtain rfl := Except.ok.inj ((said_header schema _ ⟨0, 0⟩).1.symm.trans hpart)
    exact ⟨.inl rfl, .inl rfl, fun g => hblank⟩
  | createdAt ht =>
    obtain rfl := Except.ok.inj ((said_header schema "" _).2.1.symm.trans hpart)
    exact ⟨.inr ht.symm, .inl rfl, fun g => hblank⟩
  | updatedAt ht =>
    obtain rfl := Except.ok.inj ((said_header schema "" _).2.2.symm.trans hpart)
    exact ⟨.inl rfl, .inr ht.symm, fun g => hblank⟩
  | @field f ms m hf hms hm =>
    obtain ⟨name, v⟩ := f
    have hname := hd.isIdentifier hs hf
    have hstored := fieldStored_of_encodeField hname (hd.declared _ hf) hms
    cases hstored with
    | noAccess | relation => exact absurd hm List.not_mem_nil
    | access list =>
      have hsaid : said schema m ∈ (accessMembers list).map (said schema) := List.mem_map_of_mem hm
      rw [said_accessMembers, hpart] at hsaid
      simp only [List.mem_cons, Except.ok.injEq, List.not_mem_nil, or_false, or_self] at hsaid
      rcases hsaid with rfl | rfl
      · refine ⟨.inl rfl, .inl rfl, fun g hg => ⟨_, hf, ?_⟩⟩
        obtain rfl := List.mem_singleton.1 hg
        exact ⟨rfl, .access list⟩
      · exact ⟨.inl rfl, .inl rfl, fun g => hblank⟩
    | @typed _ ty _ x hne hty hrelation hx =>
      obtain rfl := List.mem_singleton.1 hm
      rw [said_rootKey hname (hd.not_default hf hne) hty] at hpart
      obtain ⟨w, hw, rfl⟩ := Outcome.map_eq_ok.1 hpart
      refine ⟨.inl rfl, .inl rfl, fun g hg => ⟨_, hf, ?_⟩⟩
      obtain rfl := List.mem_singleton.1 hg
      exact ⟨rfl, .typed hne hty hrelation hx (Outcome.inField_eq_ok.1 hw)⟩

/-- **What a field is read back as** is said by one of the members. -/
theorem exists_said (hs : schema.Built) (hd : Fits schema d)
    (h : encodeDocument schema d = .ok r) {f : String × Value} {w : Value} (hf : f ∈ d.fields)
    (hback : ReadsBack schema f w) :
    ∃ m ∈ r, said schema m = .ok { blank with fields := [(f.1, w)] } := by
  have hname := hd.isIdentifier hs hf
  obtain ⟨ms, hms⟩ := (exists_of_foldlM_encodeField hd.notHeader h).1 f hf
  have hstored := fieldStored_of_encodeField hname (hd.declared _ hf) hms
  have hmem {m : String × Datum} (hm : m ∈ ms) : m ∈ r :=
    (mem_encodeDocument hs hd h).2 ⟨_, .field hf hms hm⟩
  cases hback with
  | access list =>
    cases hstored with
    | access => exact ⟨_, hmem List.mem_cons_self, rfl⟩
    | relation _ hne | typed hne => exact absurd rfl hne
  | @typed name ty v w x hne hty hrelation hx hw =>
    cases hstored with
    | noAccess | access => exact absurd rfl hne
    | relation _ _ hty' => exact absurd (Option.some.inj (hty.symm.trans hty')) (hrelation _)
    | typed _ hty' _ hx' =>
      obtain rfl := Option.some.inj (hty.symm.trans hty')
      obtain rfl := Except.ok.inj (hx.symm.trans hx')
      refine ⟨_, hmem List.mem_cons_self, ?_⟩
      rw [said_rootKey hname (hd.not_default hf hne) hty, hw]
      rfl

/-- The record that stores a document has its id. -/
theorem id?_encodeDocument (hs : schema.Built) (hd : Fits schema d)
    (h : encodeDocument schema d = .ok r) : r.id? = some d.objectId := by
  have hmem := (mem_encodeDocument hs hd h).2 ⟨_, .objectId⟩
  obtain ⟨-, news, hnews, -⟩ := exists_of_foldlM_encodeField hd.notHeader h
  have hsorted : Members.Sorted r := by
    rw [hnews, headerMembers_eq]
    exact Members.sorted_insertAll (Members.sorted_ofList _) _
  rw [Record.id?, Record.string?, hsorted.lookup_of_mem hmem]
  rfl

/-! ### What is read back -/

section Parts

variable {parts : List Document} {start : Document} (hs : schema.Built) (hd : Fits schema d)
  (h : encodeDocument schema d = .ok r) (hparts : r.mapM (said schema) = .ok parts)

include hparts in
/-- What a member says is one of the parts. -/
theorem mem_parts {m : String × Datum} {part : Document} (hm : m ∈ r)
    (hsaid : said schema m = .ok part) : part ∈ parts := by
  obtain ⟨part', hp, hsaid'⟩ :=
    Outcome.exists_of_forall₂ (Outcome.forall₂_of_mapM hparts).flip hm
  exact Except.ok.inj (hsaid.symm.trans hsaid') ▸ hp

include hs hd h hparts

/-- Each part is what a member says. -/
theorem of_mem_parts {part : Document} (hp : part ∈ parts) :
    (part.createdAt = none ∨ part.createdAt = d.createdAt) ∧
      (part.updatedAt = none ∨ part.updatedAt = d.updatedAt) ∧
      ∀ g ∈ part.fields, ∃ f ∈ d.fields, f.1 = g.1 ∧ ReadsBack schema f g.2 := by
  obtain ⟨m, hm, hsaid⟩ := Outcome.exists_of_forall₂ (Outcome.forall₂_of_mapM hparts) hp
  obtain ⟨n, hm⟩ := (mem_encodeDocument hs hd h).1 hm
  exact of_said hs hd hm hsaid

/-- The parts say the times of the document. -/
theorem times_of_parts (hcreated : start.createdAt = none) (hupdated : start.updatedAt = none) :
    (parts.foldl adding start).createdAt = d.createdAt ∧
      (parts.foldl adding start).updatedAt = d.updatedAt := by
  have hpart {part : Document} (hp : part ∈ parts) := of_mem_parts hs hd h hparts hp
  constructor
  · refine foldl_adding_time (fun _ _ => rfl) (fun part hp => (hpart hp).1) (.inl hcreated) ?_
    cases ht : d.createdAt with
    | none => exact .inl hcreated
    | some t =>
      have hm := (mem_encodeDocument hs hd h).2 ⟨_, .createdAt ht⟩
      exact .inr ⟨_, mem_parts hparts hm (said_header schema "" t).2.1, rfl⟩
  · refine foldl_adding_time (fun _ _ => rfl) (fun part hp => (hpart hp).2.1) (.inl hupdated) ?_
    cases ht : d.updatedAt with
    | none => exact .inl hupdated
    | some t =>
      have hm := (mem_encodeDocument hs hd h).2 ⟨_, .updatedAt ht⟩
      exact .inr ⟨_, mem_parts hparts hm (said_header schema "" t).2.2, rfl⟩

/-- The parts have the fields of the document, as they are read back. -/
theorem mem_fields_of_parts {g : String × Value} :
    g ∈ parts.flatMap (·.fields) ↔ ∃ f ∈ d.fields, f.1 = g.1 ∧ ReadsBack schema f g.2 := by
  rw [List.mem_flatMap]
  constructor
  · rintro ⟨part, hp, hg⟩
    exact (of_mem_parts hs hd h hparts hp).2.2 g hg
  · rintro ⟨f, hf, hname, hback⟩
    obtain ⟨m, hm, hsaid⟩ := exists_said hs hd h hf hback
    exact ⟨_, mem_parts hparts hm hsaid, List.mem_singleton.2 (Prod.ext hname.symm rfl)⟩

/-- No two parts say different things of a field. -/
theorem unique_of_parts {name : String} {u v : Value} (hu : (name, u) ∈ parts.flatMap (·.fields))
    (hv : (name, v) ∈ parts.flatMap (·.fields)) : u = v := by
  obtain ⟨f, hf, hname, hu⟩ := (mem_fields_of_parts hs hd h hparts).1 hu
  obtain ⟨f', hf', hname', hv⟩ := (mem_fields_of_parts hs hd h hparts).1 hv
  obtain rfl := hd.sorted.eq_of_key hf hf' (hname.trans hname'.symm)
  exact hu.unique hv

end Parts

/-- A document as it is read back, with these fields beside the relations of its class. -/
def readBack (schema : ClassSchema) (d : Document) (fields : Members Value) : Document :=
  withRelations schema
    { className := schema.className
      objectId := d.objectId
      createdAt := d.createdAt
      updatedAt := d.updatedAt
      fields }

/-- **Reading a stored document** gives its header and what its fields are read back as. -/
theorem exists_fields_of_decodeDocument (hs : schema.Built) (hd : Fits schema d)
    (h : encodeDocument schema d = .ok r) {doc : Document}
    (hdoc : decodeDocument schema r = .ok doc) :
    ∃ fields, doc = readBack schema d fields ∧ Members.Sorted fields ∧
      ∀ name w, fields.lookup name = some w ↔
        ∃ f ∈ d.fields, f.1 = name ∧ ReadsBack schema f w := by
  rw [decodeDocument_eq (id?_encodeDocument hs hd h)] at hdoc
  obtain ⟨parts, hparts, rfl⟩ := Outcome.map_eq_ok.1 hdoc
  obtain ⟨start, hstart⟩ : ∃ start : Document, start = { blank with
    className := schema.className, objectId := d.objectId } := ⟨_, rfl⟩
  have hcreated : start.createdAt = none := hstart ▸ rfl
  have hupdated : start.updatedAt = none := hstart ▸ rfl
  obtain ⟨hcreated, hupdated⟩ := times_of_parts hs hd h hparts hcreated hupdated
  obtain ⟨hclass, hid⟩ := foldl_adding_className parts start
  have hfields : (parts.foldl adding start).fields =
      Members.ofList (parts.flatMap (·.fields)) := by
    rw [foldl_adding_fields, hstart]
    rfl
  have hsorted := Members.sorted_ofList (parts.flatMap (·.fields))
  have hunique : ∀ name u v, (name, u) ∈ parts.flatMap (·.fields) →
      (name, v) ∈ parts.flatMap (·.fields) → u = v :=
    fun _ _ _ => unique_of_parts hs hd h hparts
  refine ⟨Members.ofList (parts.flatMap (·.fields)), ?_, hsorted, fun name w => ?_⟩
  · rw [readBack, ← hfields, ← hcreated, ← hupdated, ← hstart]
    have hclass : (parts.foldl adding start).className = schema.className :=
      hclass.trans (hstart ▸ rfl)
    have hid : (parts.foldl adding start).objectId = d.objectId := hid.trans (hstart ▸ rfl)
    rw [← hclass, ← hid]
  · rw [← mem_fields_of_parts hs hd h hparts (g := (name, w)), ← Members.mem_ofList_iff hunique]
    exact ⟨Members.mem_of_lookup, hsorted.lookup_of_mem⟩

theorem lookup_readBack (hs : schema.Built) (fields : Members Value) (name : String) :
    (readBack schema d fields).fields.lookup name =
      match schema.fieldType? name with
      | some (.relation target) => some (.relation target)
      | _ => fields.lookup name :=
  lookup_withRelations hs.sorted _ name

/-- Beside the relations of its class, a document is known from what is read from it. -/
theorem readBack_congr (hs : schema.Built) {fields fields' : Members Value}
    (hsorted : fields.Sorted) (hsorted' : fields'.Sorted)
    (h : ∀ name, (∀ target, schema.fieldType? name ≠ some (.relation target)) →
      fields.lookup name = fields'.lookup name) :
    readBack schema d fields = readBack schema d fields' := by
  have heta (fields : Members Value) : readBack schema d fields =
      ⟨schema.className, d.objectId, d.createdAt, d.updatedAt,
        (readBack schema d fields).fields⟩ := rfl
  have hfields : (readBack schema d fields).fields = (readBack schema d fields').fields := by
    refine Members.Sorted.ext (Members.sorted_insertAll hsorted _)
      (Members.sorted_insertAll hsorted' _) fun name => ?_
    rw [lookup_readBack hs, lookup_readBack hs]
    split
    · rfl
    · rename_i hother
      exact h name fun target hty => hother target hty
  rw [heta fields, heta fields', hfields]

/-- The fields that are left of a document: without included documents, and without an access
control list that is null. -/
def remaining (d : Document) : Members Value :=
  Value.detachedMembers (d.fields.filter fun f => !(f.1 = "ACL" && f.2.isNull))

theorem detachedMembers_eq (members : List (String × Value)) :
    Value.detachedMembers members = Members.mapValues Value.detached members := by
  induction members with
  | nil => rfl
  | cons m rest ih => rw [Value.detachedMembers, ih, Members.mapValues, Members.mapValues,
      List.map_cons]

theorem lookup_remaining (hsorted : Members.Sorted d.fields) {name : String} {w : Value} :
    (remaining d).lookup name = some w ↔
      ∃ f ∈ d.fields, f.1 = name ∧ ¬(f.1 = "ACL" ∧ f.2.isNull = true) ∧ f.2.detached = w := by
  have hfilter : Members.Sorted (d.fields.filter fun f => !(f.1 = "ACL" && f.2.isNull)) :=
    List.Pairwise.filter _ hsorted
  rw [remaining, detachedMembers_eq, Members.lookup_mapValues, Option.map_eq_some_iff]
  constructor
  · rintro ⟨v, hv, rfl⟩
    obtain ⟨hmem, hkept⟩ := List.mem_filter.1 (Members.mem_of_lookup hv)
    exact ⟨_, hmem, rfl, by simpa [imp_iff_not_or] using hkept, rfl⟩
  · rintro ⟨f, hf, rfl, hkept, rfl⟩
    have hmem : f ∈ d.fields.filter fun f => !(f.1 = "ACL" && f.2.isNull) :=
      List.mem_filter.2 ⟨hf, by simpa [imp_iff_not_or] using hkept⟩
    exact ⟨f.2, hfilter.lookup_of_mem hmem, rfl⟩

theorem sorted_remaining (hsorted : Members.Sorted d.fields) : (remaining d).Sorted := by
  rw [remaining, detachedMembers_eq]
  exact Members.sorted_mapValues (List.Pairwise.filter _ hsorted) _

/-- **Every reference comes apart**: those in pointer fields are separable. -/
def Separable (schema : ClassSchema) (d : Document) : Prop :=
  ∀ f ∈ d.fields, ∀ target, schema.fieldType? f.1 = some (.pointer target) →
    ∀ p, f.2.asPointer? = some p → p.Separable

/-- A field is read back, if it is no reference or one that comes apart. -/
theorem decode_of_separable (hd : Fits schema d) (hseparable : Separable schema d)
    {f : String × Value} (hf : f ∈ d.fields) {ty : FieldType} {x : Datum}
    (hty : schema.fieldType? f.1 = some ty) (hx : encode ty f.2 = .ok x) :
    decode ty x = .ok f.2.detached := by
  by_cases hpointer : ∃ target, ty = .pointer target
  · obtain ⟨target, rfl⟩ := hpointer
    exact (decode_encode_pointer hx).2 (hseparable f hf target hty)
  · exact decode_encode (Value.orderedMembers_iff.1 hd.ordered f hf) (fun target h => hpointer ⟨target, h⟩) hx

/-- **Members that store a document** are all read, if its references come apart. -/
theorem exists_part (hs : schema.Built) (hd : Fits schema d) (hseparable : Separable schema d)
    {n : String} {m : String × Datum} (h : MemberStored schema d n m) :
    ∃ part, said schema m = .ok part := by
  cases h with
  | objectId => exact ⟨_, (said_header schema _ ⟨0, 0⟩).1⟩
  | createdAt ht => exact ⟨_, (said_header schema "" _).2.1⟩
  | updatedAt ht => exact ⟨_, (said_header schema "" _).2.2⟩
  | @field f ms m hf hms hm =>
    obtain ⟨name, v⟩ := f
    have hname := hd.isIdentifier hs hf
    have hstored := fieldStored_of_encodeField hname (hd.declared _ hf) hms
    cases hstored with
    | noAccess | relation => exact absurd hm List.not_mem_nil
    | access list =>
      have hsaid : said schema m ∈ (accessMembers list).map (said schema) := List.mem_map_of_mem hm
      rw [said_accessMembers] at hsaid
      simp only [List.mem_cons, List.not_mem_nil, or_false, or_self] at hsaid
      rcases hsaid with hsaid | hsaid <;> exact ⟨_, hsaid⟩
    | typed hne hty _ hx =>
      obtain rfl := List.mem_singleton.1 hm
      rw [said_rootKey hname (hd.not_default hf hne) hty,
        decode_of_separable hd hseparable hf hty hx]
      exact ⟨_, rfl⟩

/-- What a field is read back as, if it is no relation and its references come apart. -/
theorem readsBack_iff (hs : schema.Built) (hd : Fits schema d)
    (h : encodeDocument schema d = .ok r) (hseparable : Separable schema d)
    {f : String × Value} (hf : f ∈ d.fields)
    (hrelation : ∀ target, schema.fieldType? f.1 ≠ some (.relation target)) {w : Value} :
    ReadsBack schema f w ↔ ¬(f.1 = "ACL" ∧ f.2.isNull = true) ∧ f.2.detached = w := by
  have hordered := Value.orderedMembers_iff.1 hd.ordered f hf
  constructor
  · intro hback
    cases hback with
    | access list =>
      refine ⟨by simp [Value.isNull], ?_⟩
      simp only [Value.Ordered] at hordered
      rw [decodeAcl_encodeAcl hordered, Value.detached]
    | typed hne hty _ hx hw =>
      refine ⟨fun hnull => hne hnull.1, ?_⟩
      exact Except.ok.inj ((decode_of_separable hd hseparable hf hty hx).symm.trans hw)
  · rintro ⟨hkept, rfl⟩
    obtain ⟨name, v⟩ := f
    obtain ⟨ms, hms⟩ := (exists_of_foldlM_encodeField hd.notHeader h).1 _ hf
    have hstored := fieldStored_of_encodeField (hd.isIdentifier hs hf) (hd.declared _ hf) hms
    cases hstored with
    | noAccess => exact absurd ⟨rfl, rfl⟩ hkept
    | access list =>
      simp only [Value.Ordered] at hordered
      rw [Value.detached, ← decodeAcl_encodeAcl hordered]
      exact .access list
    | relation _ _ hty => exact absurd hty (hrelation _)
    | typed hne hty hnone hx =>
      exact .typed hne hty hnone hx (decode_of_separable hd hseparable hf hty hx)

/-- **A stored document is read back** as what is left of it, if and only if every reference in
its pointer fields comes apart where its key was put together. -/
theorem decodeDocument_encodeDocument_iff (hs : schema.Built) (hd : Fits schema d)
    (h : encodeDocument schema d = .ok r) :
    decodeDocument schema r = .ok (readBack schema d (remaining d)) ↔ Separable schema d := by
  constructor
  · intro hdoc f hf target hty p hp
    obtain ⟨fields, hfields, -, hread⟩ := exists_fields_of_decodeDocument hs hd h hdoc
    have hlookup := congrArg (fun doc : Document => doc.fields.lookup f.1) hfields
    simp only [lookup_readBack hs, hty] at hlookup
    have hremaining : (remaining d).lookup f.1 = some f.2.detached := by
      refine (lookup_remaining hd.sorted).2 ⟨f, hf, rfl, fun hnull => ?_, rfl⟩
      cases hv : f.2 <;> simp_all [Value.isNull, Value.asPointer?]
    obtain ⟨f', hf', hname, hback⟩ := (hread _ _).1 (hlookup.symm.trans hremaining)
    obtain rfl := hd.sorted.eq_of_key hf' hf hname
    obtain ⟨x, hx, hdecode⟩ := hback.of_reference hty hp
    exact (decode_encode_pointer hx).1 hdecode p hp
  · intro hseparable
    obtain ⟨parts, hparts⟩ : ∃ parts, r.mapM (said schema) = .ok parts := by
      refine Outcome.exists_mapM fun m hm => ?_
      obtain ⟨n, hm⟩ := (mem_encodeDocument hs hd h).1 hm
      exact exists_part hs hd hseparable hm
    obtain ⟨doc, hdoc⟩ : ∃ doc, decodeDocument schema r = .ok doc := by
      rw [decodeDocument_eq (id?_encodeDocument hs hd h), hparts]
      exact ⟨_, rfl⟩
    obtain ⟨fields, hfields, hsorted, hread⟩ := exists_fields_of_decodeDocument hs hd h hdoc
    rw [hdoc]
    refine congrArg Except.ok (hfields.trans ?_)
    refine readBack_congr hs hsorted (sorted_remaining hd.sorted) fun name hrelation => ?_
    refine Option.ext fun w => (hread name w).trans (Iff.trans ?_ (lookup_remaining hd.sorted).symm)
    constructor
    · rintro ⟨f, hf, rfl, hback⟩
      exact ⟨f, hf, rfl, (readsBack_iff hs hd h hseparable hf hrelation).1 hback⟩
    · rintro ⟨f, hf, rfl, hback⟩
      exact ⟨f, hf, rfl, (readsBack_iff hs hd h hseparable hf hrelation).2 hback⟩

/-- The schema of a class with a field of every kind that has a stored form of its own. -/
def postSchema : ClassSchema :=
  ⟨"Post", [("ACL", .acl), ("area", .polygon), ("author", .pointer "_User"), ("createdAt", .date),
    ("extra", .object), ("likes", .relation "_User"), ("objectId", .string),
    ("place", .geoPoint), ("scan", .bytes), ("updatedAt", .date)], []⟩

/-- A document of the class, with included documents and a list that grants one subject nothing. -/
def post : Document :=
  ⟨"Draft", "p1", some ⟨5, 0⟩, none,
    [("ACL", .acl ⟨[("*", ⟨true, false⟩), ("bob", ⟨false, false⟩)]⟩),
      ("area", .polygon [⟨Double.zero false, Double.zero true⟩,
        ⟨Double.zero false, Double.zero true⟩, ⟨Double.zero true, Double.zero true⟩]),
      ("author", .included ⟨"_User", "u$1", none, none, []⟩),
      ("extra", .object [("by", .array [.included ⟨"_User", "u2", none, none, []⟩])]),
      ("place", .geoPoint ⟨Double.zero true, Double.zero false⟩), ("scan", .bytes "AQI=")]⟩

theorem built_postSchema : postSchema.Built :=
  .of_withFields "Post" [("area", .polygon), ("author", .pointer "_User"), ("extra", .object),
    ("likes", .relation "_User"), ("place", .geoPoint), ("scan", .bytes)] rfl

theorem fits_post : Fits postSchema post where
  sorted := by decide
  ordered := by
    simp only [post, Value.OrderedMembers, Value.Ordered, Value.OrderedItems]
    decide
  declared := by decide
  notHeader := by decide
  relation := by simp [post, postSchema, ClassSchema.fieldType?, List.lookup_cons]

theorem separable_post : Separable postSchema post := by
  intro f hf target hty p hp
  have hfield : (f.1, FieldType.pointer target) ∈ postSchema.fields := Members.mem_of_lookup hty
  have hauthor : f.1 = "author" := by
    simp only [postSchema, List.mem_cons, Prod.mk.injEq, reduceCtorEq, and_false, false_or,
      List.not_mem_nil, or_false] at hfield
    exact hfield.1
  have hvalue := fits_post.sorted.lookup_of_mem hf
  rw [hauthor] at hvalue
  rw [← Option.some.inj hvalue] at hp
  obtain rfl := Option.some.inj hp
  exact ⟨by decide, by decide, by decide⟩

theorem decodeDocument_encodeDocument_post :
    postSchema.Built ∧ Fits postSchema post ∧ ∃ r, encodeDocument postSchema post = .ok r ∧
      decodeDocument postSchema r = .ok ⟨"Post", "p1", some ⟨5, 0⟩, none,
        [("ACL", .acl ⟨[("*", ⟨true, false⟩)]⟩),
          ("area", .polygon [⟨Double.zero false, Double.zero true⟩,
            ⟨Double.zero false, Double.zero true⟩, ⟨Double.zero true, Double.zero true⟩]),
          ("author", .pointer ⟨"_User", "u$1"⟩),
          ("extra", .object [("by", .array [.pointer ⟨"_User", "u2"⟩])]),
          ("likes", .relation "_User"),
          ("place", .geoPoint ⟨Double.zero true, Double.zero false⟩), ("scan", .bytes "AQI=")]⟩ := by
  obtain ⟨r, hr⟩ : ∃ r, encodeDocument postSchema post = .ok r := ⟨_, rfl⟩
  exact ⟨built_postSchema, fits_post, r, hr,
    (decodeDocument_encodeDocument_iff built_postSchema fits_post hr).2 separable_post⟩

/-- The schema of a class with a reference to a class that has a dollar sign. -/
def dollarSchema : ClassSchema :=
  ⟨"Post", [("ACL", .acl), ("author", .pointer "A$B"), ("createdAt", .date), ("objectId", .string),
    ("updatedAt", .date)], []⟩

/-- A document with a reference to an object of that class. -/
def dollarPost : Document := ⟨"Post", "p1", none, none, [("author", .pointer ⟨"A$B", "x"⟩)]⟩

theorem fits_dollarPost : Fits dollarSchema dollarPost where
  sorted := by decide
  ordered := by simp [dollarPost, Value.OrderedMembers, Value.Ordered]
  declared := by decide
  notHeader := by decide
  relation := by simp [dollarPost, dollarSchema, ClassSchema.fieldType?, List.lookup_cons]

/-- **A class with a dollar sign is cut in two.** A reference to the object `x` of `A$B` is read
back as one to the object `B$x` of `A`. -/
theorem not_decodeDocument_encodeDocument_dollar :
    ¬∀ (schema : ClassSchema) (d : Document) (r : Record), schema.Built → Fits schema d →
      encodeDocument schema d = .ok r →
      decodeDocument schema r = .ok (readBack schema d (remaining d)) := by
  intro h
  have hbuilt : dollarSchema.Built := .of_withFields "Post" [("author", .pointer "A$B")] rfl
  have hdoc := h dollarSchema dollarPost _ hbuilt fits_dollarPost rfl
  have hauthor := congrArg (fun doc : Outcome Document =>
    (doc.toOption.bind fun d => d.fields.lookup "author").bind Value.asPointer?) hdoc
  exact absurd hauthor (by decide)

end Stored

end ObjectEngine
