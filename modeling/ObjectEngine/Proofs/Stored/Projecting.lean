import ObjectEngine.Proofs.Stored.Typing

/-!
# Reading a part of a record

Each member of a record says at most one thing of one field, and of the members that speak for a
field the one with the last key is heard (`Stored.lookup_decodeDocument_iff`). So what is read from
a part of a record, which has the members under some of the keys, is known from the members that
are left: the header is the same (`Stored.exists_decodeDocument_filter`), and a field is heard from
the keys that are still there.

In a record that stores a document two keys may speak for a declared field: its own, and that under
the mark of references (`Stored.Says.key_cases`). For a reference they are one key. Any other field
is stored under its own key only, but an internal field may have the marked key for its name; it is
stored as it is, and read as if it were the reference. If it is heard in place of what the field
itself holds, the field is usurped (`Stored.Usurped`), and it is read from the part with its own key
as it is read from the whole record if and only if it is not
(`Stored.lookup_eq_iff_not_usurped`).
-/

namespace ObjectEngine

namespace Stored

variable {schema : ClassSchema} {r : Record} {m : String × Datum} {key field : String}
  {v w : Value} {doc part : Document}

/-! ### What the members say of a field -/

/-- **A member of a record speaks for a field**: the one under the key says what the field holds. -/
def Says (schema : ClassSchema) (r : Record) (key field : String) (v : Value) : Prop :=
  ∃ x part, (key, x) ∈ r ∧ said schema (key, x) = .ok part ∧ (field, v) ∈ part.fields

/-- A field that one member says. -/
theorem eq_of_map {outcome : Outcome Value} {name : String}
    (h : (do return { blank with fields := Members.insert name (← outcome) blank.fields } :
      Outcome Document) = .ok part) : ∃ v, part = { blank with fields := [(name, v)] } := by
  obtain ⟨v, -, h⟩ := Outcome.bind_eq_ok.1 h
  exact ⟨v, (Except.ok.inj h).symm⟩

/-- A key that is no key of the header and has no mark is the name of the field. -/
theorem fieldOf_eq_self (hkey : key ∉ [Record.idKey, createdAtKey, updatedAtKey, aclKey,
    readPermKey, writePermKey]) (hmarked : Text.afterStart? pointerMark key = none) :
    fieldOf key = key := by
  unfold fieldOf
  split
  case h_7 => rw [hmarked, Option.getD_none]
  all_goals exact absurd (by decide) hkey

/-- **What a member can say**: a time of the header, nothing, or one thing of the field that it
belongs to, which is the access control list, the reference with its key, or the field with its
key. -/
theorem said_cases (h : said schema m = .ok part) :
    (part.fields = [] ∧ (m.1 = createdAtKey ∨ m.1 = updatedAtKey)) ∨ part = blank ∨
      ∃ v, part = { blank with fields := [(fieldOf m.1, v)] } ∧
        (m.1 = aclKey ∨ m.1 = pointerMark ++ fieldOf m.1 ∨ m.1 = fieldOf m.1) := by
  obtain ⟨key, x⟩ := m
  unfold said decodeMember at h
  dsimp only at h ⊢
  split at h
  · exact .inr (.inl (Except.ok.inj h).symm)
  rename_i hid
  split at h
  · obtain rfl := Except.ok.inj h
    exact .inl ⟨rfl, .inl ‹_›⟩
  rename_i hcreated
  split at h
  · obtain rfl := Except.ok.inj h
    exact .inl ⟨rfl, .inr ‹_›⟩
  rename_i hupdated
  split at h
  · rename_i hacl
    subst hacl
    split at h
    · exact .inr (.inr ⟨_, (Except.ok.inj h).symm, .inl rfl⟩)
    · exact .inr (.inl (Except.ok.inj h).symm)
  rename_i hacl
  split at h
  · rename_i hmarked
    obtain rfl := Text.eq_append_of_afterStart? hmarked
    rw [fieldOf_pointerMark]
    obtain ⟨v, rfl⟩ := eq_of_map h
    exact .inr (.inr ⟨v, rfl, .inr (.inl rfl)⟩)
  · rename_i hmarked
    have hkey : key ∉ [Record.idKey, createdAtKey, updatedAtKey, aclKey, readPermKey,
        writePermKey] := by
      simp only [Bool.or_eq_true, decide_eq_true_eq, not_or] at hid
      simp [hid, hcreated, hupdated, hacl]
    rw [fieldOf_eq_self hkey hmarked]
    split at h
    all_goals
      obtain ⟨v, rfl⟩ := eq_of_map h
      exact .inr (.inr ⟨v, rfl, .inr (.inr rfl)⟩)

/-- A member says at most one thing of a field. -/
theorem fields_of_said (h : said schema m = .ok part) :
    part.fields = [] ∨ ∃ v, part.fields = [(fieldOf m.1, v)] ∧
      (m.1 = aclKey ∨ m.1 = pointerMark ++ fieldOf m.1 ∨ m.1 = fieldOf m.1) := by
  rcases said_cases h with ⟨hnone, -⟩ | rfl | ⟨v, rfl, hkey⟩
  · exact .inl hnone
  · exact .inl rfl
  · exact .inr ⟨v, rfl, hkey⟩

/-- What is no time of the header says no time. -/
theorem times_of_said (h : said schema m = .ok part) (hcreated : m.1 ≠ createdAtKey)
    (hupdated : m.1 ≠ updatedAtKey) : part.createdAt = none ∧ part.updatedAt = none := by
  rcases said_cases h with ⟨-, hkey | hkey⟩ | rfl | ⟨v, rfl, -⟩
  · exact absurd hkey hcreated
  · exact absurd hkey hupdated
  · exact ⟨rfl, rfl⟩
  · exact ⟨rfl, rfl⟩

namespace Says

/-- Under one key one thing is said of a field. -/
theorem unique (hr : Members.Sorted r) (h : Says schema r key field v)
    (h' : Says schema r key field w) : v = w := by
  obtain ⟨x, part, hx, hsaid, hv⟩ := h
  obtain ⟨x', part', hx', hsaid', hw⟩ := h'
  obtain rfl : x = x' := (Prod.mk.inj (hr.eq_of_key hx hx' rfl)).2
  obtain rfl := Except.ok.inj (hsaid.symm.trans hsaid')
  rcases fields_of_said hsaid with hfields | ⟨u, hfields, -⟩
  · exact absurd (hfields ▸ hv) List.not_mem_nil
  · rw [hfields, List.mem_singleton] at hv hw
    exact (Prod.mk.inj (hv.trans hw.symm)).2

/-- A member speaks for the field that it belongs to. -/
theorem fieldOf_eq (h : Says schema r key field v) : fieldOf key = field := by
  obtain ⟨x, part, -, hsaid, hv⟩ := h
  rcases fields_of_said hsaid with hfields | ⟨u, hfields, -⟩
  · exact absurd (hfields ▸ hv) List.not_mem_nil
  · rw [hfields, List.mem_singleton] at hv
    exact (Prod.mk.inj hv).1.symm

/-- **The keys that may speak for a field**: its name, the marked name, or that of the access
control list. -/
theorem key_eq (h : Says schema r key field v) :
    key = aclKey ∨ key = pointerMark ++ field ∨ key = field := by
  have hfield := h.fieldOf_eq
  obtain ⟨x, part, -, hsaid, hv⟩ := h
  rcases fields_of_said hsaid with hfields | ⟨u, -, hkey⟩
  · exact absurd (hfields ▸ hv) List.not_mem_nil
  · exact hfield ▸ hkey

theorem cons_iff : Says schema (m :: r) key field v ↔
    (key = m.1 ∧ ∃ part, said schema m = .ok part ∧ (field, v) ∈ part.fields) ∨
      Says schema r key field v := by
  constructor
  · rintro ⟨x, part, hx, hsaid, hv⟩
    rcases List.mem_cons.1 hx with rfl | hx
    · exact .inl ⟨rfl, part, hsaid, hv⟩
    · exact .inr ⟨x, part, hx, hsaid, hv⟩
  · rintro (⟨rfl, part, hsaid, hv⟩ | ⟨x, part, hx, hsaid, hv⟩)
    · exact ⟨m.2, part, List.mem_cons_self, hsaid, hv⟩
    · exact ⟨x, part, List.mem_cons_of_mem _ hx, hsaid, hv⟩

/-- The members that are left of a record say what they said. -/
theorem filter_iff {keep : String → Bool} :
    Says schema (r.filter fun m => keep m.1) key field v ↔
      keep key = true ∧ Says schema r key field v := by
  simp only [Says, List.mem_filter, and_assoc]
  exact ⟨fun ⟨x, part, hx, hkeep, h⟩ => ⟨hkeep, x, part, hx, h⟩,
    fun ⟨hkeep, x, part, hx, h⟩ => ⟨x, part, hx, hkeep, h⟩⟩

end Says

/-! ### Who is heard -/

/-- **Who is heard** of the members that speak for a field: the one with the last key. -/
def Heard (schema : ClassSchema) (r : Record) (field : String) : Option Value → Prop
  | some v => ∃ key, Says schema r key field v ∧
    ∀ key' w, Says schema r key' field w → key' ≤ key
  | none => ∀ key w, ¬Says schema r key field w

/-- The value of a field is that of the last member that speaks for it. -/
theorem heard_of_forall₂ {parts : List Document} (hr : Members.Sorted r)
    (h : List.Forall₂ (fun m part => said schema m = .ok part) r parts) (field : String) :
    Heard schema r field ((parts.flatMap (·.fields)).reverse.lookup field) := by
  induction h with
  | nil => exact fun _ _ ⟨_, _, hx, _⟩ => absurd hx List.not_mem_nil
  | @cons m part rest parts hsaid hrest ih =>
    obtain ⟨hfirst, hsorted⟩ := List.pairwise_cons.1 hr
    have ih := ih hsorted
    rw [List.flatMap_cons, List.reverse_append, List.lookup_append]
    cases hheard : (parts.flatMap (·.fields)).reverse.lookup field with
    | some v =>
      -- whoever is heard among the others has a later key
      rw [hheard] at ih
      obtain ⟨key, hkey, hlast⟩ := ih
      refine ⟨key, Says.cons_iff.2 (.inr hkey), fun key' w hw => ?_⟩
      rcases Says.cons_iff.1 hw with ⟨rfl, -⟩ | hw
      · obtain ⟨x, -, hx, -⟩ := hkey
        exact Std.le_of_lt (hfirst _ hx)
      · exact hlast key' w hw
    | none =>
      rw [hheard] at ih
      rw [Option.none_or]
      have honly {key : String} {w : Value} (hw : Says schema (m :: rest) key field w) :
          key = m.1 ∧ (field, w) ∈ part.fields := by
        obtain ⟨rfl, part', hsaid', hw⟩ := (Says.cons_iff.1 hw).resolve_right (ih key w)
        exact ⟨rfl, Except.ok.inj (hsaid.symm.trans hsaid') ▸ hw⟩
      rcases fields_of_said hsaid with hfields | ⟨v, hfields, -⟩
      · rw [hfields]
        exact fun key w hw => absurd (hfields ▸ (honly hw).2) List.not_mem_nil
      · rw [hfields, List.reverse_singleton, Members.lookup_cons]
        split
        case isTrue hfield =>
          rw [← hfield] at hfields
          have hv : Says schema (m :: rest) m.1 field v :=
            Says.cons_iff.2 (.inl ⟨rfl, part, hsaid, hfields ▸ List.mem_singleton.2 rfl⟩)
          exact ⟨m.1, hv, fun key' w hw => (honly hw).1 ▸ String.le_refl _⟩
        case isFalse hfield =>
          intro key w hw
          have hw := (honly hw).2
          rw [hfields, List.mem_singleton] at hw
          exact hfield (Prod.mk.inj hw).1

/-- **The value of a field that is read** is what the member that is heard says, unless the field
is a relation. -/
theorem heard_of_decodeDocument (hs : schema.Built) (hr : Members.Sorted r)
    (hdoc : decodeDocument schema r = .ok doc) (hrelation : ¬IsRelation schema field) :
    Heard schema r field (doc.fields.lookup field) := by
  obtain ⟨id, hid, -⟩ := Outcome.bind_eq_ok.1 hdoc
  rw [decodeDocument_eq (Outcome.ofOption_eq_ok.1 hid)] at hdoc
  obtain ⟨parts, hparts, rfl⟩ := Outcome.map_eq_ok.1 hdoc
  have hlookup := lookup_withRelations hs.sorted (parts.foldl adding
    { blank with className := schema.className, objectId := id }) field
  rw [hlookup]
  split
  case h_1 target hty => exact absurd ⟨target, hty⟩ hrelation
  case h_2 =>
    rw [foldl_adding_fields, Members.lookup_insertAll]
    have hheard := heard_of_forall₂ hr (Outcome.forall₂_of_mapM hparts) field
    simpa [blank] using hheard

/-- What is heard of a field is one. -/
theorem heard_iff (hr : Members.Sorted r) {value? : Option Value}
    (h : Heard schema r field value?) : value? = some v ↔ Heard schema r field (some v) := by
  refine ⟨fun hv => hv ▸ h, fun ⟨key, hkey, hlast⟩ => ?_⟩
  cases value? with
  | none => exact absurd hkey (h key v)
  | some w =>
    obtain ⟨key', hkey', hlast'⟩ := h
    obtain rfl := String.le_antisymm (hlast' _ _ hkey) (hlast _ _ hkey')
    rw [hkey'.unique hr hkey]

theorem lookup_decodeDocument_iff (hs : schema.Built) (hr : Members.Sorted r)
    (hdoc : decodeDocument schema r = .ok doc) (hrelation : ¬IsRelation schema field) :
    doc.fields.lookup field = some v ↔ Heard schema r field (some v) :=
  heard_iff hr (heard_of_decodeDocument hs hr hdoc hrelation)

/-- The fields of a document that is read are in order. -/
theorem sorted_decodeDocument (hdoc : decodeDocument schema r = .ok doc) :
    Members.Sorted doc.fields := by
  obtain ⟨id, hid, -⟩ := Outcome.bind_eq_ok.1 hdoc
  rw [decodeDocument_eq (Outcome.ofOption_eq_ok.1 hid)] at hdoc
  obtain ⟨parts, -, rfl⟩ := Outcome.map_eq_ok.1 hdoc
  refine Members.sorted_insertAll ?_ _
  rw [foldl_adding_fields]
  exact Members.sorted_ofList _

/-- A relation is read from the schema. -/
theorem lookup_decodeDocument_relation (hs : schema.Built)
    (hdoc : decodeDocument schema r = .ok doc) {target : String}
    (hty : schema.fieldType? field = some (.relation target)) :
    doc.fields.lookup field = some (.relation target) := by
  obtain ⟨id, -, hdoc⟩ := Outcome.bind_eq_ok.1 hdoc
  obtain ⟨read, -, hdoc⟩ := Outcome.bind_eq_ok.1 hdoc
  obtain rfl := Except.ok.inj hdoc
  rw [lookup_withRelations hs.sorted, hty]

/-! ### A part of a record -/

/-- **The header is read alike** from a part of a record that has the header, and the other members
that are left are read as they were. -/
theorem exists_foldlM_filter {keep : String → Bool} (hcreated : keep createdAtKey = true)
    (hupdated : keep updatedAtKey = true) {start : Document} (fields : Members Value)
    (h : r.foldlM (fun doc m => decodeMember schema doc m.1 m.2) start = .ok doc) :
    ∃ fields', (r.filter fun m => keep m.1).foldlM (fun doc m => decodeMember schema doc m.1 m.2)
      { start with fields } = .ok { doc with fields := fields' } := by
  induction r generalizing start fields with
  | nil =>
    obtain rfl := Except.ok.inj h
    exact ⟨fields, rfl⟩
  | cons m rest ih =>
    obtain ⟨next, hnext, h⟩ := Outcome.bind_eq_ok.1 ((List.foldlM_cons ..).symm.trans h)
    rw [decodeMember_eq] at hnext
    obtain ⟨part, hsaid, rfl⟩ := Outcome.map_eq_ok.1 hnext
    by_cases hkeep : keep m.1 = true
    · obtain ⟨fields', h'⟩ := ih (Members.insertAll fields part.fields) h
      rw [List.filter_cons_of_pos (by exact hkeep), List.foldlM_cons, decodeMember_eq, hsaid]
      exact ⟨fields', h'⟩
    · rw [List.filter_cons_of_neg (by exact hkeep)]
      -- a member that is left out says no time
      obtain ⟨hnone, hnone'⟩ := times_of_said hsaid (fun he => hkeep (he ▸ hcreated))
        (fun he => hkeep (he ▸ hupdated))
      obtain ⟨fields', h'⟩ := ih fields h
      rw [adding, hnone, hnone'] at h'
      exact ⟨fields', h'⟩

/-- **A part of a record is read** if the record is, with the same header. -/
theorem exists_decodeDocument_filter (keep : String → Bool) (hid : keep Record.idKey = true)
    (hcreated : keep createdAtKey = true) (hupdated : keep updatedAtKey = true)
    (h : decodeDocument schema r = .ok doc) :
    ∃ fields, decodeDocument schema (r.filter fun m => keep m.1) = .ok { doc with fields } := by
  obtain ⟨id, hread, h⟩ := Outcome.bind_eq_ok.1 h
  obtain ⟨read, hfold, h⟩ := Outcome.bind_eq_ok.1 h
  obtain rfl := Except.ok.inj h
  obtain ⟨fields, hpart⟩ := exists_foldlM_filter hcreated hupdated [] hfold
  have hkept : Record.id? (r.filter fun m => keep m.1) = r.id? := by
    rw [Record.id?, Record.string?, Members.lookup_filter_key, if_pos hid]
    rfl
  refine ⟨(withRelations schema { read with fields }).fields, ?_⟩
  rw [decodeDocument, hkept]
  exact Outcome.bind_eq_ok.2 ⟨id, hread, Outcome.bind_eq_ok.2 ⟨_, hpart, rfl⟩⟩

/-! ### Records that store documents -/

theorem sorted_encodeDocument {d : Document} (h : encodeDocument schema d = .ok r) :
    Members.Sorted r := by
  obtain ⟨members, rfl, -⟩ := exists_ofList_of_encodeDocument
    (fun f hf => (mem_body.1 hf).2) ((encodeDocument_body schema d).trans h)
  exact Members.sorted_ofList members

/-- **A key that is the name of a declared field** is the key of that field. -/
theorem rootKey_eq_of_mem (hs : schema.Built) {d : Document} (h : encodeDocument schema d = .ok r)
    (hfield : schema.hasField m.1 = true) (hm : m ∈ r) : rootKey schema m.1 = m.1 := by
  obtain ⟨ty, hty⟩ := Option.isSome_iff_exists.1 hfield
  have hname := hs.isIdentifier (Members.mem_of_lookup hty)
  obtain ⟨members, rfl, hmem⟩ := exists_ofList_of_encodeDocument
    (fun f hf => (mem_body.1 hf).2) ((encodeDocument_body schema d).trans h)
  obtain ⟨n, hstored⟩ := (hmem m).1 ((Members.mem_insertAll hm).resolve_right List.not_mem_nil)
  cases hstored with
  | objectId => exact absurd hname (show ¬isIdentifier Record.idKey = true by decide)
  | createdAt => exact absurd hname (show ¬isIdentifier createdAtKey = true by decide)
  | updatedAt => exact absurd hname (show ¬isIdentifier updatedAtKey = true by decide)
  | @field f ms m hf hms hm =>
    obtain ⟨name, value⟩ := f
    cases hty' : schema.fieldType? name with
    | none =>
      obtain ⟨x, -, rfl⟩ := of_encodeField_internal hs hty' hms
      obtain rfl := List.mem_singleton.1 hm
      exact absurd (hty'.symm.trans hty) (by simp)
    | some ty' =>
      have hname' := hs.isIdentifier (Members.mem_of_lookup hty')
      cases fieldStored_of_encodeField hname' (by simp [ClassSchema.hasField, hty']) hms with
      | noAccess | relation => exact absurd hm List.not_mem_nil
      | access list =>
        have hkey : m.1 ∈ (accessMembers list).map Prod.fst := List.mem_map_of_mem hm
        have hkeys : ∀ key ∈ (accessMembers list).map Prod.fst, isIdentifier key = false := by
          change ∀ key ∈ [aclKey, readPermKey, writePermKey], isIdentifier key = false
          decide
        exact absurd hname (by simp [hkeys _ hkey])
      | typed =>
        obtain rfl := List.mem_singleton.1 hm
        -- the key of the field that is stored and its name belong to one field
        have hfield : fieldOf (rootKey schema name) = name := fieldOf_rootKey hname'
        rw [fieldOf_identifier hname] at hfield
        exact congrArg (rootKey schema) hfield

/-- **Two keys may speak for a declared field** in a record that stores a document: its own, and
that under the mark of references. -/
theorem Says.key_cases (hs : schema.Built) {d : Document} (hr : encodeDocument schema d = .ok r)
    (hfield : schema.hasField field = true) (h : Says schema r key field v) :
    key = rootKey schema field ∨ key = pointerMark ++ field := by
  have hown := h.fieldOf_eq
  rcases h.key_eq with rfl | hkey | rfl
  · exact .inl (hown ▸ rfl)
  · exact .inr hkey
  · obtain ⟨x, -, hx, -⟩ := h
    exact .inl (rootKey_eq_of_mem hs hr hfield hx).symm

/-! ### Fields that are usurped -/

/-- **A field that is usurped**: the member under its name with the mark of references speaks for
it, and says something else than the member under the key of the field, if that speaks for it at
all, and is heard after it. So the field is no reference. -/
def Usurped (schema : ClassSchema) (r : Record) (field : String) : Prop :=
  ∃ v, Says schema r (pointerMark ++ field) field v ∧
    ∀ w, Says schema r (rootKey schema field) field w →
      rootKey schema field < pointerMark ++ field ∧ w ≠ v

/-- **Which of two keys is heard** that alone may speak for a field: the later, if it speaks. -/
theorem heard_iff_of_keys {first second : String}
    (hkeys : ∀ key v, Says schema r key field v → key = first ∨ key = second) :
    Heard schema r field (some v) ↔
      (Says schema r first field v ∧ ∀ w, Says schema r second field w → second ≤ first) ∨
        (Says schema r second field v ∧ ∀ w, Says schema r first field w → first ≤ second) := by
  constructor
  · rintro ⟨key, hkey, hlast⟩
    rcases hkeys key v hkey with rfl | rfl
    · exact .inl ⟨hkey, hlast _⟩
    · exact .inr ⟨hkey, hlast _⟩
  · rintro (⟨hv, hlast⟩ | ⟨hv, hlast⟩)
    all_goals
      refine ⟨_, hv, fun key w hw => ?_⟩
      rcases hkeys key w hw with rfl | rfl
    · exact String.le_refl _
    · exact hlast w hw
    · exact hlast w hw
    · exact String.le_refl _

/-- **The member under the key of a field is heard**, if and only if the field is not usurped. -/
theorem heard_iff_not_usurped (hr : Members.Sorted r)
    (hkeys : ∀ key v, Says schema r key field v →
      key = rootKey schema field ∨ key = pointerMark ++ field) :
    (∀ v, Heard schema r field (some v) ↔ Says schema r (rootKey schema field) field v) ↔
      ¬Usurped schema r field := by
  simp only [heard_iff_of_keys hkeys]
  constructor
  · rintro h ⟨v, hv, hown⟩
    -- the usurper is heard, but the field itself says something else
    have hsame := (h v).1 (.inr ⟨hv, fun w hw => Std.le_of_lt (hown w hw).1⟩)
    exact (hown v hsame).2 rfl
  · intro h v
    have hagree {u : Value} (hu : Says schema r (pointerMark ++ field) field u) :
        ∃ w, Says schema r (rootKey schema field) field w ∧
          (rootKey schema field < pointerMark ++ field → w = u) := by
      refine Classical.byContradiction fun hnone => h ⟨u, hu, fun w hw => ?_⟩
      refine ⟨Classical.byContradiction fun hlt => hnone ⟨w, hw, fun hlt' => absurd hlt' hlt⟩, ?_⟩
      exact fun he => hnone ⟨w, hw, fun _ => he⟩
    constructor
    · rintro (⟨hown, -⟩ | ⟨hv, hlast⟩)
      · exact hown
      · obtain ⟨w, hw, hsame⟩ := hagree hv
        by_cases hlt : rootKey schema field < pointerMark ++ field
        · exact hsame hlt ▸ hw
        · rwa [String.le_antisymm (hlast w hw) (String.not_lt.1 hlt)]
    · intro hown
      by_cases hlater : rootKey schema field < pointerMark ++ field ∧
          ∃ u, Says schema r (pointerMark ++ field) field u
      · -- the later of the two is heard, and it says the same
        obtain ⟨hlt, u, hu⟩ := hlater
        obtain ⟨w, hw, hsame⟩ := hagree hu
        obtain rfl := hw.unique hr hown
        exact .inr ⟨hsame hlt ▸ hu, fun _ _ => Std.le_of_lt hlt⟩
      · exact .inl ⟨hown, fun u hu => String.not_lt.1 fun hlt => hlater ⟨hlt, u, hu⟩⟩

/-- **A declared field is read alike** from a record and from a part of it that has the key of the
field, but not that under the mark of references unless it is the same, if and only if the field is
not usurped. -/
theorem lookup_eq_iff_not_usurped (hs : schema.Built) {d : Document}
    (hr : encodeDocument schema d = .ok r) {keep : String → Bool}
    (hdoc : decodeDocument schema r = .ok doc)
    (hpart : decodeDocument schema (r.filter fun m => keep m.1) = .ok part)
    (hfield : schema.hasField field = true) (hrelation : ¬IsRelation schema field)
    (hown : keep (rootKey schema field) = true)
    (hmarked : keep (pointerMark ++ field) = true → pointerMark ++ field = rootKey schema field) :
    part.fields.lookup field = doc.fields.lookup field ↔ ¬Usurped schema r field := by
  have hsorted := sorted_encodeDocument hr
  have hpartSorted : Members.Sorted (r.filter fun m => keep m.1) := hsorted.filter _
  have hkeys (key : String) (v : Value) (h : Says schema r key field v) :=
    h.key_cases hs hr hfield
  -- of the two keys only that of the field is left
  have honly {key : String} {v : Value} (h : Says schema (r.filter fun m => keep m.1) key field v) :
      key = rootKey schema field := by
    obtain ⟨hkeep, h⟩ := Says.filter_iff.1 h
    rcases hkeys key v h with rfl | rfl
    · rfl
    · exact hmarked hkeep
  have hheard (v : Value) : Heard schema (r.filter fun m => keep m.1) field (some v) ↔
      Says schema r (rootKey schema field) field v := by
    constructor
    · rintro ⟨key, hkey, -⟩
      exact honly hkey ▸ (Says.filter_iff.1 hkey).2
    · exact fun h => ⟨_, Says.filter_iff.2 ⟨hown, h⟩, fun key w hw => honly hw ▸ String.le_refl _⟩
  rw [← heard_iff_not_usurped hsorted hkeys, Option.ext_iff]
  refine forall_congr' fun v => ?_
  rw [lookup_decodeDocument_iff hs hpartSorted hpart hrelation, hheard,
    lookup_decodeDocument_iff hs hsorted hdoc hrelation]
  exact iff_comm

/-- **A field is not read** from a part of a record where no key that is left speaks for it. -/
theorem lookup_filter_eq_none (hs : schema.Built) (hr : Members.Sorted r) {keep : String → Bool}
    (hpart : decodeDocument schema (r.filter fun m => keep m.1) = .ok part)
    (hrelation : ¬IsRelation schema field)
    (h : ∀ key v, keep key = true → ¬Says schema r key field v) :
    part.fields.lookup field = none := by
  refine Option.eq_none_iff_forall_ne_some.2 fun v hv => ?_
  obtain ⟨key, hkey, -⟩ := (lookup_decodeDocument_iff hs (hr.filter _) hpart hrelation).1 hv
  obtain ⟨hkeep, hkey⟩ := Says.filter_iff.1 hkey
  exact h key v hkeep hkey

end Stored

end ObjectEngine
