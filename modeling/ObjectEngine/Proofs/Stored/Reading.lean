import ObjectEngine.Proofs.Stored.Documents

/-!
# Records that can be read

A stored record is read if it has an id and each of its members is read on its own
(`Stored.decodes_iff`). What a value is stored as is always read again, by its declared type or
freely, with one exception: the key of a reference that does not come apart
(`Stored.exists_decode_of_encode`). So a record can be made unreadable by a malformed key, or by
what is not the stored form of a value: a record with a type tag but without what the tag asks
for (`Datum.legible_record_iff`).
-/

namespace ObjectEngine

/-! ### Values without a declared type -/

namespace Datum

/-- **A legible value**: it is read by its structure. -/
def Legible (d : Datum) : Prop := ∃ v, Stored.decodeFree d = .ok v

theorem exists_decodeItems {items : List Datum} :
    (∃ vs, Stored.decodeItems items = .ok vs) ↔ ∀ d ∈ items, d.Legible := by
  induction items with
  | nil => simp [Stored.decodeItems]
  | cons d rest ih =>
    rw [List.forall_mem_cons, ← ih, Stored.decodeItems]
    simp only [Outcome.bind_eq_ok, Legible]
    constructor
    · rintro ⟨-, v, hv, vs, hvs, -⟩
      exact ⟨⟨v, hv⟩, vs, hvs⟩
    · rintro ⟨⟨v, hv⟩, vs, hvs⟩
      exact ⟨_, v, hv, vs, hvs, rfl⟩

theorem exists_decodeMembers {members : List (String × Datum)} :
    (∃ vs, Stored.decodeMembers members = .ok vs) ↔ ∀ m ∈ members, m.2.Legible := by
  induction members with
  | nil => simp [Stored.decodeMembers]
  | cons m rest ih =>
    rw [List.forall_mem_cons, ← ih, Stored.decodeMembers]
    simp only [Outcome.bind_eq_ok, Legible]
    constructor
    · rintro ⟨-, v, hv, vs, hvs, -⟩
      exact ⟨⟨v, hv⟩, vs, hvs⟩
    · rintro ⟨⟨v, hv⟩, vs, hvs⟩
      exact ⟨_, v, hv, vs, hvs, rfl⟩

/-- **An array** is legible if its items are. -/
theorem legible_array_iff {items : List Datum} :
    (Datum.array items).Legible ↔ ∀ d ∈ items, d.Legible := by
  rw [← exists_decodeItems, Legible, Stored.decodeFree]
  simp only [Outcome.bind_eq_ok]
  constructor
  · rintro ⟨-, vs, hvs, -⟩
    exact ⟨vs, hvs⟩
  · rintro ⟨vs, hvs⟩
    exact ⟨_, vs, hvs, rfl⟩

/-- The type tag of a record, if it has one. -/
def tag? (members : List (String × Datum)) : Option String :=
  (members.lookup "__type").bind asString?

/-- **A record** is legible if it has what its type tag asks for, or, without a tag that means
something, if its members are legible. -/
theorem legible_record_iff {members : List (String × Datum)} :
    (Datum.record members).Legible ↔ match tag? members with
      | some tag => (∃ v, Stored.decodeTagged tag members = .ok (some v)) ∨
        Stored.decodeTagged tag members = .ok none ∧ ∀ m ∈ members, m.2.Legible
      | none => ∀ m ∈ members, m.2.Legible := by
  have hobject : (∃ v, (do return .object (← Stored.decodeMembers members) : Outcome Value) =
      .ok v) ↔ ∀ m ∈ members, m.2.Legible := by
    rw [← exists_decodeMembers]
    simp only [Outcome.bind_eq_ok]
    constructor
    · rintro ⟨-, vs, hvs, -⟩
      exact ⟨vs, hvs⟩
    · rintro ⟨vs, hvs⟩
      exact ⟨_, vs, hvs, rfl⟩
  rw [Legible, Stored.decodeFree]
  change (∃ v, (match tag? members with
    | some tag => _
    | none => _ : Outcome Value) = .ok v) ↔ _
  cases tag? members with
  | none => exact hobject
  | some tag =>
    cases hdecoded : Stored.decodeTagged tag members with
    | error e => simp [hdecoded, bind, Except.bind]
    | ok v? =>
      cases v? with
      | some v => simp [hdecoded, bind, Except.bind, pure, Except.pure]
      | none => simpa [hdecoded, bind, Except.bind] using hobject

theorem legible_record {members : List (String × Datum)} (htag : members.lookup "__type" = none)
    (h : ∀ m ∈ members, m.2.Legible) : (Datum.record members).Legible := by
  rw [legible_record_iff, tag?, htag]
  exact h

end Datum

namespace Stored

variable {schema : ClassSchema} {r : Record}

mutual

/-- **What is stored without a type is legible.** -/
theorem legible_encodeFree {v : Value} {d : Datum} (h : encodeFree v = .ok d) : d.Legible := by
  cases v with
  | array items =>
    obtain ⟨ds, hds, h⟩ := Outcome.bind_eq_ok.1 h
    obtain rfl := Except.ok.inj h
    exact Datum.legible_array_iff.2 (legible_encodeItems hds)
  | object members =>
    obtain ⟨ds, hds, h⟩ := Outcome.bind_eq_ok.1 h
    obtain rfl := Except.ok.inj h
    exact Datum.legible_record (lookup_type_of_encodeMembers hds) (legible_encodeMembers hds)
  | bytes text =>
    obtain ⟨bytes, -, h⟩ := Outcome.bind_eq_ok.1 h
    obtain rfl := Except.ok.inj h
    exact ⟨_, rfl⟩
  | acl list =>
    obtain rfl := Except.ok.inj h
    rw [tagged_eq ["entries"] (by decide) (by rfl)]
    exact ⟨_, rfl⟩
  | polygon ring =>
    obtain rfl := Except.ok.inj h
    rw [tagged_eq ["coordinates"] (by decide) (by rfl), Datum.legible_record_iff]
    exact .inl ⟨_, decodeTagged_polygon ring⟩
  | pointer _ | included _ =>
    obtain rfl := Except.ok.inj h
    rw [pointerTag, tagged_eq ["className", "objectId"] (by decide) (by rfl)]
    exact ⟨_, rfl⟩
  | relation _ =>
    obtain rfl := Except.ok.inj h
    rw [tagged_eq ["className"] (by decide) (by rfl)]
    exact ⟨_, rfl⟩
  | geoPoint _ =>
    obtain rfl := Except.ok.inj h
    rw [tagged_eq ["latitude", "longitude"] (by decide) (by rfl)]
    exact ⟨_, rfl⟩
  | file _ =>
    obtain rfl := Except.ok.inj h
    rw [tagged_eq ["name"] (by decide) (by rfl)]
    exact ⟨_, rfl⟩
  | _ =>
    obtain rfl := Except.ok.inj h
    exact ⟨_, rfl⟩

theorem legible_encodeItems {items : List Value} {ds : List Datum}
    (h : encodeItems items = .ok ds) : ∀ d ∈ ds, d.Legible := by
  cases items with
  | nil =>
    obtain rfl := Except.ok.inj h
    exact fun d hd => absurd hd List.not_mem_nil
  | cons v rest =>
    obtain ⟨d, hd, h⟩ := Outcome.bind_eq_ok.1 h
    obtain ⟨ds', hds', h⟩ := Outcome.bind_eq_ok.1 h
    obtain rfl := Except.ok.inj h
    exact List.forall_mem_cons.2 ⟨legible_encodeFree hd, legible_encodeItems hds'⟩

theorem legible_encodeMembers {members : List (String × Value)} {ds : List (String × Datum)}
    (h : encodeMembers members = .ok ds) : ∀ m ∈ ds, m.2.Legible := by
  cases members with
  | nil =>
    obtain rfl := Except.ok.inj h
    exact fun d hd => absurd hd List.not_mem_nil
  | cons m rest =>
    rw [encodeMembers] at h
    obtain ⟨-, h⟩ := Outcome.guard_eq_ok.1 h
    obtain ⟨d, hd, h⟩ := Outcome.bind_eq_ok.1 h
    obtain ⟨ds', hds', h⟩ := Outcome.bind_eq_ok.1 h
    obtain rfl := Except.ok.inj h
    exact List.forall_mem_cons.2 ⟨legible_encodeFree hd, legible_encodeMembers hds'⟩

end

/-! ### References -/

end Stored

/-- **A reference whose key is read**: its class has a first character that is no dollar sign,
and something follows the first dollar sign of the key. -/
structure Pointer.Readable (p : Pointer) : Prop where
  className : p.className ≠ ""
  head : p.className.toList.head? ≠ some '$'
  rest : p.objectId ≠ "" ∨ '$' ∈ p.className.toList

namespace Stored

/-! ### Values of a declared type -/

/-- **What is stored for a declared type** that is no reference is read by the type. -/
theorem exists_decode_of_encode {ty : FieldType} {v : Value} {d : Datum}
    (hty : ∀ target, ty ≠ .pointer target) (h : encode ty v = .ok d) :
    ∃ w, decode ty d = .ok w := by
  unfold encode at h
  dsimp only at h
  split at h
  case h_1 =>
    obtain rfl := Except.ok.inj h
    cases ty <;> exact ⟨_, rfl⟩
  case h_7 =>
    obtain ⟨bytes, -, h⟩ := Outcome.bind_eq_ok.1 h
    obtain rfl := Except.ok.inj h
    exact ⟨_, rfl⟩
  case h_9 =>
    obtain ⟨-, -, h⟩ := Outcome.bind_eq_ok.1 h
    obtain rfl := Except.ok.inj h
    exact ⟨_, decode_encodePoint _⟩
  case h_10 ring =>
    obtain ⟨-, h⟩ := Outcome.guard_eq_ok.1 h
    obtain ⟨-, -, h⟩ := Outcome.bind_eq_ok.1 h
    obtain rfl := Except.ok.inj h
    exact ⟨.polygon ring, by simp only [decode, polygon?_geoJson]⟩
  case h_11 => exact absurd rfl (hty _)
  case h_12 className =>
    split at h
    · rw [tagged_eq ["className"] (by decide) (by rfl)] at h
      obtain rfl := Except.ok.inj h
      exact ⟨_, rfl⟩
    · exact absurd h (by simp)
  case h_14 | h_15 =>
    have hfree := legible_encodeFree h
    obtain ⟨ds, -, h⟩ := Outcome.bind_eq_ok.1 h
    obtain rfl := Except.ok.inj h
    exact hfree
  case h_16 => exact absurd h (by simp)
  -- texts, numbers, flags, times, file names and access control lists
  all_goals
    obtain rfl := Except.ok.inj h
    exact ⟨_, rfl⟩

/-- **The key of a reference is read** as that of some reference, not always the same. -/
theorem exists_pointerOfKey_iff {p : Pointer} :
    (∃ q, pointerOfKey (pointerKey p) = .ok q) ↔ p.Readable := by
  simp only [pointerOfKey_eq_ok]
  constructor
  · rintro ⟨q, hq, hkey⟩
    have hchars := congrArg String.toList hkey
    rw [toList_pointerKey, toList_pointerKey] at hchars
    obtain ⟨c, rest, hc⟩ : ∃ c rest, q.className.toList = c :: rest :=
      List.exists_cons_of_ne_nil fun h => hq.className (String.toList_eq_nil_iff.1 h)
    have hne : c ≠ '$' := fun h => hq.noDollar (by rw [hc, h]; exact List.mem_cons_self)
    rw [hc, List.cons_append] at hchars
    refine ⟨fun hempty => ?_, fun hhead => ?_, ?_⟩
    · rw [hempty] at hchars
      exact hne (List.cons.inj hchars).1.symm
    · obtain ⟨tail, htail⟩ := List.head?_eq_some_iff.1 hhead
      rw [htail, List.cons_append] at hchars
      exact hne (List.cons.inj hchars).1.symm
    · refine or_iff_not_imp_right.2 fun hdollar hempty => hq.objectId ?_
      rw [← pointerKey_inj hdollar hq.noDollar hkey, hempty]
  · rintro ⟨hclass, hhead, hid⟩
    by_cases hdollar : '$' ∈ p.className.toList
    · obtain ⟨a, b, hchars, ha⟩ := List.eq_append_cons_of_mem hdollar
      refine ⟨⟨String.ofList a, String.ofList (b ++ '$' :: p.objectId.toList)⟩, ⟨?_, ?_, ?_⟩,
        String.toList_inj.1 ?_⟩
      · intro hempty
        rw [String.ofList_eq_empty_iff.1 hempty] at hchars
        exact hhead (by rw [hchars]; rfl)
      · simpa using ha
      · simp
      · simp [toList_pointerKey, hchars]
    · exact ⟨p, ⟨hclass, hdollar, hid.resolve_right hdollar⟩, rfl⟩

/-- **What is stored for a reference** is read exactly if its key is. -/
theorem exists_decode_of_encode_pointer {target : String} {v : Value} {d : Datum}
    (h : encode (.pointer target) v = .ok d) :
    (∃ w, decode (.pointer target) d = .ok w) ↔ ∀ p, v.asPointer? = some p → p.Readable := by
  cases hp : v.asPointer? with
  | none =>
    cases v with
    | null =>
      obtain rfl := Except.ok.inj h
      exact ⟨fun _ p hp => absurd hp (by simp), fun _ => ⟨_, rfl⟩⟩
    | pointer _ | included _ => exact absurd hp (by simp [Value.asPointer?])
    | _ => exact absurd h (by simp [encode, Value.asPointer?])
  | some p =>
    have hkey : d = .string (pointerKey p) := by
      cases v with
      | pointer q | included q =>
        simp only [encode, hp] at h
        split at h
        · exact (Except.ok.inj h).symm
        · exact absurd h (by simp)
      | _ => exact absurd hp (by simp [Value.asPointer?])
    subst hkey
    simp only [Option.some.injEq, forall_eq', ← exists_pointerOfKey_iff]
    simp only [decode, Outcome.bind_eq_ok]
    constructor
    · rintro ⟨-, q, hq, -⟩
      exact ⟨q, hq⟩
    · rintro ⟨q, hq⟩
      exact ⟨_, q, hq, rfl⟩

/-! ### Documents -/

/-- **A stored member that is read** on its own. -/
def Reads (schema : ClassSchema) (m : String × Datum) : Prop :=
  ∃ part, said schema m = .ok part

/-- **The member of a field** is read if its value is, by the type of the field. -/
theorem reads_rootKey_iff {name : String} {ty : FieldType} (hname : isIdentifier name = true)
    (hdefault : name ∉ defaultFields) (hty : schema.fieldType? name = some ty) {x : Datum} :
    Reads schema (rootKey schema name, x) ↔ ∃ w, decode ty x = .ok w := by
  rw [Reads, said_rootKey hname hdefault hty]
  simp only [Outcome.map_eq_ok, Outcome.inField_eq_ok]
  constructor
  · rintro ⟨-, w, hw, -⟩
    exact ⟨w, hw⟩
  · rintro ⟨w, hw⟩
    exact ⟨_, w, hw, rfl⟩

/-- The members of an access control list are read. -/
theorem reads_of_mem_accessMembers {list : Acl} {m : String × Datum}
    (hm : m ∈ accessMembers list) : Reads schema m := by
  have hsaid : said schema m ∈ (accessMembers list).map (said schema) := List.mem_map_of_mem hm
  rw [said_accessMembers] at hsaid
  simp only [List.mem_cons, List.not_mem_nil, or_false, or_self] at hsaid
  rcases hsaid with hsaid | hsaid <;> exact ⟨_, hsaid⟩

end Stored

end ObjectEngine
