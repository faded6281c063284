import ObjectEngine.Members.Lemmas
import ObjectEngine.Proofs.Outcome
import ObjectEngine.Proofs.Text.Reading
import ObjectEngine.Stored.Value

/-!
# Stored values are read back

What `Stored.encodeFree` stores, `Stored.decodeFree` reads back at every depth
(`Stored.free_round_trip`), and so it is for values of a declared type, except for references
whose key does not come apart where it was put together (`Stored.decode_encode`,
`Stored.decode_encode_pointer`).

Reading back does not give an included document, nor an entry of an access control list that
grants nothing: `Value.detached` is the value that is left. A record with a type tag is never the
stored form of an object, because no object may have the key of the tag
(`Stored.lookup_type_of_encodeMembers`).
-/

namespace ObjectEngine

/-! ### Maps in key order -/

mutual

/-- **Maps in key order**: all lists of members in a value have increasing keys. -/
def Value.Ordered : Value → Prop
  | .acl list => Members.Sorted list.entries
  | .array items => OrderedItems items
  | .object members => Members.Sorted members ∧ OrderedMembers members
  | .included d => Members.Sorted d.fields ∧ OrderedMembers d.fields
  | _ => True

/-- All items have their maps in key order. -/
def Value.OrderedItems : List Value → Prop
  | [] => True
  | v :: rest => v.Ordered ∧ OrderedItems rest

/-- The values of all members have their maps in key order. -/
def Value.OrderedMembers : List (String × Value) → Prop
  | [] => True
  | (_, v) :: rest => v.Ordered ∧ OrderedMembers rest

end

theorem Value.orderedMembers_iff {members : List (String × Value)} :
    Value.OrderedMembers members ↔ ∀ m ∈ members, m.2.Ordered := by
  induction members with
  | nil => simp [Value.OrderedMembers]
  | cons m rest ih => rw [Value.OrderedMembers, ih, List.forall_mem_cons]

/-! ### What is left of a value -/

/-- The list without the entries that grant nothing. -/
def Acl.granting (acl : Acl) : Acl := ⟨acl.entries.filter fun e => e.2.read || e.2.write⟩

mutual

/-- **A value without included documents**: each is the reference to it again, and no entry of
an access control list grants nothing. -/
def Value.detached : Value → Value
  | .included d => .pointer ⟨d.className, d.objectId⟩
  | .acl list => .acl list.granting
  | .array items => .array (detachedItems items)
  | .object members => .object (detachedMembers members)
  | v => v

/-- Items without included documents. -/
def Value.detachedItems : List Value → List Value
  | [] => []
  | v :: rest => v.detached :: detachedItems rest

/-- Members without included documents. -/
def Value.detachedMembers : List (String × Value) → List (String × Value)
  | [] => []
  | (k, v) :: rest => (k, v.detached) :: detachedMembers rest

end

/-! ### Keys of references -/

/-- **A reference that is known from its key**: neither its class nor its id is empty, and its
class has no dollar sign. -/
structure Pointer.Separable (p : Pointer) : Prop where
  className : p.className ≠ ""
  noDollar : '$' ∉ p.className.toList
  objectId : p.objectId ≠ ""

namespace Stored

theorem toList_pointerKey (p : Pointer) :
    (pointerKey p).toList = p.className.toList ++ '$' :: p.objectId.toList := by
  change (p.className ++ "$" ++ p.objectId).toList = _
  simp [String.toList_append]

/-- References to classes without a dollar sign have different keys. -/
theorem pointerKey_inj {p q : Pointer} (hp : '$' ∉ p.className.toList)
    (hq : '$' ∉ q.className.toList) (h : pointerKey p = pointerKey q) : p = q := by
  have hchars := congrArg String.toList h
  rw [toList_pointerKey, toList_pointerKey] at hchars
  obtain ⟨hclass, hid⟩ := Text.append_first_inj hchars hp hq
  obtain ⟨className, objectId⟩ := p
  obtain ⟨className', objectId'⟩ := q
  obtain rfl : className = className' := String.toList_inj.1 hclass
  obtain rfl : objectId = objectId' := String.toList_inj.1 hid
  rfl

/-- **Reading a key** gives the separable references, each from its own key. -/
theorem pointerOfKey_eq_ok {key : String} {p : Pointer} :
    pointerOfKey key = .ok p ↔ p.Separable ∧ key = pointerKey p := by
  have hkey : (∃ a b, Text.splitFirstChars '$' key.toList = some (a, b) ∧
      (⟨String.ofList a, String.ofList b⟩ : Pointer) = p) ↔
      '$' ∉ p.className.toList ∧ key = pointerKey p := by
    constructor
    · rintro ⟨a, b, hsplit, rfl⟩
      obtain ⟨hdollar, hchars⟩ := Text.splitFirstChars_eq_some.1 hsplit
      refine ⟨by simpa using hdollar, String.toList_inj.1 ?_⟩
      rw [toList_pointerKey, hchars, String.toList_ofList, String.toList_ofList]
    · rintro ⟨hdollar, rfl⟩
      refine ⟨_, _, Text.splitFirstChars_eq_some.2 ⟨hdollar, toList_pointerKey p⟩, ?_⟩
      rw [String.ofList_toList, String.ofList_toList]
  rw [pointerOfKey, Text.splitFirst]
  cases hsplit : Text.splitFirstChars '$' key.toList with
  | none =>
    refine ⟨fun h => absurd h (by simp), fun ⟨hp, h⟩ => ?_⟩
    obtain ⟨a, b, hsome, -⟩ := hkey.2 ⟨hp.noDollar, h⟩
    exact absurd (hsplit.symm.trans hsome) (by simp)
  | some parts =>
    obtain ⟨a, b⟩ := parts
    rw [hsplit] at hkey
    by_cases hempty : (String.ofList a).isEmpty || (String.ofList b).isEmpty
    · simp only [Option.map_some, hempty, if_true]
      refine ⟨fun h => absurd h (by simp), fun ⟨hp, h⟩ => ?_⟩
      obtain ⟨a', b', heq, rfl⟩ := hkey.2 ⟨hp.noDollar, h⟩
      obtain ⟨rfl, rfl⟩ := Prod.mk.inj (Option.some.inj heq)
      rcases Bool.or_eq_true_iff.1 hempty with hempty | hempty
      · exact absurd (String.isEmpty_iff.1 hempty) hp.className
      · exact absurd (String.isEmpty_iff.1 hempty) hp.objectId
    · simp only [Option.map_some, hempty]
      obtain ⟨ha, hb⟩ := Bool.or_eq_false_iff.1 (Bool.eq_false_iff.2 hempty)
      constructor
      · intro h
        obtain rfl := Except.ok.inj h
        obtain ⟨hdollar, heq⟩ := hkey.1 ⟨a, b, rfl, rfl⟩
        exact ⟨⟨by simpa using ha, hdollar, by simpa using hb⟩, heq⟩
      · rintro ⟨hp, h⟩
        obtain ⟨a', b', heq, rfl⟩ := hkey.2 ⟨hp.noDollar, h⟩
        obtain ⟨rfl, rfl⟩ := Prod.mk.inj (Option.some.inj heq)
        rfl

/-! ### Access control lists -/

/-- Entries in key order, granted one after another, make a list of those that grant something. -/
theorem foldl_grant {entries : Members Grant} (hs : entries.Sorted) (acl : Acl)
    (h : ∀ m ∈ acl.entries, ∀ e ∈ entries, m.1 < e.1) :
    entries.foldl (fun acl e => acl.grant e.1 e.2.read e.2.write) acl =
      ⟨acl.entries ++ entries.filter fun e => e.2.read || e.2.write⟩ := by
  induction entries generalizing acl with
  | nil => simp
  | cons e rest ih =>
    obtain ⟨hfirst, hrest⟩ := List.pairwise_cons.1 hs
    have hbelow : ∀ m ∈ acl.entries, m.1 < e.1 := fun m hm => h m hm e List.mem_cons_self
    rw [List.foldl_cons]
    by_cases hgrants : (e.2.read || e.2.write) = true
    · rw [Acl.grant, if_pos hgrants, Members.insert_of_forall_lt hbelow, ih hrest]
      · simp [hgrants]
      · intro m hm f hf
        rcases List.mem_append.1 hm with hm | hm
        · exact h m hm f (List.mem_cons_of_mem _ hf)
        · exact List.mem_singleton.1 hm ▸ hfirst f hf
    · have herase : Members.erase e.1 acl.entries = acl.entries :=
        List.filter_eq_self.2 fun m hm => by
          simpa using fun he => String.lt_irrefl _ (he ▸ hbelow m hm)
      rw [Acl.grant, if_neg hgrants, herase, ih hrest]
      · simp [hgrants]
      · exact fun m hm f hf => h m hm f (List.mem_cons_of_mem _ hf)

/-- **An access control list** is read back without the entries that grant nothing. -/
theorem decodeAcl_encodeAcl {acl : Acl} (h : acl.entries.Sorted) :
    decodeAcl (encodeAcl acl) = acl.granting := by
  have hstep (list : Acl) (e : String × Grant) :
      list.grant e.1 (flag "r" ((if e.2.read then [("r", .bool true)] else []) ++
          if e.2.write then [("w", .bool true)] else []))
        (flag "w" ((if e.2.read then [("r", .bool true)] else []) ++
          if e.2.write then [("w", .bool true)] else [])) =
      list.grant e.1 e.2.read e.2.write := by
    obtain ⟨subject, read, write⟩ := e
    cases read <;> cases write <;> rfl
  rw [decodeAcl, encodeAcl, Members.mapValues, List.foldl_map]
  simp only [encodeGrant, hstep]
  exact foldl_grant h Acl.empty fun m hm => absurd hm List.not_mem_nil

/-! ### Values without a declared type -/

/-- A record with a tag begins with the tag. -/
theorem tagged_eq {tag : String} {members : List (String × Datum)} (names : List String)
    (h : ("__type" :: names).Pairwise (· < ·)) (hkeys : Members.keys members = names) :
    tagged tag members = .record (("__type", .string tag) :: members) := by
  have hsorted : Members.Sorted (("__type", .string tag) :: members) :=
    Members.sorted_of_keys _ h (congrArg ("__type" :: ·) hkeys)
  rw [tagged, hsorted.ofList_eq]

/-- **No object is taken for a tagged record**: none has the key of the tag. -/
theorem lookup_type_of_encodeMembers {members : List (String × Value)}
    {ds : List (String × Datum)} (h : encodeMembers members = .ok ds) :
    ds.lookup "__type" = none := by
  induction members generalizing ds with
  | nil =>
    obtain rfl := Except.ok.inj h
    rfl
  | cons m rest ih =>
    rw [encodeMembers] at h
    obtain ⟨hkey, h⟩ := Outcome.guard_eq_ok.1 h
    obtain ⟨d, -, h⟩ := Outcome.bind_eq_ok.1 h
    obtain ⟨ds', hds', h⟩ := Outcome.bind_eq_ok.1 h
    obtain rfl := Except.ok.inj h
    rw [Members.lookup_cons, if_neg, ih hds']
    intro hm
    exact hkey (by rw [← hm]; decide)

/-- The pairs of numbers that store points are read one by one. -/
theorem mapM_pair? (f : GeoPoint → Double × Double) (ring : List GeoPoint) :
    (ring.map fun p => Datum.array [.double (f p).1, .double (f p).2]).mapM pair? =
      some (ring.map f) := by
  induction ring with
  | nil => rfl
  | cons p rest ih =>
    rw [List.map_cons, List.mapM_cons, ih]
    rfl

theorem decodeTagged_polygon (ring : List GeoPoint) :
    decodeTagged "Polygon" [("__type", .string "Polygon"), ("coordinates", .array
        (ring.map fun p => Datum.array [.double p.latitude, .double p.longitude]))] =
      .ok (some (.polygon ring)) := by
  have hring := mapM_pair? (fun p => (p.latitude, p.longitude)) ring
  simp only [decodeTagged, List.lookup_cons, String.reduceBEq, hring, List.map_map,
    Function.comp_def, List.map_id']

mutual

/-- A value stored without a type is read back. -/
theorem decodeFree_encodeFree {v : Value} {d : Datum} (hv : v.Ordered)
    (h : encodeFree v = .ok d) : decodeFree d = .ok v.detached := by
  cases v with
  | array items =>
    rw [Value.Ordered] at hv
    obtain ⟨ds, hds, h⟩ := Outcome.bind_eq_ok.1 h
    obtain rfl := Except.ok.inj h
    rw [decodeFree, decodeItems_encodeItems hv hds]
    rfl
  | object members =>
    rw [Value.Ordered] at hv
    obtain ⟨ds, hds, h⟩ := Outcome.bind_eq_ok.1 h
    obtain rfl := Except.ok.inj h
    rw [decodeFree, lookup_type_of_encodeMembers hds, decodeMembers_encodeMembers hv.2 hds]
    rfl
  | bytes text =>
    obtain ⟨bytes, hbytes, h⟩ := Outcome.bind_eq_ok.1 h
    obtain rfl := Except.ok.inj h
    rw [decodeFree, Base64.encode_of_decode? (Outcome.ofOption_eq_ok.1 hbytes)]
    rfl
  | acl list =>
    rw [Value.Ordered] at hv
    obtain rfl := Except.ok.inj h
    rw [tagged_eq ["entries"] (by decide) (by rfl), Value.detached, ← decodeAcl_encodeAcl hv]
    rfl
  | polygon ring =>
    obtain rfl := Except.ok.inj h
    rw [tagged_eq ["coordinates"] (by decide) (by rfl), decodeFree]
    change (decodeTagged "Polygon" _ >>= _) = _
    rw [decodeTagged_polygon]
    rfl
  | pointer _ | included _ =>
    obtain rfl := Except.ok.inj h
    rw [pointerTag, tagged_eq ["className", "objectId"] (by decide) (by rfl)]
    rfl
  | relation _ =>
    obtain rfl := Except.ok.inj h
    rw [tagged_eq ["className"] (by decide) (by rfl)]
    rfl
  | geoPoint _ =>
    obtain rfl := Except.ok.inj h
    rw [tagged_eq ["latitude", "longitude"] (by decide) (by rfl)]
    rfl
  | file _ =>
    obtain rfl := Except.ok.inj h
    rw [tagged_eq ["name"] (by decide) (by rfl)]
    rfl
  | _ =>
    obtain rfl := Except.ok.inj h
    rfl

/-- Items stored without a type are read back. -/
theorem decodeItems_encodeItems {items : List Value} {ds : List Datum}
    (hv : Value.OrderedItems items) (h : encodeItems items = .ok ds) :
    decodeItems ds = .ok (Value.detachedItems items) := by
  cases items with
  | nil =>
    obtain rfl := Except.ok.inj h
    rfl
  | cons v rest =>
    rw [Value.OrderedItems] at hv
    obtain ⟨d, hd, h⟩ := Outcome.bind_eq_ok.1 h
    obtain ⟨ds', hds', h⟩ := Outcome.bind_eq_ok.1 h
    obtain rfl := Except.ok.inj h
    rw [decodeItems, decodeFree_encodeFree hv.1 hd, decodeItems_encodeItems hv.2 hds']
    rfl

/-- Members stored without a type are read back. -/
theorem decodeMembers_encodeMembers {members : List (String × Value)}
    {ds : List (String × Datum)} (hv : Value.OrderedMembers members)
    (h : encodeMembers members = .ok ds) :
    decodeMembers ds = .ok (Value.detachedMembers members) := by
  cases members with
  | nil =>
    obtain rfl := Except.ok.inj h
    rfl
  | cons m rest =>
    rw [Value.OrderedMembers] at hv
    rw [encodeMembers] at h
    obtain ⟨-, h⟩ := Outcome.guard_eq_ok.1 h
    obtain ⟨d, hd, h⟩ := Outcome.bind_eq_ok.1 h
    obtain ⟨ds', hds', h⟩ := Outcome.bind_eq_ok.1 h
    obtain rfl := Except.ok.inj h
    rw [decodeMembers, decodeFree_encodeFree hv.1 hd, decodeMembers_encodeMembers hv.2 hds']
    rfl

end

/-- **What is stored without a type** is read back at every depth: with a reference in place of
each included document, and without the entries of access control lists that grant nothing. -/
theorem free_round_trip {v : Value} {d : Datum} (hv : v.Ordered) (h : encodeFree v = .ok d) :
    decodeFree d = .ok v.detached :=
  decodeFree_encodeFree hv h

/-- A value with a reference, an included document, a tagged record of each kind and scalars
below an array and an object. -/
def nested : Value :=
  .array [.null, .pointer ⟨"User$", ""⟩, .object [
    ("access", .acl ⟨[("*", ⟨true, false⟩), ("bob", ⟨false, false⟩)]⟩),
    ("area", .polygon [⟨Double.zero true, Double.infinity false⟩]),
    ("author", .included ⟨"User", "u1", none, none, [("name", .string "Ann")]⟩),
    ("born", .date ⟨-1, 999999999⟩), ("list", .array [.object []]), ("nan", .float Double.nan),
    ("pad", .bytes "AQI="), ("place", .geoPoint ⟨Double.nan, Double.zero true⟩),
    ("raw", .raw ⟨"regex", [7]⟩), ("scan", .file "a.png"), ("tags", .relation "Tag")]]

theorem free_round_trip_nested :
    nested.Ordered ∧ ∃ d, encodeFree nested = .ok d ∧
      decodeFree d = .ok (.array [.null, .pointer ⟨"User$", ""⟩, .object [
        ("access", .acl ⟨[("*", ⟨true, false⟩)]⟩),
        ("area", .polygon [⟨Double.zero true, Double.infinity false⟩]),
        ("author", .pointer ⟨"User", "u1"⟩),
        ("born", .date ⟨-1, 999999999⟩), ("list", .array [.object []]), ("nan", .float Double.nan),
        ("pad", .bytes "AQI="), ("place", .geoPoint ⟨Double.nan, Double.zero true⟩),
        ("raw", .raw ⟨"regex", [7]⟩), ("scan", .file "a.png"), ("tags", .relation "Tag")]]) := by
  have hordered : nested.Ordered := by
    simp only [nested, Value.Ordered, Value.OrderedItems, Value.OrderedMembers]
    decide
  obtain ⟨d, hd⟩ : ∃ d, encodeFree nested = .ok d := ⟨_, rfl⟩
  exact ⟨hordered, d, hd, free_round_trip hordered hd⟩

/-! ### Values of a declared type -/

/-- A point is read back from longitude and latitude. -/
theorem decode_encodePoint (p : GeoPoint) : decode .geoPoint (encodePoint p) = .ok (.geoPoint p) :=
  rfl

/-- A polygon is read back from GeoJSON. -/
theorem polygon?_geoJson (ring : List GeoPoint) :
    polygon? [("coordinates", .array [.array (ring.map encodePoint)]),
      ("type", .string "Polygon")] = some ring := by
  have hring : (ring.map encodePoint).mapM pair? =
      some (ring.map fun p => (p.longitude, p.latitude)) :=
    mapM_pair? (fun p => (p.longitude, p.latitude)) ring
  simp only [polygon?, List.lookup_cons, String.reduceBEq, Option.bind_some, Datum.asString?, hring,
    Option.map_some, List.map_map, Function.comp_def, List.map_id']

/-- A text is stored as it is. -/
theorem eq_of_encode_string {ty : FieldType} {s : String} {d : Datum}
    (h : encode ty (.string s) = .ok d) : d = .string s := by
  cases ty <;> simp [encode, Value.asPointer?] at h
  exact h.symm

/-- **A value of a declared type** that is no reference is read back. -/
theorem decode_encode {ty : FieldType} {v : Value} {d : Datum} (hv : v.Ordered)
    (hty : ∀ target, ty ≠ .pointer target) (h : encode ty v = .ok d) :
    decode ty d = .ok v.detached := by
  unfold encode at h
  dsimp only at h
  split at h
  case h_1 =>
    obtain rfl := Except.ok.inj h
    cases ty <;> rfl
  case h_7 =>
    obtain ⟨bytes, hbytes, h⟩ := Outcome.bind_eq_ok.1 h
    obtain rfl := Except.ok.inj h
    rw [decode, Base64.encode_of_decode? (Outcome.ofOption_eq_ok.1 hbytes)]
    rfl
  case h_9 =>
    obtain ⟨-, -, h⟩ := Outcome.bind_eq_ok.1 h
    obtain rfl := Except.ok.inj h
    exact decode_encodePoint _
  case h_10 ring =>
    obtain ⟨-, h⟩ := Outcome.guard_eq_ok.1 h
    obtain ⟨-, -, h⟩ := Outcome.bind_eq_ok.1 h
    obtain rfl := Except.ok.inj h
    simp only [decode, polygon?_geoJson, Value.detached]
  case h_11 => exact absurd rfl (hty _)
  case h_12 className =>
    split at h
    · have hfree := decodeFree_encodeFree (v := .relation className) trivial h
      rw [tagged_eq ["className"] (by decide) (by rfl)] at h
      obtain rfl := Except.ok.inj h
      exact hfree
    · exact absurd h (by simp)
  case h_13 list =>
    rw [Value.Ordered] at hv
    obtain rfl := Except.ok.inj h
    simp only [decode, decodeAcl_encodeAcl hv, Value.detached]
  case h_14 =>
    have hfree := decodeFree_encodeFree hv h
    obtain ⟨ds, -, h⟩ := Outcome.bind_eq_ok.1 h
    obtain rfl := Except.ok.inj h
    exact hfree
  case h_15 =>
    have hfree := decodeFree_encodeFree hv h
    obtain ⟨ds, -, h⟩ := Outcome.bind_eq_ok.1 h
    obtain rfl := Except.ok.inj h
    exact hfree
  case h_16 => exact absurd h (by simp)
  -- texts, numbers, flags, times and file names are stored as they are
  all_goals
    obtain rfl := Except.ok.inj h
    rfl

/-- **A reference** is read back exactly if its key comes apart where it was put together. -/
theorem decode_encode_pointer {target : String} {v : Value} {d : Datum}
    (h : encode (.pointer target) v = .ok d) :
    decode (.pointer target) d = .ok v.detached ↔ ∀ p, v.asPointer? = some p → p.Separable := by
  have hdetached {p : Pointer} (hp : v.asPointer? = some p) : v.detached = .pointer p := by
    cases v with
    | pointer q | included q =>
      obtain rfl := Option.some.inj hp
      rfl
    | _ => exact absurd hp (by simp [Value.asPointer?])
  cases hp : v.asPointer? with
  | none =>
    cases v with
    | null =>
      obtain rfl := Except.ok.inj h
      exact ⟨fun _ p hp => absurd hp (by simp), fun _ => rfl⟩
    | pointer _ | included _ => exact absurd hp (by simp [Value.asPointer?])
    | _ => exact absurd h (by simp [encode, Value.asPointer?])
  | some p =>
    have hkey : d = .string (pointerKey p) := by
      cases v with
      | pointer q | included q =>
        simp only [encode, hp] at h
        split at h
        · exact (Except.ok.inj h).symm
        · exact absurd h (by simp)
      | _ => exact absurd hp (by simp [Value.asPointer?])
    subst hkey
    rw [hdetached hp]
    constructor
    · rintro hdecode q hq
      obtain rfl := Option.some.inj hq
      obtain ⟨p', hp', hdecode⟩ := Outcome.bind_eq_ok.1 hdecode
      obtain rfl : p' = p := Value.pointer.inj (Except.ok.inj hdecode)
      exact (pointerOfKey_eq_ok.1 hp').1
    · intro hseparable
      rw [decode, pointerOfKey_eq_ok.2 ⟨hseparable p rfl, rfl⟩]
      rfl

end Stored

end ObjectEngine
