import ObjectEngine.Proofs.Rest.Bodies
import ObjectEngine.Proofs.Stored.Values
import ObjectEngine.Proofs.Text.Reading

/-!
# What is written in the REST dialect is read back

A portable value is read back from its form in the REST dialect in whole milliseconds if all its
times have years of four digits, and otherwise not at all (`Rest.okIff_value`); so it is for a
document (`Document.okIff_ofRest`). Where the times are written in full, this is the round trip
`Rest.round_trip`.

The proof follows the value: a tagged object is read by its tag, the members of a plain object
have no text as their tag, and an included document is told by its members.
-/

namespace ObjectEngine

/-! ### Tagged objects -/

/-- An object with a tag begins with the tag. -/
theorem Json.tagged_eq {tag : String} {members : List (String × Json)} (names : List String)
    (h : ("__type" :: names).Pairwise (· < ·)) (hkeys : Members.keys members = names) :
    Json.tagged tag members = .obj (("__type", .str tag) :: members) := by
  have hsorted : Members.Sorted (("__type", Json.str tag) :: members) :=
    Members.sorted_of_keys _ h (congrArg ("__type" :: ·) hkeys)
  rw [Json.tagged, Json.object, hsorted.ofList_eq]

/-- A finite number is written as it is. -/
theorem Json.ofDouble_of_finite {x : Double} (h : x.isFinite = true) : Json.ofDouble x = .float x :=
  if_pos h

/-- The points of a polygon are read back one by one. -/
theorem Rest.mapM_polygonPoint {ring : List GeoPoint} (h : ∀ p ∈ ring, p.Finite) :
    (ring.map fun p => Json.arr [.ofDouble p.latitude, .ofDouble p.longitude]).mapM polygonPoint =
      .ok ring := by
  induction ring with
  | nil => rfl
  | cons p rest ih =>
    obtain ⟨⟨hlatitude, hlongitude⟩, hrest⟩ := List.forall_mem_cons.1 h
    rw [List.map_cons, List.mapM_cons, ih hrest, Json.ofDouble_of_finite hlatitude,
      Json.ofDouble_of_finite hlongitude]
    rfl

/-- What a subject may do is read back. -/
theorem Acl.flag_grantToRest (g : Grant) :
    flag "read" (grantToRest g) = g.read ∧ flag "write" (grantToRest g) = g.write := by
  obtain ⟨read, write⟩ := g
  cases read <;> cases write <;> exact ⟨rfl, rfl⟩

/-- **An access control list** is read back. -/
theorem Acl.ofRest_toRest {acl : Acl} (h : acl.Granting) : Acl.ofRest acl.toRest = .ok acl := by
  have hentries : (acl.entries.filter fun e => e.2.read || e.2.write) = acl.entries :=
    List.filter_eq_self.2 h.grants
  rw [Acl.toRest, Acl.ofRest, Members.mapValues, List.foldl_map]
  simp only [flag_grantToRest]
  rw [Stored.foldl_grant h.sorted Acl.empty fun m hm => absurd hm List.not_mem_nil, hentries]
  rfl

/-! ### Values -/

namespace Rest

/-- A value without times is read back under no condition. -/
theorem okIff_timeless {x : Outcome Value} {v : Value} (h : x = .ok v) :
    x.OkIff (∀ t ∈ ([] : List Instant), t.Dated) v :=
  Outcome.okIff_of_eq h (List.forall_mem_nil _)

/-- A date is read from its text. -/
theorem value_date (s : String) : value (.obj [("__type", .str "Date"), ("iso", .str s)]) =
    (instant s >>= fun t => .ok (.date t)) := by
  change tagged "Date" _ = _
  rw [tagged, show stringMember _ "Date" "iso" = .ok s from rfl]
  rfl

/-- A raw value is read from its kind and the text of its bytes, which comes first. -/
theorem value_raw (kind base64 : String) :
    value (.tagged "Raw" [("kind", .str kind), ("base64", .str base64)]) =
      (bytes base64 >>= fun content => .ok (.raw ⟨kind, content⟩)) := by
  have hkind : Members.ofList [("__type", Json.str "Raw"), ("kind", .str kind)] =
      [("__type", .str "Raw"), ("kind", .str kind)] :=
    (Members.sorted_of_keys ["__type", "kind"] (by decide) rfl).ofList_eq
  have hmembers : Json.tagged "Raw" [("kind", .str kind), ("base64", .str base64)] =
      .obj [("__type", .str "Raw"), ("base64", .str base64), ("kind", .str kind)] := by
    have happend := Members.insertAll_append [] [("__type", Json.str "Raw"), ("kind", .str kind)]
      [("base64", .str base64)]
    rw [← Members.ofList, ← Members.ofList, hkind] at happend
    refine congrArg Json.obj (happend.trans ?_)
    rw [Members.insertAll, List.foldl_cons, List.foldl_nil, Members.insert,
      if_neg (show ¬"base64" < "__type" by decide), if_neg (show "base64" ≠ "__type" by decide),
      Members.insert, if_pos (show "base64" < "kind" by decide)]
  rw [hmembers]
  change tagged "Raw" _ = _
  rw [tagged, show stringMember _ "Raw" "base64" = .ok base64 from rfl,
    show stringMember _ "Raw" "kind" = .ok kind from rfl]
  rfl

mutual

/-- **A portable value is read back** in whole milliseconds if all its times have years of four
digits, and otherwise not at all. -/
theorem okIff_value {v : Value} (hv : v.Portable) (hvalid : ∀ t ∈ v.times, t.Valid) :
    (value v.toRest).OkIff (∀ t ∈ v.times, t.Dated) v.truncated := by
  cases v with
  | null | bool _ | string _ => exact okIff_timeless rfl
  | int n =>
    refine okIff_timeless ?_
    rw [Value.toRest, value, Words.int64?_eq_some_iff.2 rfl]
    rfl
  | float x =>
    refine okIff_timeless ?_
    rw [Value.toRest, Json.ofDouble_of_finite hv]
    rfl
  | date t =>
    rw [Value.toRest, Json.tagged_eq ["iso"] (by decide) rfl, value_date]
    exact ((okIff_instant (hvalid t List.mem_cons_self)).map Value.date).congr
      List.forall_mem_singleton.symm
  | bytes base64 =>
    obtain ⟨content, hcontent⟩ := Option.isSome_iff_exists.1 hv
    refine okIff_timeless ?_
    rw [Value.toRest, Json.tagged_eq ["base64"] (by decide) rfl]
    change (bytes base64 >>= fun _ => pure (Value.bytes base64)) = _
    rw [bytes, hcontent]
    rfl
  | pointer p =>
    refine okIff_timeless ?_
    rw [Value.toRest, Json.tagged_eq ["className", "objectId"] (by decide) rfl]
    rfl
  | relation className =>
    refine okIff_timeless ?_
    rw [Value.toRest, Json.tagged_eq ["className"] (by decide) rfl]
    rfl
  | geoPoint p =>
    refine okIff_timeless ?_
    rw [Value.toRest, Json.tagged_eq ["latitude", "longitude"] (by decide) rfl,
      Json.ofDouble_of_finite hv.1, Json.ofDouble_of_finite hv.2]
    rfl
  | polygon ring =>
    refine okIff_timeless ?_
    rw [Value.toRest, Json.tagged_eq ["coordinates"] (by decide) rfl]
    change (List.mapM polygonPoint _ >>= fun ring => pure (Value.polygon ring)) = _
    rw [mapM_polygonPoint hv]
    rfl
  | file name =>
    refine okIff_timeless ?_
    rw [Value.toRest, Json.tagged_eq ["name"] (by decide) rfl]
    rfl
  | acl list => exact hv.elim
  | array items => exact (okIff_values hv hvalid).map Value.array
  | object members =>
    obtain ⟨-, htype, hmembers⟩ := hv
    -- nothing that is written as a text was not a text
    have htag : tag? (Value.toRestMembers members) = none := by
      rw [tag?, Value.toRestMembers_eq, Members.lookup_mapValues, Option.bind_map]
      exact (congrArg _ (funext Value.asString?_toRest)).trans htype
    rw [Value.toRest, value, htag]
    exact (okIff_memberValues hmembers hvalid).map Value.object
  | included d =>
    have hportable : Document.Portable d := hv
    obtain ⟨htimes, hfields⟩ := List.forall_mem_append.1 hvalid
    -- the tag is one member more, and the others still tell the document
    obtain ⟨members, hwritten, htells, htag⟩ : ∃ members, (Value.included d).toRest = .obj members ∧
        Document.Tells d members ∧ tag? members = some "Object" := by
      refine ⟨_, rfl, Document.tells_insert_type d (.str "Object"), ?_⟩
      rw [tag?, Members.lookup_insert, if_pos rfl]
      rfl
    have hclass := Outcome.okIff_of_eq (htells.className_eq hportable) trivial
    have hbody := ((htells.okIff_body hportable htimes (okIff_fields hv.2 hfields)).map
      fun b => Value.included (b.document d.className members)).congr List.forall_mem_append.symm
    rw [Body.document, htells.objectId_eq hportable] at hbody
    rw [hwritten, value, htag]
    exact (hclass.bind (f := fun className => body members >>= fun b =>
      pure (Value.included (b.document className members))) hbody).congr (and_iff_right trivial)
  | raw r =>
    refine okIff_timeless ?_
    rw [Value.toRest, value_raw, bytes, Base64.decode?_encode]
    rfl
termination_by structural v

/-- Portable items are read back likewise. -/
theorem okIff_values {items : List Value} (hv : Value.PortableItems items)
    (hvalid : ∀ t ∈ Value.timesOfItems items, t.Valid) :
    (values (Value.toRestItems items)).OkIff (∀ t ∈ Value.timesOfItems items, t.Dated)
      (Value.truncatedItems items) := by
  cases items with
  | nil => exact Outcome.okIff_of_eq rfl (List.forall_mem_nil _)
  | cons v rest =>
    obtain ⟨hfirst, hrest⟩ := List.forall_mem_append.1 hvalid
    exact ((okIff_value hv.1 hfirst).bind
      ((okIff_values hv.2 hrest).map (v.truncated :: ·))).congr List.forall_mem_append.symm
termination_by structural items

/-- The members of a plain object are read back likewise. -/
theorem okIff_memberValues {members : List (String × Value)}
    (hv : Value.PortableMembers members)
    (hvalid : ∀ t ∈ Value.timesOfMembers members, t.Valid) :
    (memberValues (Value.toRestMembers members)).OkIff
      (∀ t ∈ Value.timesOfMembers members, t.Dated) (Value.truncatedMembers members) := by
  cases members with
  | nil => exact Outcome.okIff_of_eq rfl (List.forall_mem_nil _)
  | cons m rest =>
    obtain ⟨hfirst, hrest⟩ := List.forall_mem_append.1 hvalid
    exact ((okIff_value hv.1 hfirst).bind
      ((okIff_memberValues hv.2 hrest).map ((m.1, m.2.truncated) :: ·))).congr
      List.forall_mem_append.symm
termination_by structural members

/-- The fields of a document are read back likewise. -/
theorem okIff_fields {fs : List (String × Value)}
    (hv : Value.PortableFields fs) (hvalid : ∀ t ∈ Value.timesOfMembers fs, t.Valid) :
    (fields (Value.toRestMembers fs)).OkIff (∀ t ∈ Value.timesOfMembers fs, t.Dated)
      (Value.truncatedMembers fs) := by
  cases fs with
  | nil => exact Outcome.okIff_of_eq rfl (List.forall_mem_nil _)
  | cons m rest =>
    obtain ⟨k, v⟩ := m
    obtain ⟨hkey, hportable⟩ := hv
    obtain ⟨hfirst, hrest⟩ := List.forall_mem_append.1 hvalid
    have hfield : (field k v.toRest).OkIff (∀ t ∈ v.times, t.Dated) v.truncated := by
      rw [field]
      split at hkey
      · rename_i hacl
        obtain ⟨acl, rfl, hgranting⟩ := hkey
        rw [if_pos hacl, Value.toRest, Acl.ofRest_toRest hgranting]
        exact okIff_timeless rfl
      · rename_i hacl
        rw [if_neg hacl]
        exact okIff_value hkey.2 hfirst
    exact (hfield.bind
      ((okIff_fields hportable hrest).map ((k, v.truncated) :: ·))).congr
      List.forall_mem_append.symm
termination_by structural fs

end

end Rest

/-- **A portable document is read back** likewise. -/
theorem Document.okIff_ofRest {d : Document} (h : d.Portable) (hvalid : ∀ t ∈ d.times, t.Valid) :
    (Document.ofRest d.className d.toRest).OkIff (∀ t ∈ d.times, t.Dated) d.truncated := by
  obtain ⟨htimes, hfields⟩ := List.forall_mem_append.1 hvalid
  have htells := Document.tells_restMembers d
  have hbody := ((htells.okIff_body h htimes (Rest.okIff_fields h.2 hfields)).map
    fun b => b.document d.className d.restMembers).congr List.forall_mem_append.symm
  rw [Rest.Body.document, htells.objectId_eq h] at hbody
  exact hbody

/-! ### The round trip -/

/-- **A time that is written in full**: an instant of a clock in whole milliseconds, in a year of
four digits. -/
structure Instant.Exact (t : Instant) : Prop where
  valid : t.Valid
  whole : t.nanos % 1000000 = 0
  dated : t.Dated

instance (t : Instant) : Decidable t.Exact :=
  decidable_of_iff (t.Valid ∧ t.nanos % 1000000 = 0 ∧ t.Dated)
    ⟨fun h => ⟨h.1, h.2.1, h.2.2⟩, fun h => ⟨h.valid, h.whole, h.dated⟩⟩

theorem Instant.Exact.truncated_eq {t : Instant} (h : t.Exact) : t.truncated = t := by
  have hwhole := h.whole
  rw [Instant.truncated]
  exact congrArg (Instant.mk t.seconds) (by omega)

/-- A document in whole milliseconds stays as it is. -/
theorem Document.truncated_eq_self {d : Document} (h : ∀ t ∈ d.times, t.truncated = t) :
    d.truncated = d :=
  Value.included.inj (Value.truncated_eq_self (v := .included d) h)

/-- **The round trip**: portable values, and portable documents of their class, whose times are
written in full are read back as they are. -/
theorem Rest.round_trip :
    (∀ v : Value, v.Portable → (∀ t ∈ v.times, t.Exact) → Value.ofRest v.toRest = .ok v) ∧
      ∀ d : Document, d.Portable → (∀ t ∈ d.times, t.Exact) →
        Document.ofRest d.className d.toRest = .ok d := by
  constructor
  · intro v hv ht
    have hwhole : v.truncated = v := Value.truncated_eq_self fun t h => (ht t h).truncated_eq
    exact (Rest.okIff_value hv (fun t h => (ht t h).valid) v).2
      ⟨hwhole.symm, fun t h => (ht t h).dated⟩
  · intro d hd ht
    have hwhole : d.truncated = d := Document.truncated_eq_self fun t h => (ht t h).truncated_eq
    exact (Document.okIff_ofRest hd (fun t h => (ht t h).valid) d).2
      ⟨hwhole.symm, fun t h => (ht t h).dated⟩

/-- A document with a value of every kind, an access control list of its own, and a document in
place of a reference. -/
def sampler : Document where
  className := "Post"
  objectId := "p1"
  createdAt := some ⟨1709296200, 5000000⟩
  updatedAt := some ⟨1719791999, 1250000000⟩
  fields := [
    ("ACL", .acl ⟨[("*", ⟨true, false⟩), ("role:admin", ⟨true, true⟩)]⟩),
    ("area", .polygon [⟨Double.zero true, Double.ofInt 90⟩]),
    ("author", .included ⟨"User", "u1", none, some ⟨-62167219200, 0⟩,
      [("ACL", .acl ⟨[]⟩), ("born", .date ⟨-1, 999000000⟩)]⟩),
    ("cover", .file "a.png"),
    ("list", .array [.null, .bool true, .int (-3), .float (Double.zero true), .string "x"]),
    ("meta", .object [("__type", .int 1), ("pad", .bytes "AQI=")]),
    ("owner", .pointer ⟨"User", "u1"⟩),
    ("place", .geoPoint ⟨Double.ofInt 40, Double.ofInt (-70)⟩),
    ("raw", .raw ⟨"regex", [7]⟩),
    ("tags", .relation "Tag")]

theorem portable_sampler : sampler.Portable := by
  have hauthor : (Value.included ⟨"User", "u1", none, some ⟨-62167219200, 0⟩,
      [("ACL", .acl ⟨[]⟩), ("born", .date ⟨-1, 999000000⟩)]⟩).Portable :=
    ⟨by decide, .cons_acl ⟨by decide, by decide⟩ (.cons (by decide) trivial trivial)⟩
  have hmeta : (Value.object [("__type", .int 1), ("pad", .bytes "AQI=")]).Portable :=
    ⟨by decide, rfl, trivial, rfl, trivial⟩
  have hlist : (Value.array [.null, .bool true, .int (-3), .float (Double.zero true),
      .string "x"]).Portable := ⟨trivial, trivial, trivial, rfl, trivial, trivial⟩
  have harea : (Value.polygon [⟨Double.zero true, Double.ofInt 90⟩]).Portable := by
    change ∀ p ∈ _, _
    decide
  have hplace : (Value.geoPoint ⟨Double.ofInt 40, Double.ofInt (-70)⟩).Portable := by
    change GeoPoint.Finite _
    decide
  exact ⟨by decide, .cons_acl ⟨by decide, by decide⟩ <| .cons (by decide) harea <|
    .cons (by decide) hauthor <| .cons (by decide) trivial <| .cons (by decide) hlist <|
    .cons (by decide) hmeta <| .cons (by decide) trivial <| .cons (by decide) hplace <|
    .cons (by decide) trivial <| .cons (by decide) trivial trivial⟩

theorem Rest.round_trip_sampler :
    (sampler.Portable ∧ ∀ t ∈ sampler.times, t.Exact) ∧
      Value.ofRest (Value.included sampler).toRest = .ok (.included sampler) ∧
      Document.ofRest "Post" sampler.toRest = .ok sampler := by
  have htimes : ∀ t ∈ sampler.times, t.Exact := by decide
  exact ⟨⟨portable_sampler, htimes⟩, Rest.round_trip.1 _ portable_sampler htimes,
    Rest.round_trip.2 _ portable_sampler htimes⟩

end ObjectEngine
