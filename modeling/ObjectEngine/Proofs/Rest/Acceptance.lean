import ObjectEngine.Proofs.Double.Integers
import ObjectEngine.Proofs.Rest.RoundTrip

/-!
# What the REST dialect accepts

Much is accepted that is not written so: offsets and fractions of any length, tags that are no
texts, members that a tag does not need, times given as objects, integers as coordinates. Still
what is read is portable and its times are instants of a clock (`Rest.portable_of_value`), by
induction on the JSON value. So it is written in a form that is accepted again, and comes back in
whole milliseconds (`Rest.accepted_again`), unless an offset has led out of the years 0 to 9999
(`Rest.not_accepted_newYear`).
-/

namespace ObjectEngine

/-! ### JSON values -/

mutual

/-- **JSON values as they are**: integers have 64 bits, with a sign or without, other numbers are
finite, and the members of objects are in key order. -/
def Json.Proper : Json → Prop
  | .int n => -2 ^ 63 ≤ n ∧ n < 2 ^ 64
  | .float x => x.isFinite = true
  | .arr items => ProperItems items
  | .obj members => Members.Sorted members ∧ ProperMembers members
  | _ => True

/-- All items are proper. -/
def Json.ProperItems : List Json → Prop
  | [] => True
  | j :: rest => j.Proper ∧ ProperItems rest

/-- The values of all members are proper. -/
def Json.ProperMembers : List (String × Json) → Prop
  | [] => True
  | (_, j) :: rest => j.Proper ∧ ProperMembers rest

end

theorem Json.ProperMembers.of_mem {members : List (String × Json)} (h : ProperMembers members)
    {m : String × Json} (hm : m ∈ members) : m.2.Proper := by
  induction members with
  | nil => exact absurd hm List.not_mem_nil
  | cons first rest ih =>
    rcases List.mem_cons.1 hm with rfl | hm
    · exact h.1
    · exact ih h.2 hm

theorem Json.ProperItems.of_mem {items : List Json} (h : ProperItems items) {j : Json}
    (hj : j ∈ items) : j.Proper := by
  induction items with
  | nil => exact absurd hj List.not_mem_nil
  | cons first rest ih =>
    rcases List.mem_cons.1 hj with rfl | hj
    · exact h.1
    · exact ih h.2 hj

/-- A number is read as a finite one. -/
theorem Json.isFinite_of_asDouble? {j : Json} (hj : j.Proper) {x : Double}
    (h : j.asDouble? = some x) : x.isFinite = true := by
  cases j with
  | int n =>
    obtain rfl := Option.some.inj h
    obtain ⟨hlow, hhigh⟩ := hj
    exact Double.isFinite_ofInt (by omega)
  | float y =>
    obtain rfl := Option.some.inj h
    exact hj
  | _ => exact absurd h (by simp [Json.asDouble?])

/-! ### What is read is portable -/

/-- A grant, or its removal, leaves a list of grants. -/
theorem Acl.Granting.grant {acl : Acl} (h : acl.Granting) (subject : String) (read write : Bool) :
    (acl.grant subject read write).Granting := by
  unfold Acl.grant
  split
  · rename_i hgrants
    refine ⟨Members.sorted_insert h.sorted _ _, fun e he => ?_⟩
    rcases Members.mem_insert he with rfl | he
    · exact hgrants
    · exact h.grants e he
  · exact ⟨Members.sorted_erase h.sorted _, fun e he => h.grants e (List.mem_of_mem_filter he)⟩

theorem Acl.granting_empty : Acl.empty.Granting := ⟨.nil, fun _ he => absurd he List.not_mem_nil⟩

/-- What is read as an access control list is a list of grants. -/
theorem Acl.granting_of_ofRest {j : Json} {acl : Acl} (h : Acl.ofRest j = .ok acl) :
    acl.Granting := by
  cases j with
  | obj members =>
    obtain rfl := Except.ok.inj h
    exact List.foldlRecOn (motive := Acl.Granting) members _ Acl.granting_empty
      fun _ hacl m _ => hacl.grant m.1 _ _
  | _ => exact absurd h (by simp [Acl.ofRest])

namespace Rest

/-- What is read as a time is an instant of a clock. -/
theorem valid_of_time {j : Json} {t : Instant} (h : time j = .ok t) : t.Valid := by
  unfold time at h
  split at h
  · exact Instant.valid_of_parse? (instant_eq_ok.1 h)
  · split at h
    · exact Instant.valid_of_parse? (instant_eq_ok.1 h)
    · exact absurd h (by simp)
  · exact absurd h (by simp)

theorem valid_of_time? {key : String} {members : List (String × Json)} {t : Option Instant}
    (h : time? key members = .ok t) : ∀ u ∈ t.toList, u.Valid := by
  unfold time? at h
  split at h
  · obtain rfl := Except.ok.inj h
    exact fun _ hu => absurd hu List.not_mem_nil
  · obtain ⟨u, hu, rfl⟩ := Outcome.map_eq_ok.1 h
    simpa using valid_of_time hu

/-- What is read as a number is finite. -/
theorem isFinite_of_doubleMember {members : List (String × Json)} (hj : Json.ProperMembers members)
    {tag key : String} {x : Double} (h : doubleMember members tag key = .ok x) :
    x.isFinite = true := by
  obtain ⟨j, hlookup, hx⟩ := Option.bind_eq_some_iff.1 (Outcome.ofOption_eq_ok.1 h)
  exact Json.isFinite_of_asDouble? (hj.of_mem (Members.mem_of_lookup hlookup)) hx

/-- What is read as a point of a polygon is finite. -/
theorem finite_of_polygonPoint {j : Json} (hj : j.Proper) {p : GeoPoint}
    (h : polygonPoint j = .ok p) : p.Finite := by
  unfold polygonPoint at h
  split at h
  · obtain ⟨hlatitude, hlongitude, -⟩ := hj
    split at h
    · rename_i lat lng hlat hlng
      obtain rfl := Except.ok.inj h
      exact ⟨Json.isFinite_of_asDouble? hlatitude hlat, Json.isFinite_of_asDouble? hlongitude hlng⟩
    · exact absurd h (by simp)
  · exact absurd h (by simp)

/-- **What is read from a tagged object** is portable, and it is no text. -/
theorem portable_of_tagged {tag : String} {members : List (String × Json)}
    (hj : Json.ProperMembers members) {v : Value} (h : tagged tag members = .ok v) :
    v.Portable ∧ (∀ t ∈ v.times, t.Valid) ∧ v.asString? = none := by
  unfold tagged at h
  split at h
  · obtain ⟨s, -, h⟩ := Outcome.bind_eq_ok.1 h
    obtain ⟨t, ht, h⟩ := Outcome.bind_eq_ok.1 h
    obtain rfl := Except.ok.inj h
    refine ⟨trivial, fun u hu => ?_, rfl⟩
    obtain rfl := List.mem_singleton.1 hu
    exact Instant.valid_of_parse? (instant_eq_ok.1 ht)
  · obtain ⟨base64, -, h⟩ := Outcome.bind_eq_ok.1 h
    obtain ⟨content, hcontent, h⟩ := Outcome.bind_eq_ok.1 h
    obtain rfl := Except.ok.inj h
    exact ⟨Option.isSome_iff_exists.2 ⟨content, Outcome.ofOption_eq_ok.1 hcontent⟩,
      List.forall_mem_nil _, rfl⟩
  · obtain ⟨className, objectId, -, -, rfl⟩ := Outcome.bind₂_eq_ok.1 h
    exact ⟨trivial, List.forall_mem_nil _, rfl⟩
  · obtain ⟨className, -, h⟩ := Outcome.bind_eq_ok.1 h
    obtain rfl := Except.ok.inj h
    exact ⟨trivial, List.forall_mem_nil _, rfl⟩
  · obtain ⟨latitude, longitude, hlatitude, hlongitude, rfl⟩ := Outcome.bind₂_eq_ok.1 h
    exact ⟨⟨isFinite_of_doubleMember hj hlatitude, isFinite_of_doubleMember hj hlongitude⟩,
      List.forall_mem_nil _, rfl⟩
  · split at h
    · rename_i points hpoints
      obtain ⟨ring, hring, h⟩ := Outcome.bind_eq_ok.1 h
      obtain rfl := Except.ok.inj h
      have hproper : Json.ProperItems points := hj.of_mem (Members.mem_of_lookup hpoints)
      refine ⟨fun p hp => ?_, List.forall_mem_nil _, rfl⟩
      obtain ⟨j, hmem, hpoint⟩ := Outcome.exists_of_forall₂ (Outcome.forall₂_of_mapM hring) hp
      exact finite_of_polygonPoint (hproper.of_mem hmem) hpoint
    · exact absurd h (by simp)
  · obtain ⟨name, -, h⟩ := Outcome.bind_eq_ok.1 h
    obtain rfl := Except.ok.inj h
    exact ⟨trivial, List.forall_mem_nil _, rfl⟩
  · obtain ⟨base64, -, h⟩ := Outcome.bind_eq_ok.1 h
    obtain ⟨content, kind, -, -, rfl⟩ := Outcome.bind₂_eq_ok.1 h
    exact ⟨trivial, List.forall_mem_nil _, rfl⟩
  · exact absurd h (by simp)

/-- Only a text is read as a text. -/
theorem asString?_of_value {j : Json} (hj : j.Proper) {v : Value} (h : value j = .ok v)
    (hnone : j.asString? = none) : v.asString? = none := by
  cases j with
  | str s => exact absurd hnone (by simp [Json.asString?])
  | int n =>
    obtain rfl := Except.ok.inj h
    cases Words.int64? n <;> rfl
  | arr items =>
    obtain ⟨vs, -, h⟩ := Outcome.bind_eq_ok.1 h
    obtain rfl := Except.ok.inj h
    rfl
  | obj members =>
    rw [value] at h
    split at h
    · obtain ⟨ms, -, h⟩ := Outcome.bind_eq_ok.1 h
      obtain rfl := Except.ok.inj h
      rfl
    · obtain ⟨className, b, -, -, rfl⟩ := Outcome.bind₂_eq_ok.1 h
      rfl
    · exact (portable_of_tagged hj.2 h).2.2
  | _ =>
    obtain rfl := Except.ok.inj h
    rfl

/-- A type tag that is no text is read as none. -/
theorem tag_of_memberValues {members : List (String × Json)} (hj : Json.ProperMembers members)
    {ms : List (String × Value)} (h : memberValues members = .ok ms)
    (htag : tag? members = none) : (ms.lookup "__type").bind Value.asString? = none := by
  rw [tag?] at htag
  induction members generalizing ms with
  | nil =>
    obtain rfl := Except.ok.inj h
    rfl
  | cons m rest ih =>
    rw [memberValues] at h
    obtain ⟨v, ms', hv, hms', rfl⟩ := Outcome.bind₂_eq_ok.1 h
    rw [Members.lookup_cons] at htag ⊢
    split
    · rename_i hkey
      rw [if_pos hkey] at htag
      exact asString?_of_value hj.1 hv htag
    · rename_i hkey
      rw [if_neg hkey] at htag
      exact ih hj.2 hms' htag

mutual

/-- **What is read is portable**, and its times are instants of a clock. -/
theorem portable_of_value {j : Json} (hj : j.Proper) {v : Value} (h : value j = .ok v) :
    v.Portable ∧ ∀ t ∈ v.times, t.Valid := by
  cases j with
  | null | bool _ | str _ =>
    obtain rfl := Except.ok.inj h
    exact ⟨trivial, List.forall_mem_nil _⟩
  | int n =>
    obtain ⟨hlow, hhigh⟩ := hj
    -- an integer of 64 bits without a sign may be too large for one with a sign
    have hfinite : (Double.ofInt n).isFinite = true := Double.isFinite_ofInt (by omega)
    obtain rfl := Except.ok.inj h
    cases Words.int64? n with
    | none => exact ⟨hfinite, List.forall_mem_nil _⟩
    | some w => exact ⟨trivial, List.forall_mem_nil _⟩
  | float x =>
    obtain rfl := Except.ok.inj h
    exact ⟨hj, List.forall_mem_nil _⟩
  | arr items =>
    obtain ⟨vs, hvs, h⟩ := Outcome.bind_eq_ok.1 h
    obtain rfl := Except.ok.inj h
    exact portable_of_values hj hvs
  | obj members =>
    obtain ⟨hs, hmembers⟩ := hj
    rw [value] at h
    split at h
    · rename_i htag
      obtain ⟨ms, hms, h⟩ := Outcome.bind_eq_ok.1 h
      obtain rfl := Except.ok.inj h
      obtain ⟨hportable, hvalid⟩ := portable_of_memberValues hmembers hms
      have hsorted : Members.Sorted ms :=
        Members.sorted_of_keys _ (List.pairwise_map.2 hs)
          (keys_of_readMembers (memberValues_eq members ▸ hms))
      exact ⟨⟨hsorted, tag_of_memberValues hmembers hms htag, hportable⟩, hvalid⟩
    · obtain ⟨className, b, -, hb, rfl⟩ := Outcome.bind₂_eq_ok.1 h
      obtain ⟨hcreated, hupdated, hfields⟩ := (body_eq_ok hs).1 hb
      obtain ⟨hportable, hvalid⟩ := portable_of_fields hmembers hfields
      have hsorted : Members.Sorted b.fields :=
        Members.sorted_of_keys _ (List.pairwise_map.2 (hs.filter _)) (keys_of_readMembers hfields)
      exact ⟨⟨hsorted, hportable⟩, List.forall_mem_append.2
        ⟨List.forall_mem_append.2 ⟨valid_of_time? hcreated, valid_of_time? hupdated⟩, hvalid⟩⟩
    · obtain ⟨hportable, hvalid, -⟩ := portable_of_tagged hmembers h
      exact ⟨hportable, hvalid⟩
termination_by structural j

theorem portable_of_values {items : List Json} (hj : Json.ProperItems items) {vs : List Value}
    (h : values items = .ok vs) :
    Value.PortableItems vs ∧ ∀ t ∈ Value.timesOfItems vs, t.Valid := by
  cases items with
  | nil =>
    obtain rfl := Except.ok.inj h
    exact ⟨trivial, List.forall_mem_nil _⟩
  | cons j rest =>
    rw [values] at h
    obtain ⟨v, vs', hv, hvs', rfl⟩ := Outcome.bind₂_eq_ok.1 h
    obtain ⟨hfirst, hvalid⟩ := portable_of_value hj.1 hv
    obtain ⟨hrest, hvalid'⟩ := portable_of_values hj.2 hvs'
    exact ⟨⟨hfirst, hrest⟩, List.forall_mem_append.2 ⟨hvalid, hvalid'⟩⟩
termination_by structural items

theorem portable_of_memberValues {members : List (String × Json)}
    (hj : Json.ProperMembers members) {ms : List (String × Value)}
    (h : memberValues members = .ok ms) :
    Value.PortableMembers ms ∧ ∀ t ∈ Value.timesOfMembers ms, t.Valid := by
  cases members with
  | nil =>
    obtain rfl := Except.ok.inj h
    exact ⟨trivial, List.forall_mem_nil _⟩
  | cons m rest =>
    rw [memberValues] at h
    obtain ⟨v, ms', hv, hms', rfl⟩ := Outcome.bind₂_eq_ok.1 h
    obtain ⟨hfirst, hvalid⟩ := portable_of_value hj.1 hv
    obtain ⟨hrest, hvalid'⟩ := portable_of_memberValues hj.2 hms'
    exact ⟨⟨hfirst, hrest⟩, List.forall_mem_append.2 ⟨hvalid, hvalid'⟩⟩
termination_by structural members

theorem portable_of_fields {members : List (String × Json)} (hj : Json.ProperMembers members)
    {fs : List (String × Value)}
    (h : fields (members.filter fun m => m.1 ∉ reserved) = .ok fs) :
    Value.PortableFields fs ∧ ∀ t ∈ Value.timesOfMembers fs, t.Valid := by
  cases members with
  | nil =>
    obtain rfl := Except.ok.inj h
    exact ⟨trivial, List.forall_mem_nil _⟩
  | cons m rest =>
    obtain ⟨k, j⟩ := m
    -- the names that fields may not have are filtered out, so no field gets one
    by_cases hk : k ∈ reserved
    · rw [List.filter_cons_of_neg (by simpa using hk)] at h
      exact portable_of_fields hj.2 h
    rw [List.filter_cons_of_pos (by simpa using hk), fields, readMembers, ← fields] at h
    obtain ⟨v, fs', hv, hfs', rfl⟩ := Outcome.bind₂_eq_ok.1 h
    obtain ⟨hrest, hvalid'⟩ := portable_of_fields hj.2 hfs'
    by_cases hacl : k = "ACL"
    · rw [field, if_pos hacl] at hv
      obtain ⟨acl, hread, hv⟩ := Outcome.bind_eq_ok.1 hv
      obtain rfl := Except.ok.inj hv
      exact ⟨hacl ▸ .cons_acl (Acl.granting_of_ofRest hread) hrest, hvalid'⟩
    · rw [field, if_neg hacl] at hv
      obtain ⟨hfirst, hvalid⟩ := portable_of_value hj.1 hv
      exact ⟨.cons ⟨hacl, hk⟩ hfirst hrest, List.forall_mem_append.2 ⟨hvalid, hvalid'⟩⟩
termination_by structural members

end

/-! ### What is accepted is accepted again -/

/-- **What is accepted** is written as its truncation is, and what is written is accepted again, as
that truncation, exactly if all times of the value have years of four digits. -/
theorem accepted_again {j : Json} (hj : j.Proper) {v : Value} (h : Value.ofRest j = .ok v) :
    v.truncated.toRest = v.toRest ∧
      ∀ w, Value.ofRest v.toRest = .ok w ↔ w = v.truncated ∧ ∀ t ∈ v.times, t.Dated := by
  obtain ⟨hportable, hvalid⟩ := portable_of_value hj h
  exact ⟨v.toRest_truncated, okIff_value hportable hvalid⟩

/-- A document that is accepted but not written so: with a time given as an object and at an
offset, a tag that is no text, an integer that is too large, and a subject without grants. -/
def loose : List (String × Json) :=
  [("ACL", .obj [("*", .obj [("read", .bool true)]), ("ann", .obj [])]), ("__type", .str "Object"),
    ("big", .int 9223372036854775808), ("className", .str "Post"),
    ("createdAt", .obj [("iso", .str "2024-03-01t14:30:00.1234567+02:00")]),
    ("tagged", .obj [("__type", .int 5)])]

/-- What is read of it. -/
def looseDocument : Document := ⟨"Post", "", some ⟨1709296200, 123456700⟩, none,
  [("ACL", .acl ⟨[("*", ⟨true, false⟩)]⟩), ("big", .float (Double.ofInt 9223372036854775808)),
    ("tagged", .object [("__type", .int 5)])]⟩

theorem ofRest_loose : Value.ofRest (.obj loose) = .ok (.included looseDocument) := by
  have htime : instant "2024-03-01t14:30:00.1234567+02:00" = .ok ⟨1709296200, 123456700⟩ :=
    instant_eq_ok.2 (by decide)
  have hbody : body loose = .ok ⟨looseDocument.createdAt, none, looseDocument.fields⟩ :=
    (body_eq_ok (by decide)).2 ⟨congrArg (Except.map some) htime, rfl, rfl⟩
  change (stringMember loose "Object" "className" >>= fun className => body loose >>= fun b =>
    pure (Value.included (b.document className loose))) = _
  rw [hbody]
  rfl

theorem accepted_again_loose :
    ((Json.obj loose).Proper ∧ Value.ofRest (.obj loose) = .ok (.included looseDocument)) ∧
      (Value.included looseDocument).truncated.toRest = (Value.included looseDocument).toRest ∧
      Value.ofRest (Value.included looseDocument).toRest =
        .ok (Value.included looseDocument).truncated := by
  have hproper : (Json.obj loose).Proper := by
    simp only [loose, Json.Proper, Json.ProperMembers]
    decide
  obtain ⟨hwritten, hagain⟩ := accepted_again hproper ofRest_loose
  exact ⟨⟨hproper, ofRest_loose⟩, hwritten, (hagain _).2 ⟨rfl, by decide⟩⟩

/-- The last second of the year 9999, an hour west of Greenwich. -/
def newYear : Json :=
  .obj [("__type", .str "Date"), ("iso", .str "9999-12-31T23:59:59-01:00")]

/-- **Not all that is accepted** is accepted again: an offset leads beyond the year 9999. -/
theorem not_accepted_newYear :
    newYear.Proper ∧ Value.ofRest newYear = .ok (.date ⟨253402304399, 0⟩) ∧
      ∀ w, Value.ofRest (Value.date ⟨253402304399, 0⟩).toRest ≠ .ok w := by
  have hproper : newYear.Proper := by
    simp only [newYear, Json.Proper, Json.ProperMembers]
    decide
  refine ⟨hproper, rfl, fun w hw => ?_⟩
  have hdated := ((okIff_value (v := .date ⟨253402304399, 0⟩) trivial (by decide) w).1 hw).2
  exact absurd hdated (by decide)

end Rest

end ObjectEngine
