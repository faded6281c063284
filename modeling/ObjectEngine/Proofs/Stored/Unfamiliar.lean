import ObjectEngine.Proofs.Rest.Acceptance
import ObjectEngine.Proofs.Stored.Values

/-!
# Unfamiliar data that is read and stored again

`Stored.decodeFree` reads more than `Stored.encodeFree` ever writes: tagged records with further
members, whole numbers as coordinates, tags it does not know, values of kinds without a constructor.
What it makes of them is stored again, and read as the same value, with one exception. A record
whose tag is unknown, or is no text, is read as a plain object that keeps the tag as a member, and
no object with such a member may be stored. `Datum.Recognized` says that there is no such record
among those that are read as plain objects, and `Stored.survives_iff_recognized` that a value that
is read can be stored again, and is read as the same value, exactly then.
-/

namespace ObjectEngine

/-! ### Keys and tags -/

namespace Datum

/-- A key that a record of the store may have. -/
def PlainKey (key : String) : Prop := key.toList.head? ≠ some '$' ∧ '.' ∉ key.toList

mutual

/-- **Plain keys**: no record in a stored value has a key that starts with a dollar sign or
contains a full stop. -/
def PlainKeys : Datum → Prop
  | .array items => PlainKeysItems items
  | .record members => PlainKeysMembers members
  | _ => True

/-- All items have plain keys. -/
def PlainKeysItems : List Datum → Prop
  | [] => True
  | d :: rest => d.PlainKeys ∧ PlainKeysItems rest

/-- The keys of the members and those in their values are plain. -/
def PlainKeysMembers : List (String × Datum) → Prop
  | [] => True
  | (k, d) :: rest => PlainKey k ∧ d.PlainKeys ∧ PlainKeysMembers rest

end

/-- The tags of values that have a constructor of their own. -/
def tags : List String := ["Pointer", "Relation", "GeoPoint", "Polygon", "File", "ACL"]

mutual

/-- **No unfamiliar tags**: no record that is read as a plain object has a member for a tag. One
with a tag of `tags` is not read so, whatever else is in it. -/
def Recognized : Datum → Prop
  | .array items => RecognizedItems items
  | .record members =>
    (∃ tag ∈ tags, members.lookup "__type" = some (.string tag)) ∨ RecognizedMembers members
  | _ => True

/-- No item has unfamiliar tags. -/
def RecognizedItems : List Datum → Prop
  | [] => True
  | d :: rest => d.Recognized ∧ RecognizedItems rest

/-- No member is a tag, and none has unfamiliar tags. -/
def RecognizedMembers : List (String × Datum) → Prop
  | [] => True
  | (k, d) :: rest => k ≠ "__type" ∧ d.Recognized ∧ RecognizedMembers rest

end

end Datum

namespace Stored

/-! ### Access control lists -/

/-- What is read as an access control list is a list of grants, whatever the record. -/
theorem granting_decodeAcl (record : Record) : (decodeAcl record).Granting := by
  refine List.foldlRecOn (motive := Acl.Granting) record _ Acl.granting_empty fun acl hacl m _ => ?_
  obtain ⟨subject, d⟩ := m
  cases d with
  | record grant => exact hacl.grant _ _ _
  | _ => exact hacl

/-- Nothing is left out of a list of grants. -/
theorem granting_eq {acl : Acl} (h : acl.Granting) : acl.granting = acl := by
  rw [Acl.granting, List.filter_eq_self.2 fun e he => h.grants e he]

/-! ### Tagged records -/

/-- A value that can be stored, and is read as the same value. -/
def Survives (v : Value) : Prop := ∃ d, encodeFree v = .ok d ∧ decodeFree d = .ok v

theorem Survives.of_encodeFree {v : Value} {d : Datum} (hv : v.Ordered) (hdetached : v.detached = v)
    (h : encodeFree v = .ok d) : Survives v :=
  ⟨d, h, (decodeFree_encodeFree hv h).trans (congrArg Except.ok hdetached)⟩

/-- **A tagged record** is read by its tag if that is one of the known ones, and the value that it
gives survives. -/
theorem decodeTagged_eq_ok {tag : String} {members : List (String × Datum)} {value? : Option Value}
    (h : decodeTagged tag members = .ok value?) :
    (∃ v, value? = some v ∧ tag ∈ Datum.tags ∧ Survives v) ∨ value? = none ∧ tag ∉ Datum.tags := by
  unfold decodeTagged at h
  split at h
  · obtain ⟨className, -, h⟩ := Outcome.bind_eq_ok.1 h
    obtain ⟨objectId, -, h⟩ := Outcome.bind_eq_ok.1 h
    obtain rfl := Except.ok.inj h
    exact .inl ⟨_, rfl, by decide, .of_encodeFree trivial rfl rfl⟩
  · obtain ⟨className, -, h⟩ := Outcome.bind_eq_ok.1 h
    obtain rfl := Except.ok.inj h
    exact .inl ⟨_, rfl, by decide, .of_encodeFree trivial rfl rfl⟩
  · obtain ⟨latitude, -, h⟩ := Outcome.bind_eq_ok.1 h
    obtain ⟨longitude, -, h⟩ := Outcome.bind_eq_ok.1 h
    obtain rfl := Except.ok.inj h
    exact .inl ⟨_, rfl, by decide, .of_encodeFree trivial rfl rfl⟩
  · split at h
    · split at h
      · obtain rfl := Except.ok.inj h
        exact .inl ⟨_, rfl, by decide, .of_encodeFree trivial rfl rfl⟩
      · exact absurd h (by simp)
    · exact absurd h (by simp)
  · obtain ⟨name, -, h⟩ := Outcome.bind_eq_ok.1 h
    obtain rfl := Except.ok.inj h
    exact .inl ⟨_, rfl, by decide, .of_encodeFree trivial rfl rfl⟩
  · split at h
    · rename_i entries _
      obtain rfl := Except.ok.inj h
      have hacl := granting_decodeAcl entries
      refine .inl ⟨_, rfl, by decide, .of_encodeFree ?_ ?_ rfl⟩
      · exact hacl.sorted
      · exact congrArg Value.acl (granting_eq hacl)
    · exact absurd h (by simp)
  · obtain rfl := Except.ok.inj h
    exact .inr ⟨rfl, by simp_all [Datum.tags]⟩

/-- A key that no tag has, and is plain, may be that of an object. -/
theorem isObjectKey_eq_of_plainKey {key : String} (h : Datum.PlainKey key) :
    isObjectKey key = decide (key ≠ "__type") := by
  simp [isObjectKey, h.1, h.2]

/-! ### Any stored value -/

/-- The refusal of a member for a tag. -/
def tagRefused : EngineError := .invalidKeyName "__type"

mutual

/-- **What is read** survives, unless a plain object has a member for a tag. -/
theorem survives_or {n : Datum} {v : Value} (hkeys : n.PlainKeys) (h : decodeFree n = .ok v) :
    n.Recognized ∧ Survives v ∨ ¬n.Recognized ∧ encodeFree v = .error tagRefused := by
  cases n with
  | array items =>
    rw [Datum.PlainKeys] at hkeys
    rw [Datum.Recognized]
    obtain ⟨vs, hvs, h⟩ := Outcome.bind_eq_ok.1 h
    obtain rfl := Except.ok.inj h
    refine (itemsSurvive_or hkeys hvs).imp (And.imp_right ?_) (And.imp_right fun hrefused => ?_)
    · rintro ⟨ds, hds, hback⟩
      refine ⟨.array ds, ?_, ?_⟩
      · rw [encodeFree, hds]
        rfl
      · rw [decodeFree, hback]
        rfl
    · rw [encodeFree, hrefused]
      rfl
  | record members =>
    rw [Datum.PlainKeys] at hkeys
    rw [Datum.Recognized]
    -- a record is read by a known tag, or else member by member
    have hplain {ms : List (String × Value)} (hms : decodeMembers members = .ok ms)
        (htag : ¬∃ tag ∈ Datum.tags, members.lookup "__type" = some (.string tag)) :
        ((∃ tag ∈ Datum.tags, members.lookup "__type" = some (.string tag)) ∨
          Datum.RecognizedMembers members) ∧ Survives (.object ms) ∨
        ¬((∃ tag ∈ Datum.tags, members.lookup "__type" = some (.string tag)) ∨
          Datum.RecognizedMembers members) ∧ encodeFree (.object ms) = .error tagRefused := by
      rw [or_iff_right htag]
      refine (membersSurvive_or hkeys hms).imp (And.imp_right ?_) (And.imp_right fun hrefused => ?_)
      · rintro ⟨ds, hds, hback⟩
        refine ⟨.record ds, ?_, ?_⟩
        · rw [encodeFree, hds]
          rfl
        · rw [decodeFree, lookup_type_of_encodeMembers hds, Option.bind_none, hback]
          rfl
      · rw [encodeFree, hrefused]
        rfl
    rw [decodeFree] at h
    cases htag : (members.lookup "__type").bind Datum.asString? with
    | none =>
      rw [htag] at h
      obtain ⟨ms, hms, h⟩ := Outcome.bind_eq_ok.1 h
      obtain rfl := Except.ok.inj h
      refine hplain hms ?_
      rintro ⟨tag, -, hlookup⟩
      rw [hlookup] at htag
      exact absurd htag (by simp [Datum.asString?])
    | some tag =>
      rw [htag] at h
      have hlookup : members.lookup "__type" = some (.string tag) := by
        obtain ⟨d, hd, htext⟩ := Option.bind_eq_some_iff.1 htag
        cases d with
        | string s => rw [hd, Option.some.inj htext]
        | _ => exact absurd htext (by simp [Datum.asString?])
      obtain ⟨value?, hvalue, h⟩ := Outcome.bind_eq_ok.1 h
      obtain ⟨v', rfl, hmem, hsurvives⟩ | ⟨rfl, hmem⟩ := decodeTagged_eq_ok hvalue
      · obtain rfl := Except.ok.inj h
        exact .inl ⟨.inl ⟨tag, hmem, hlookup⟩, hsurvives⟩
      · obtain ⟨ms, hms, h⟩ := Outcome.bind_eq_ok.1 h
        obtain rfl := Except.ok.inj h
        refine hplain hms ?_
        rintro ⟨tag', hmem', hlookup'⟩
        obtain rfl := Datum.string.inj (Option.some.inj (hlookup.symm.trans hlookup'))
        exact hmem hmem'
  | binary bytes =>
    obtain rfl := Except.ok.inj h
    refine .inl ⟨trivial, .binary bytes, ?_, rfl⟩
    rw [encodeFree, bytesOfBase64, Base64.decode?_encode]
    rfl
  | _ =>
    obtain rfl := Except.ok.inj h
    exact .inl ⟨trivial, _, rfl, rfl⟩

/-- So do the items of an array. -/
theorem itemsSurvive_or {items : List Datum} {vs : List Value}
    (hkeys : Datum.PlainKeysItems items) (h : decodeItems items = .ok vs) :
    Datum.RecognizedItems items ∧ (∃ ds, encodeItems vs = .ok ds ∧ decodeItems ds = .ok vs) ∨
      ¬Datum.RecognizedItems items ∧ encodeItems vs = .error tagRefused := by
  cases items with
  | nil =>
    obtain rfl := Except.ok.inj h
    exact .inl ⟨trivial, [], rfl, rfl⟩
  | cons n rest =>
    rw [Datum.PlainKeysItems] at hkeys
    rw [Datum.RecognizedItems]
    obtain ⟨v, vs', hv, hvs, rfl⟩ := Outcome.bind₂_eq_ok.1 h
    rw [encodeItems]
    obtain ⟨hrecognized, d, hd, hback⟩ | ⟨hnot, hrefused⟩ := survives_or hkeys.1 hv
    · obtain ⟨hrest, ds, hds, hback'⟩ | ⟨hnot, hrefused⟩ := itemsSurvive_or hkeys.2 hvs
      · refine .inl ⟨⟨hrecognized, hrest⟩, d :: ds, ?_, ?_⟩
        · rw [hd, hds]
          rfl
        · rw [decodeItems, hback, hback']
          rfl
      · refine .inr ⟨fun hall => hnot hall.2, ?_⟩
        rw [hd, hrefused]
        rfl
    · refine .inr ⟨fun hall => hnot hall.1, ?_⟩
      rw [hrefused]
      rfl

/-- So do the members of a plain object. -/
theorem membersSurvive_or {members : List (String × Datum)} {ms : List (String × Value)}
    (hkeys : Datum.PlainKeysMembers members) (h : decodeMembers members = .ok ms) :
    Datum.RecognizedMembers members ∧
        (∃ ds, encodeMembers ms = .ok ds ∧ decodeMembers ds = .ok ms) ∨
      ¬Datum.RecognizedMembers members ∧ encodeMembers ms = .error tagRefused := by
  cases members with
  | nil =>
    obtain rfl := Except.ok.inj h
    exact .inl ⟨trivial, [], rfl, rfl⟩
  | cons m rest =>
    obtain ⟨key, n⟩ := m
    rw [Datum.PlainKeysMembers] at hkeys
    obtain ⟨hkey, hn, hrest⟩ := hkeys
    rw [Datum.RecognizedMembers]
    obtain ⟨v, ms', hv, hms, rfl⟩ := Outcome.bind₂_eq_ok.1 h
    rw [encodeMembers, isObjectKey_eq_of_plainKey hkey]
    by_cases htype : key = "__type"
    · subst htype
      exact .inr ⟨fun hall => hall.1 rfl, rfl⟩
    simp only [htype, ne_eq, not_false_eq_true, decide_true, Bool.not_true, Bool.false_eq_true,
      if_false, true_and]
    obtain ⟨hrecognized, d, hd, hback⟩ | ⟨hnot, hrefused⟩ := survives_or hn hv
    · obtain ⟨hmembers, ds, hds, hback'⟩ | ⟨hnot, hrefused⟩ := membersSurvive_or hrest hms
      · refine .inl ⟨⟨hrecognized, hmembers⟩, (key, d) :: ds, ?_, ?_⟩
        · rw [hd, hds]
          rfl
        · rw [decodeMembers, hback, hback']
          rfl
      · refine .inr ⟨fun hall => hnot hall.2, ?_⟩
        rw [hd, hrefused]
        rfl
    · refine .inr ⟨fun hall => hnot hall.1, ?_⟩
      rw [hrefused]
      rfl

end

/-- **Unfamiliar data survives** reading and storing, at any depth: a stored value whose keys are
plain, if it is read, can be stored again and is then read as the same value, exactly if no record
in it that is read as a plain object has a member for a tag. Otherwise that member is refused. -/
theorem survives_iff_recognized {n : Datum} {v : Value} (hkeys : n.PlainKeys)
    (h : decodeFree n = .ok v) :
    (n.Recognized ↔ ∃ d, encodeFree v = .ok d ∧ decodeFree d = .ok v) ∧
      (¬n.Recognized ↔ encodeFree v = .error (.invalidKeyName "__type")) := by
  obtain ⟨hrecognized, d, hd, hback⟩ | ⟨hnot, hrefused⟩ := survives_or hkeys h
  · refine ⟨iff_of_true hrecognized ⟨d, hd, hback⟩, iff_of_false (fun hnot => hnot hrecognized) ?_⟩
    simp [hd]
  · refine ⟨iff_of_false hnot ?_, iff_of_true hnot hrefused⟩
    rintro ⟨d, hd, -⟩
    exact absurd (hrefused.symm.trans hd) (by simp)

/-- A number of an unknown kind, a point with whole coordinates and a further member, and a list
with entries that grant nothing. -/
def unfamiliar : Datum :=
  .array [
    .record [("amount", .extended "decimal128" [1, 2, 3]),
      ("at", .record [("__type", .string "GeoPoint"), ("latitude", .int 1), ("longitude", .int 2),
        ("unit", .string "degree")])],
    .record [("__type", .string "ACL"),
      ("entries", .record [("Ann", .record [("r", .bool true), ("x", .null)]), ("Bob", .int 3)])]]

theorem survives_iff_recognized_unfamiliar : unfamiliar.PlainKeys ∧ unfamiliar.Recognized ∧
    ∃ v, decodeFree unfamiliar = .ok v ∧ ∃ d, encodeFree v = .ok d ∧ decodeFree d = .ok v := by
  have hkeys : unfamiliar.PlainKeys := by
    simp [unfamiliar, Datum.PlainKeys, Datum.PlainKeysItems, Datum.PlainKeysMembers,
      Datum.PlainKey]
  have hpoint : (Datum.record [("__type", .string "GeoPoint"), ("latitude", .int 1),
      ("longitude", .int 2), ("unit", .string "degree")]).Recognized :=
    .inl ⟨"GeoPoint", by decide, rfl⟩
  have hrecognized : unfamiliar.Recognized :=
    ⟨.inr ⟨by decide, trivial, by decide, hpoint, trivial⟩, .inl ⟨"ACL", by decide, rfl⟩, trivial⟩
  obtain ⟨v, hv⟩ : ∃ v, decodeFree unfamiliar = .ok v := ⟨_, rfl⟩
  exact ⟨hkeys, hrecognized, v, hv, (survives_iff_recognized hkeys hv).1.1 hrecognized⟩

/-- **A tag that is not known** is read as a member of a plain object, and then refused. -/
theorem not_survives_unknownTag : ¬∀ (n : Datum) (v : Value), n.PlainKeys → decodeFree n = .ok v →
    ∃ d, encodeFree v = .ok d ∧ decodeFree d = .ok v := by
  intro hall
  have hkeys : (Datum.record [("__type", .string "Vector")]).PlainKeys := by
    simp only [Datum.PlainKeys, Datum.PlainKeysMembers, Datum.PlainKey]
    decide
  obtain ⟨d, hd, -⟩ := hall _ (.object [("__type", .string "Vector")]) hkeys rfl
  exact nomatch hd

end Stored

end ObjectEngine
