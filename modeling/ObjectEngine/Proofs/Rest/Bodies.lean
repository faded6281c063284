import ObjectEngine.Proofs.Outcome
import ObjectEngine.Proofs.Rest.Portable

/-!
# The members of a document's JSON object

The members of a document are read from the first to the last, times and fields and what is
passed over among each other. What comes of them does not depend on that:
`Rest.body_eq_ok` says by which names the times are read and which members become fields.

So a document is told by every list of members that reads like the one it is written as, with a
type tag or without one (`Document.Tells`), and it is read back from it if its fields are, and if
its times have years of four digits (`Document.Tells.okIff_body`).
-/

namespace ObjectEngine

/-! ### Outcomes under a condition -/

namespace Outcome

variable {α β : Type} {x : Outcome α} {P Q : Prop} {a : α}

/-- **An outcome under a condition**: it is `a` if `P` holds, and otherwise an error. -/
def OkIff (x : Outcome α) (P : Prop) (a : α) : Prop := ∀ b, x = .ok b ↔ b = a ∧ P

theorem okIff_of_eq (h : x = .ok a) (hP : P) : x.OkIff P a := by
  intro b
  rw [h, Except.ok.injEq, eq_comm]
  exact (and_iff_left hP).symm

theorem OkIff.congr (h : x.OkIff P a) (hPQ : P ↔ Q) : x.OkIff Q a := fun b =>
  (h b).trans (and_congr_right fun _ => hPQ)

/-- Work in sequence has the conditions of its parts. -/
theorem OkIff.bind {f : α → Outcome β} {b : β} (hx : x.OkIff P a) (hf : (f a).OkIff Q b) :
    (x >>= f).OkIff (P ∧ Q) b := by
  intro c
  rw [bind_eq_ok]
  constructor
  · rintro ⟨v, hv, hc⟩
    obtain ⟨rfl, hP⟩ := (hx v).1 hv
    obtain ⟨rfl, hQ⟩ := (hf c).1 hc
    exact ⟨rfl, hP, hQ⟩
  · rintro ⟨rfl, hP, hQ⟩
    exact ⟨a, (hx a).2 ⟨rfl, hP⟩, (hf c).2 ⟨rfl, hQ⟩⟩

theorem OkIff.map (hx : x.OkIff P a) (f : α → β) : (x >>= fun v => pure (f v)).OkIff P (f a) := by
  have hpure : (pure (f a) : Outcome β).OkIff True (f a) := okIff_of_eq rfl trivial
  exact (hx.bind (f := fun v => pure (f v)) hpure).congr (and_iff_left trivial)

end Outcome

/-! ### Reading the members of a document -/

namespace Rest

/-- What is read of a field: under `ACL` it is an access control list. -/
def field (key : String) (json : Json) : Outcome Value :=
  if key = "ACL" then (do return .acl (← Acl.ofRest json)) else value json

/-- What is read of members, each in the way of its key. -/
def readMembers (read : String → Json → Outcome Value) :
    List (String × Json) → Outcome (List (String × Value))
  | [] => .ok []
  | (k, j) :: rest => do
    let v ← read k j
    return (k, v) :: (← readMembers read rest)

/-- What is read of the fields of a document. -/
def fields : List (String × Json) → Outcome (List (String × Value)) := readMembers field

/-- The members of a plain object are all read in one way. -/
theorem memberValues_eq (members : List (String × Json)) :
    memberValues members = readMembers (fun _ => value) members := by
  induction members with
  | nil => rfl
  | cons m rest ih => rw [memberValues, readMembers, ih]

/-- Members that are read keep their keys. -/
theorem keys_of_readMembers {read : String → Json → Outcome Value}
    {members : List (String × Json)} {ms : List (String × Value)}
    (h : readMembers read members = .ok ms) : Members.keys ms = Members.keys members := by
  induction members generalizing ms with
  | nil =>
    obtain rfl := Except.ok.inj h
    rfl
  | cons m rest ih =>
    rw [readMembers] at h
    obtain ⟨v, ms', -, hms', rfl⟩ := Outcome.bind₂_eq_ok.1 h
    exact congrArg (m.1 :: ·) (ih hms')

/-- What is read of a time beside the fields, if there is one. -/
def time? (key : String) (members : List (String × Json)) : Outcome (Option Instant) :=
  match members.lookup key with
  | none => .ok none
  | some j => (time j).map some

theorem time?_cons_self {key : String} {j : Json} {rest : List (String × Json)} :
    time? key ((key, j) :: rest) = (time j).map some := by
  rw [time?, Members.lookup_cons, if_pos rfl]

theorem time?_cons_ne {key k : String} {j : Json} {rest : List (String × Json)} (h : key ≠ k) :
    time? key ((k, j) :: rest) = time? key rest := by
  rw [time?, Members.lookup_cons, if_neg h, ← time?]

theorem time?_eq_none {key : String} {rest : List (String × Json)} (h : ∀ m ∈ rest, key < m.1) :
    time? key rest = .ok none := by
  have hnone : rest.lookup key = none :=
    Members.lookup_eq_none fun m hm he => String.lt_irrefl _ (he ▸ h m hm)
  rw [time?, hnone]

/-- A member of no other name is a field. -/
theorem body_cons {k : String} {j : Json} {rest : List (String × Json)} (hk : k ∉ reserved) :
    body ((k, j) :: rest) = (do
      let v ← field k j
      let b ← body rest
      return { b with fields := (k, v) :: b.fields }) := by
  simp only [reserved, List.mem_cons, List.not_mem_nil, or_false, not_or] at hk
  obtain ⟨hid, hclass, htype, hcreated, hupdated⟩ := hk
  rw [body, if_neg (by simp [hid, hclass, htype]), if_neg hcreated, if_neg hupdated, field]
  split <;> rfl

/-- **What is read of the members of a document**: its times by their names, and a field of
each member that has none of the other names. -/
theorem body_eq_ok {members : List (String × Json)} (hs : Members.Sorted members) {b : Body} :
    body members = .ok b ↔
      time? "createdAt" members = .ok b.createdAt ∧ time? "updatedAt" members = .ok b.updatedAt ∧
        fields (members.filter fun m => m.1 ∉ reserved) = .ok b.fields := by
  induction members generalizing b with
  | nil =>
    obtain ⟨createdAt, updatedAt, fs⟩ := b
    simp [body, time?, fields, readMembers, eq_comm]
  | cons m rest ih =>
    obtain ⟨k, j⟩ := m
    obtain ⟨hfirst, hrest⟩ := List.pairwise_cons.1 hs
    by_cases hk : k ∉ reserved
    · have hcreated : "createdAt" ≠ k := fun he => hk (he ▸ by decide)
      have hupdated : "updatedAt" ≠ k := fun he => hk (he ▸ by decide)
      rw [body_cons hk, time?_cons_ne hcreated, time?_cons_ne hupdated,
        List.filter_cons_of_pos (by simpa using hk), fields, readMembers, ← fields,
        Outcome.bind₂_eq_ok, Outcome.bind₂_eq_ok]
      constructor
      · rintro ⟨v, b', hv, hb', rfl⟩
        obtain ⟨hcreated, hupdated, hfields⟩ := (ih hrest).1 hb'
        exact ⟨hcreated, hupdated, v, _, hv, hfields, rfl⟩
      · rintro ⟨hcreated, hupdated, v, fs, hv, hfields, hb⟩
        refine ⟨v, { b with fields := fs }, hv, (ih hrest).2 ⟨hcreated, hupdated, hfields⟩, ?_⟩
        rw [hb]
    -- the other names: three are passed over, and of each time there is no second one
    rw [not_not] at hk
    rw [List.filter_cons_of_neg (by simpa using hk)]
    have hskip (hcreated : "createdAt" ≠ k) (hupdated : "updatedAt" ≠ k)
        (hbody : body ((k, j) :: rest) = body rest) : body ((k, j) :: rest) = .ok b ↔
          time? "createdAt" ((k, j) :: rest) = .ok b.createdAt ∧
            time? "updatedAt" ((k, j) :: rest) = .ok b.updatedAt ∧
              fields (rest.filter fun m => m.1 ∉ reserved) = .ok b.fields := by
      rw [hbody, ih hrest, time?_cons_ne hcreated, time?_cons_ne hupdated]
    simp only [reserved, List.mem_cons, List.not_mem_nil, or_false] at hk
    rcases hk with rfl | rfl | rfl | rfl | rfl
    · exact hskip (by decide) (by decide) rfl
    · exact hskip (by decide) (by decide) rfl
    · exact hskip (by decide) (by decide) rfl
    · have hnone : time? "createdAt" rest = .ok none := time?_eq_none hfirst
      rw [time?_cons_self, time?_cons_ne (by decide), Outcome.map_eq_ok]
      refine Outcome.bind₂_eq_ok.trans ⟨?_, ?_⟩
      · rintro ⟨t, b', ht, hb', rfl⟩
        exact ⟨⟨t, ht, rfl⟩, ((ih hrest).1 hb').2⟩
      · rintro ⟨⟨t, ht, hcreated⟩, h⟩
        refine ⟨t, { b with createdAt := none }, ht, (ih hrest).2 ⟨hnone, h⟩, ?_⟩
        rw [hcreated]
    · have hnone : time? "updatedAt" rest = .ok none := time?_eq_none hfirst
      rw [time?_cons_self, time?_cons_ne (by decide), Outcome.map_eq_ok]
      refine Outcome.bind₂_eq_ok.trans ⟨?_, ?_⟩
      · rintro ⟨t, b', ht, hb', rfl⟩
        obtain ⟨hcreated, -, hfields⟩ := (ih hrest).1 hb'
        exact ⟨hcreated, ⟨t, ht, rfl⟩, hfields⟩
      · rintro ⟨hcreated, ⟨t, ht, hupdated⟩, hfields⟩
        refine ⟨t, { b with updatedAt := none }, ht, (ih hrest).2 ⟨hcreated, hnone, hfields⟩, ?_⟩
        rw [hupdated]

/-! ### Reading what is written -/

theorem instant_eq_ok {s : String} {t : Instant} :
    instant s = .ok t ↔ Instant.parse? s = some t := by
  rw [instant]
  cases Instant.parse? s <;> simp

/-- **A time is read back** in whole milliseconds if its year has four digits, and otherwise not
at all. -/
theorem okIff_instant {t : Instant} (h : t.Valid) :
    (instant t.iso).OkIff t.Dated t.truncated := by
  intro u
  rw [instant_eq_ok]
  by_cases hdated : t.Dated
  · rw [Instant.parse?_iso h hdated, Option.some.injEq, eq_comm]
    exact (and_iff_left hdated).symm
  · rw [Instant.parse?_iso_eq_none hdated]
    exact ⟨fun h => absurd h (by simp), fun h => absurd h.2 hdated⟩

/-- A time that may be missing is read back likewise. -/
theorem okIff_time? {key : String} {members : List (String × Json)} {t : Option Instant}
    (hmember : members.lookup key = t.map fun t => .str t.iso) (h : ∀ s ∈ t.toList, s.Valid) :
    (time? key members).OkIff (∀ s ∈ t.toList, s.Dated) (t.map Instant.truncated) := by
  rw [time?, hmember]
  cases t with
  | none => exact Outcome.okIff_of_eq rfl (List.forall_mem_nil _)
  | some t =>
    have hread := (okIff_instant (h t (by simp))).congr
      (show t.Dated ↔ ∀ s ∈ (some t).toList, s.Dated by simp)
    intro u
    simp only [Option.map_some, time, Outcome.map_eq_ok, hread _]
    constructor
    · rintro ⟨s, ⟨rfl, hdated⟩, rfl⟩
      exact ⟨rfl, hdated⟩
    · rintro ⟨rfl, hdated⟩
      exact ⟨t.truncated, ⟨rfl, hdated⟩, rfl⟩

end Rest

/-! ### Documents -/

namespace Document

variable {d : Document}

/-- The members of a document's JSON object. -/
def restMembers (d : Document) : List (String × Json) :=
  Members.insertAll (Members.ofList (restHeader d)) (Value.toRestMembers d.fields)

/-- The members beside the fields, a missing time left out. -/
theorem restHeader_eq : restHeader d =
    [("className", .str d.className), ("objectId", .str d.objectId)] ++
      (d.createdAt.map fun t => ("createdAt", .str t.iso)).toList ++
      (d.updatedAt.map fun t => ("updatedAt", .str t.iso)).toList := by
  rw [restHeader]
  cases d.createdAt <;> cases d.updatedAt <;> rfl

/-- The members beside the fields have the names that fields have not. -/
theorem mem_reserved_of_mem_restHeader {m : String × Json} (h : m ∈ restHeader d) :
    m.1 ∈ Rest.reserved := by
  simp only [restHeader_eq, List.mem_append, List.mem_cons, List.not_mem_nil, or_false,
    Option.mem_toList, Option.map_eq_some_iff] at h
  rcases h with ((rfl | rfl) | ⟨t, -, rfl⟩) | ⟨t, -, rfl⟩ <;> simp [Rest.reserved]

/-- No field has the name of another member. -/
theorem not_mem_reserved_of_mem {fields : List (String × Value)} (h : Value.PortableFields fields)
    {m : String × Value} (hm : m ∈ fields) : m.1 ∉ Rest.reserved := by
  induction fields with
  | nil => exact absurd hm List.not_mem_nil
  | cons first rest ih =>
    obtain ⟨hfirst, hrest⟩ := h
    rcases List.mem_cons.1 hm with rfl | hm
    · split at hfirst
      · rename_i hacl
        rw [hacl]
        decide
      · exact hfirst.1
    · exact ih hrest hm

/-- No field is found by the name of another member. -/
theorem lookup_fields_eq_none (h : d.Portable) {k : String} (hk : k ∈ Rest.reserved) :
    d.fields.lookup k = none :=
  Members.lookup_eq_none fun _ hm he => not_mem_reserved_of_mem h.2 hm (he ▸ hk)

theorem sorted_toRestMembers (h : d.Portable) : Members.Sorted (Value.toRestMembers d.fields) := by
  rw [Value.toRestMembers_eq]
  exact Members.sorted_mapValues h.1 _

/-- **What is read from the members**: a field, or another member by its name. -/
theorem lookup_restMembers (h : d.Portable) (k : String) : d.restMembers.lookup k =
    if k ∈ Rest.reserved then (restHeader d).reverse.lookup k
      else (d.fields.lookup k).map Value.toRest := by
  rw [restMembers, Members.lookup_insertAll, (sorted_toRestMembers h).lookup_reverse,
    Members.lookup_ofList, Value.toRestMembers_eq, Members.lookup_mapValues]
  split
  · rename_i hk
    rw [lookup_fields_eq_none h hk]
    rfl
  · rename_i hk
    have hnone : (restHeader d).reverse.lookup k = none := Members.lookup_eq_none fun m hm he =>
      hk (he ▸ mem_reserved_of_mem_restHeader (List.mem_reverse.1 hm))
    rw [hnone, Option.or_none]

/-- What stands beside the fields is read from them. -/
theorem lookup_restHeader :
    (restHeader d).reverse.lookup "className" = some (.str d.className) ∧
      (restHeader d).reverse.lookup "objectId" = some (.str d.objectId) ∧
      (restHeader d).reverse.lookup "createdAt" = d.createdAt.map (fun t => .str t.iso) ∧
      (restHeader d).reverse.lookup "updatedAt" = d.updatedAt.map (fun t => .str t.iso) := by
  rw [restHeader_eq]
  cases d.createdAt <;> cases d.updatedAt <;> exact ⟨rfl, rfl, rfl, rfl⟩

/-- **Members that tell a document**: they are in order, and but for the type tag they are the
document's own. -/
structure Tells (d : Document) (members : List (String × Json)) : Prop where
  sorted : Members.Sorted members
  lookup : ∀ k, k ≠ "__type" → members.lookup k = d.restMembers.lookup k

variable {members : List (String × Json)}

theorem tells_restMembers (d : Document) : Tells d d.restMembers :=
  ⟨Members.sorted_insertAll (Members.sorted_ofList _) _, fun _ _ => rfl⟩

theorem tells_insert_type (d : Document) (tag : Json) :
    Tells d (Members.insert "__type" tag d.restMembers) where
  sorted := Members.sorted_insert (tells_restMembers d).sorted _ _
  lookup k hk := by rw [Members.lookup_insert, if_neg hk]

namespace Tells

theorem lookup_reserved (ht : Tells d members) (h : d.Portable) {k : String}
    (hk : k ∈ Rest.reserved) (htype : k ≠ "__type") :
    members.lookup k = (restHeader d).reverse.lookup k := by
  rw [ht.lookup k htype, lookup_restMembers h, if_pos hk]

/-- The members that are no others are the fields. -/
theorem filter_eq (ht : Tells d members) (h : d.Portable) :
    (members.filter fun m => m.1 ∉ Rest.reserved) = Value.toRestMembers d.fields := by
  refine Members.Sorted.ext (List.Pairwise.filter _ ht.sorted) (sorted_toRestMembers h) fun k => ?_
  rw [Members.lookup_filter_key (fun k => k ∉ Rest.reserved), Value.toRestMembers_eq,
    Members.lookup_mapValues]
  by_cases hk : k ∈ Rest.reserved
  · rw [if_neg (by simpa using hk), lookup_fields_eq_none h hk]
    rfl
  · have htype : k ≠ "__type" := fun he => hk (he ▸ by decide)
    rw [if_pos (by simpa using hk), ht.lookup k htype, lookup_restMembers h, if_neg hk]

theorem objectId_eq (ht : Tells d members) (h : d.Portable) :
    Rest.objectId members = d.objectId := by
  rw [Rest.objectId, ht.lookup_reserved h (by decide) (by decide), lookup_restHeader.2.1]
  rfl

theorem className_eq (ht : Tells d members) (h : d.Portable) :
    Rest.stringMember members "Object" "className" = .ok d.className := by
  rw [Rest.stringMember, ht.lookup_reserved h (by decide) (by decide), lookup_restHeader.1]
  rfl

/-- **A document is read back** from members that tell it if its fields are, and if its times have
years of four digits. -/
theorem okIff_body (ht : Tells d members) (h : d.Portable)
    (hvalid : ∀ t ∈ d.createdAt.toList ++ d.updatedAt.toList, t.Valid) {P : Prop}
    {fields : List (String × Value)}
    (hfields : (Rest.fields (Value.toRestMembers d.fields)).OkIff P fields) :
    (Rest.body members).OkIff ((∀ t ∈ d.createdAt.toList ++ d.updatedAt.toList, t.Dated) ∧ P)
      ⟨d.createdAt.map Instant.truncated, d.updatedAt.map Instant.truncated, fields⟩ := by
  obtain ⟨hcreated, hupdated⟩ := List.forall_mem_append.1 hvalid
  obtain ⟨-, -, hcreatedAt, hupdatedAt⟩ := lookup_restHeader (d := d)
  have hreadCreated := Rest.okIff_time?
    ((ht.lookup_reserved h (by decide) (by decide)).trans hcreatedAt) hcreated
  have hreadUpdated := Rest.okIff_time?
    ((ht.lookup_reserved h (by decide) (by decide)).trans hupdatedAt) hupdated
  intro b
  obtain ⟨createdAt, updatedAt, fs⟩ := b
  rw [Rest.body_eq_ok ht.sorted, ht.filter_eq h, hreadCreated _, hreadUpdated _, hfields _,
    List.forall_mem_append, Rest.Body.mk.injEq]
  tauto

end Tells

end Document

end ObjectEngine
