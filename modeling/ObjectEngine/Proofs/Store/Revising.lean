import ObjectEngine.Proofs.Store.Separate

/-!
# Revising a value at the end of a way

A way is a list of keys that leads from a value through records. `Datum.Revised` says what it is
to change the value at the end of a way, by any relation between what stood there and what stands
there afterwards: records that are missing on the way are created if there is something to put
into them, and a value of another kind on the way stays, as long as nothing is to be put behind it.

At its end the change is read back (`Datum.Revised.read`), and nothing changes on the ways that
are neither part of it nor go on from it (`Datum.Revised.read_apart`). So two changes at such ways
can be made in either order, and the same value comes of them (`Datum.Revised.comm`): not only
are the same values read afterwards, the same records stand on the ways to them.
-/

namespace ObjectEngine

/-! ### Binding a key or removing it -/

namespace Members

variable {α : Type} {members : Members α} {k l : String}

/-- Binds a key to a value, or to none. -/
def put (key : String) : Option α → Members α → Members α
  | some v, members => insert key v members
  | none, members => erase key members

theorem lookup_put (k key : String) (v : Option α) (members : Members α) :
    (put key v members).lookup k = if k = key then v else members.lookup k := by
  cases v with
  | none => exact lookup_erase k key members
  | some v => exact lookup_insert k key v members

theorem sorted_put (hs : members.Sorted) (key : String) (v : Option α) :
    (put key v members).Sorted := by
  cases v with
  | none => exact sorted_erase hs key
  | some v => exact sorted_insert hs key v

/-- To put back what is there changes nothing. -/
theorem Sorted.put_lookup (hs : members.Sorted) (k : String) :
    put k (members.lookup k) members = members := by
  refine (sorted_put hs k _).ext hs fun key => ?_
  rw [lookup_put]
  split
  case isTrue hkey => rw [hkey]
  case isFalse => rfl

/-- Of two values put under one key the last counts. -/
theorem Sorted.put_put (hs : members.Sorted) (k : String) (u v : Option α) :
    put k v (put k u members) = put k v members := by
  refine (sorted_put (sorted_put hs k u) k v).ext (sorted_put hs k v) fun key => ?_
  rw [lookup_put, lookup_put, lookup_put]
  split <;> rfl

/-- **Values are put under different keys** in either order. -/
theorem Sorted.put_comm (hs : members.Sorted) (hkl : k ≠ l) (u v : Option α) :
    put k u (put l v members) = put l v (put k u members) := by
  refine (sorted_put (sorted_put hs l v) k u).ext (sorted_put (sorted_put hs k u) l v)
    fun key => ?_
  rw [lookup_put, lookup_put, lookup_put, lookup_put]
  by_cases hk : key = k
  · rw [if_pos hk, if_neg (hk ▸ hkl), if_pos hk]
  · rw [if_neg hk, if_neg hk]

end Members

namespace Datum

variable {s : String} {way others : List String} {x y z : Option Datum}
  {change P Q : Option Datum → Option Datum → Prop}

/-! ### Values on ways -/

theorem record_or_other (d : Datum) : (∃ members, d = .record members) ∨ d.isRecord = false := by
  cases d <;> simp [isRecord]

/-- **Records in key order**, at every depth that a way leads to. -/
inductive Ordered : Datum → Prop
  | record {members : Record} (hs : members.Sorted) (h : ∀ m ∈ members, Ordered m.2) :
    Ordered (.record members)
  | other {d : Datum} (h : d.isRecord = false) : Ordered d

theorem Ordered.members {members : Record} (h : Ordered (.record members)) :
    members.Sorted ∧ ∀ m ∈ members, m.2.Ordered := by
  cases h with
  | record hs h => exact ⟨hs, h⟩
  | other h => exact absurd h (by simp [isRecord])

theorem Ordered.lookup {members : Record} {d : Datum} (h : Ordered (.record members))
    (hd : members.lookup s = some d) : d.Ordered :=
  h.members.2 _ (Members.mem_of_lookup hd)

theorem Ordered.put {members : Record} (h : Ordered (.record members)) (s : String)
    (hx : ∀ d, x = some d → d.Ordered) : Ordered (.record (Members.put s x members)) := by
  obtain ⟨hs, hmembers⟩ := h.members
  refine .record (Members.sorted_put hs s x) fun m hm => ?_
  cases x with
  | none => exact hmembers m (List.mem_of_mem_filter hm)
  | some d =>
    rcases Members.mem_insert hm with rfl | hm
    · exact hx d rfl
    · exact hmembers m hm

/-- The record with one member. -/
def single (s : String) (d : Datum) : Datum := .record [(s, d)]

theorem ordered_single {d : Datum} (hd : d.Ordered) (s : String) : (single s d).Ordered :=
  .record (List.pairwise_singleton ..) fun _ hm => List.mem_singleton.1 hm ▸ hd

theorem lookup_singleton (s : String) (d : Datum) (key : String) :
    List.lookup key [(s, d)] = if key = s then some d else none :=
  Members.lookup_cons key s d []

/-- What stands at the end of a way, if it leads anywhere. -/
def read? (way : List String) (x : Option Datum) : Option Datum := x.bind (getAlong? way)

theorem read?_nil (x : Option Datum) : read? [] x = x := by
  cases x <;> rfl

theorem read?_record (s : String) (way : List String) (members : Record) :
    read? (s :: way) (some (.record members)) = read? way (members.lookup s) :=
  rfl

theorem read?_single (s : String) (way : List String) (x : Option Datum) :
    read? (s :: way) (x.map (single s)) = read? way x := by
  cases x with
  | none => rfl
  | some d =>
    rw [Option.map_some, single, read?_record, lookup_singleton, if_pos rfl]

/-- There is no way through a value that is no record. -/
theorem read?_other {d : Datum} (hd : d.isRecord = false) (s : String) (way : List String) :
    read? (s :: way) (some d) = none := by
  cases d <;> first | rfl | exact absurd hd (by simp [isRecord])

/-! ### Revisions -/

/-- **The value at the end of a way is changed**: from a value that holds it, or none, to a value
that holds what it becomes. -/
def Revised (change : Option Datum → Option Datum → Prop) :
    List String → Option Datum → Option Datum → Prop
  | [], x, z => change x z
  | s :: way, none, z => ∃ y, Revised change way none y ∧ z = y.map (single s)
  | s :: way, some (.record members), z =>
    ∃ y, Revised change way (members.lookup s) y ∧ z = some (.record (Members.put s y members))
  -- Nothing is there, and nothing can be put there.
  | _ :: _, some d, z => change none none ∧ z = some d

theorem revised_other {d : Datum} (hd : d.isRecord = false) :
    Revised change (s :: way) (some d) z ↔ change none none ∧ z = some d := by
  cases d <;> first | rfl | exact absurd hd (by simp [isRecord])

/-- Below a value there is still something after a change further on. -/
theorem Revised.isSome {d : Datum} (hway : way ≠ []) (h : Revised change way (some d) z) :
    z.isSome := by
  obtain ⟨s, way, rfl⟩ := List.exists_cons_of_ne_nil hway
  obtain ⟨members, rfl⟩ | hd := d.record_or_other
  · obtain ⟨y, -, rfl⟩ := h
    rfl
  · obtain ⟨-, rfl⟩ := (revised_other hd).1 h
    rfl

/-- A record stays one after a change further on. -/
theorem Revised.isRecord {members : Record} (hway : way ≠ [])
    (h : Revised change way (some (.record members)) z) : ∃ members', z = some (.record members') := by
  obtain ⟨s, way, rfl⟩ := List.exists_cons_of_ne_nil hway
  obtain ⟨y, -, rfl⟩ := h
  exact ⟨_, rfl⟩

/-- **A change within the only member** of a record, or of none. -/
theorem revised_single (hway : way ≠ []) :
    Revised change (s :: way) (x.map (single s)) z ↔
      ∃ y, Revised change way x y ∧ z = y.map (single s) := by
  cases x with
  | none => rfl
  | some d =>
    have hput (e : Datum) : some (single s e) =
        some (.record (Members.put s (some e) [(s, d)])) := by
      simp [single, Members.put, Members.insert]
    rw [Option.map_some, single, Revised, lookup_singleton, if_pos rfl]
    refine exists_congr fun y => and_congr_right fun hy => ?_
    obtain ⟨e, rfl⟩ := Option.isSome_iff_exists.1 (hy.isSome hway)
    rw [Option.map_some, hput]

/-- **The change is read back** at the end of the way. -/
theorem Revised.read (h : Revised change way x z) : change (read? way x) (read? way z) := by
  induction way generalizing x z with
  | nil => rwa [read?_nil, read?_nil]
  | cons s way ih =>
    cases x with
    | none =>
      obtain ⟨y, hy, rfl⟩ := h
      rw [read?_single]
      exact ih hy
    | some d =>
      obtain ⟨members, rfl⟩ | hd := d.record_or_other
      · obtain ⟨y, hy, rfl⟩ := h
        rw [read?_record, read?_record, Members.lookup_put, if_pos rfl]
        exact ih hy
      · obtain ⟨hnone, rfl⟩ := (revised_other hd).1 h
        rwa [read?_other hd]

/-- **On other ways nothing changes.** -/
theorem Revised.read_apart (h : Revised change way x z) (hbelow : ¬way <+: others)
    (habove : ¬others <+: way) : read? others z = read? others x := by
  induction way generalizing x z others with
  | nil => exact absurd List.nil_prefix hbelow
  | cons s way ih =>
    cases others with
    | nil => exact absurd List.nil_prefix habove
    | cons t others =>
      rw [List.cons_prefix_cons] at hbelow habove
      cases x with
      | none =>
        obtain ⟨y, hy, rfl⟩ := h
        by_cases hts : t = s
        · subst hts
          rw [read?_single]
          exact ih hy (by simpa using hbelow) (by simpa using habove)
        · cases y with
          | none => rfl
          | some d => rw [Option.map_some, single, read?_record, lookup_singleton, if_neg hts]; rfl
      | some d =>
        obtain ⟨members, rfl⟩ | hd := d.record_or_other
        · obtain ⟨y, hy, rfl⟩ := h
          rw [read?_record, read?_record, Members.lookup_put]
          split
          case isTrue hts =>
            subst hts
            exact ih hy (by simpa using hbelow) (by simpa using habove)
          case isFalse => rfl
        · obtain ⟨-, rfl⟩ := (revised_other hd).1 h
          rfl

/-- A change that puts values in key order leaves values in key order. -/
theorem Revised.ordered (h : Revised change way x z)
    (hchange : ∀ x z, change x z → (∀ d, x = some d → d.Ordered) → ∀ d, z = some d → d.Ordered)
    (hx : ∀ d, x = some d → d.Ordered) : ∀ d, z = some d → d.Ordered := by
  induction way generalizing x z with
  | nil => exact hchange x z h hx
  | cons s way ih =>
    cases x with
    | none =>
      obtain ⟨y, hy, rfl⟩ := h
      intro d hd
      obtain ⟨e, rfl, rfl⟩ := Option.map_eq_some_iff.1 hd
      exact ordered_single (ih hy hx e rfl) s
    | some d =>
      obtain ⟨members, rfl⟩ | hd := d.record_or_other
      · obtain ⟨y, hy, rfl⟩ := h
        have hmembers := hx _ rfl
        have hy := ih hy fun e he => hmembers.lookup he
        exact fun e he => Option.some.inj he ▸ hmembers.put s hy
      · obtain ⟨-, rfl⟩ := (revised_other hd).1 h
        exact hx

/-- **A change that changes nothing** at the end of a way changes nothing at all. -/
theorem revised_self (hx : ∀ d, x = some d → d.Ordered)
    (h : change (read? way x) (read? way x)) : Revised change way x x := by
  induction way generalizing x with
  | nil => rwa [read?_nil] at h
  | cons s way ih =>
    cases x with
    | none => exact ⟨none, ih hx h, rfl⟩
    | some d =>
      obtain ⟨members, rfl⟩ | hd := d.record_or_other
      · have hmembers := hx _ rfl
        exact ⟨members.lookup s, ih (fun e he => hmembers.lookup he) h,
          by rw [hmembers.members.1.put_lookup]⟩
      · rw [read?_other hd] at h
        exact (revised_other hd).2 ⟨h, rfl⟩

/-- A change that has one outcome at most has one outcome at the end of a way. -/
theorem Revised.unique {z' : Option Datum} (h : Revised change way x z)
    (h' : Revised change way x z') (hchange : ∀ x z z', change x z → change x z' → z = z') :
    z = z' := by
  induction way generalizing x z z' with
  | nil => exact hchange x z z' h h'
  | cons s way ih =>
    cases x with
    | none =>
      obtain ⟨y, hy, rfl⟩ := h
      obtain ⟨y', hy', rfl⟩ := h'
      rw [ih hy hy']
    | some d =>
      obtain ⟨members, rfl⟩ | hd := d.record_or_other
      · obtain ⟨y, hy, rfl⟩ := h
        obtain ⟨y', hy', rfl⟩ := h'
        rw [ih hy hy']
      · exact ((revised_other hd).1 h).2.trans ((revised_other hd).1 h').2.symm

/-- Of a change, only what it does to the value at the end of the way matters. -/
theorem Revised.congr (h : Revised P way x z)
    (hPQ : ∀ y, P (read? way x) y → Q (read? way x) y) : Revised Q way x z := by
  induction way generalizing x z with
  | nil =>
    rw [read?_nil] at hPQ
    exact hPQ z h
  | cons s way ih =>
    cases x with
    | none =>
      obtain ⟨y, hy, rfl⟩ := h
      exact ⟨y, ih hy hPQ, rfl⟩
    | some d =>
      obtain ⟨members, rfl⟩ | hd := d.record_or_other
      · obtain ⟨y, hy, rfl⟩ := h
        exact ⟨y, ih hy hPQ, rfl⟩
      · obtain ⟨hnone, rfl⟩ := (revised_other hd).1 h
        rw [read?_other hd] at hPQ
        exact (revised_other hd).2 ⟨hPQ none hnone, rfl⟩

/-- What a change puts at the end of a way stands in a value. -/
theorem Revised.isSome_of_puts (h : Revised change way x z)
    (hputs : ∀ x z, change x z → z.isSome) : z.isSome := by
  induction way generalizing x z with
  | nil => exact hputs x z h
  | cons s way ih =>
    cases x with
    | none =>
      obtain ⟨y, hy, rfl⟩ := h
      rw [Option.isSome_map]
      exact ih hy
    | some d => exact h.isSome (List.cons_ne_nil s way)

/-- What is put into an empty record is put where there is no record yet. -/
theorem revised_empty (hway : way ≠ []) (hputs : ∀ x z, change x z → z.isSome) :
    Revised change way (some (.record [])) z ↔ Revised change way none z := by
  obtain ⟨s, way, rfl⟩ := List.exists_cons_of_ne_nil hway
  refine exists_congr fun y => and_congr_right fun hy => ?_
  obtain ⟨d, rfl⟩ := Option.isSome_iff_exists.1 (hy.isSome_of_puts hputs)
  rfl

/-! ### Two changes -/

/-- The record with some members, if there are any. -/
def ofMembers? : Record → Option Datum
  | [] => none
  | m :: rest => some (.record (m :: rest))

theorem ofMembers?_of_lookup {members : Record} {d : Datum} (h : members.lookup s = some d) :
    ofMembers? members = some (.record members) := by
  cases members with
  | nil => exact absurd h (by simp)
  | cons m rest => rfl

theorem ofMembers?_put (s : String) (x : Option Datum) :
    ofMembers? (Members.put s x []) = x.map (single s) := by
  cases x <;> rfl

/-- **A change beside the only member** of a record, or of none. -/
theorem revised_single_of_ne {t : String} (hts : t ≠ s) :
    Revised change (t :: way) (x.map (single s)) z ↔
      ∃ y, Revised change way none y ∧ z = ofMembers? (Members.put t y (Members.put s x [])) := by
  cases x with
  | none =>
    refine exists_congr fun y => and_congr_right fun _ => ?_
    rw [← ofMembers?_put]
    rfl
  | some d =>
    have hd (y : Option Datum) : (Members.put t y [(s, d)]).lookup s = some d := by
      rw [Members.lookup_put, if_neg (Ne.symm hts), lookup_singleton, if_pos rfl]
    rw [Option.map_some, single, Revised, lookup_singleton, if_neg hts]
    refine exists_congr fun y => and_congr_right fun _ => ?_
    rw [← ofMembers?_of_lookup (hd y)]
    rfl

/-- **Changes on ways apart from each other** can be made in either order. -/
theorem Revised.comm {ways : List String} (hP : Revised P way x y) (hQ : Revised Q ways y z)
    (hx : ∀ d, x = some d → d.Ordered) (hbelow : ¬way <+: ways) (habove : ¬ways <+: way) :
    ∃ y', Revised Q ways x y' ∧ Revised P way y' z := by
  induction way generalizing x y z ways with
  | nil => exact absurd List.nil_prefix hbelow
  | cons s way ih =>
    cases ways with
    | nil => exact absurd List.nil_prefix habove
    | cons t ways =>
      rw [List.cons_prefix_cons] at hbelow habove
      cases x with
      | none =>
        obtain ⟨u, hu, rfl⟩ := hP
        by_cases hts : t = s
        · -- Both changes are made within the only member.
          subst hts
          simp only [true_and] at hbelow habove
          have hway : way ≠ [] := fun h => hbelow (h ▸ List.nil_prefix)
          have hways : ways ≠ [] := fun h => habove (h ▸ List.nil_prefix)
          obtain ⟨v, hv, rfl⟩ := (revised_single hways).1 hQ
          obtain ⟨u', hu', hv'⟩ := ih hu hv hx hbelow habove
          exact ⟨_, ⟨u', hu', rfl⟩, (revised_single hway).2 ⟨v, hv', rfl⟩⟩
        · obtain ⟨v, hv, rfl⟩ := (revised_single_of_ne hts).1 hQ
          refine ⟨_, ⟨v, hv, rfl⟩, (revised_single_of_ne (Ne.symm hts)).2 ⟨u, hu, ?_⟩⟩
          rw [Members.Sorted.put_comm List.Pairwise.nil hts]
      | some d =>
        obtain ⟨members, rfl⟩ | hd := d.record_or_other
        · have hmembers := hx _ rfl
          have hsorted := hmembers.members.1
          obtain ⟨u, hu, rfl⟩ := hP
          obtain ⟨v, hv, rfl⟩ := hQ
          by_cases hts : t = s
          · subst hts
            simp only [true_and] at hbelow habove
            rw [Members.lookup_put, if_pos rfl] at hv
            obtain ⟨u', hu', hv'⟩ := ih hu hv (fun e he => hmembers.lookup he) hbelow habove
            refine ⟨_, ⟨u', hu', rfl⟩, v, ?_, ?_⟩
            · rwa [Members.lookup_put, if_pos rfl]
            · rw [hsorted.put_put, hsorted.put_put]
          · rw [Members.lookup_put, if_neg hts] at hv
            refine ⟨_, ⟨v, hv, rfl⟩, u, ?_, ?_⟩
            · rwa [Members.lookup_put, if_neg (Ne.symm hts)]
            · rw [hsorted.put_comm hts]
        · obtain ⟨hPnone, rfl⟩ := (revised_other hd).1 hP
          obtain ⟨hQnone, rfl⟩ := (revised_other hd).1 hQ
          exact ⟨_, (revised_other hd).2 ⟨hQnone, rfl⟩, (revised_other hd).2 ⟨hPnone, rfl⟩⟩

end Datum

end ObjectEngine
