import ObjectEngine.Plan.Selection
import ObjectEngine.Proofs.Double.Integers
import ObjectEngine.Proofs.Outcome
import ObjectEngine.Proofs.Stored.Values
import ObjectEngine.Store.Order

/-!
# Values that equal themselves

The store compares numbers as numbers, and NaN equals nothing. So a stored value equals itself if
there is no NaN in it, and such is the stored form of a value without NaN (`Value.NaNFree`), be it
stored with a type or without (`Stored.same_encode`, `Stored.same_encodeFree`). An integer is
compared as a double, and the double nearest to an integer is no NaN (`Double.isNaN_ofInt`).
-/

namespace ObjectEngine

/-! ### Stored values -/

namespace Datum

theorem sameItems_self {ds : List Datum} (h : ∀ d ∈ ds, d.same d = true) :
    sameItems ds ds = true := by
  induction ds with
  | nil => rfl
  | cons d rest ih =>
    obtain ⟨hfirst, hrest⟩ := List.forall_mem_cons.1 h
    rw [sameItems, hfirst, ih hrest, Bool.and_self]

theorem sameMembers_self {ms : List (String × Datum)} (h : ∀ m ∈ ms, m.2.same m.2 = true) :
    sameMembers ms ms = true := by
  induction ms with
  | nil => rfl
  | cons m rest ih =>
    obtain ⟨hfirst, hrest⟩ := List.forall_mem_cons.1 h
    rw [sameMembers, hfirst, ih hrest, decide_eq_true rfl, Bool.and_self, Bool.and_self]

mutual

/-- **A value that equals itself** does so under every collation. -/
theorem equalUnder_self {d : Datum} (h : d.same d = true) (c : Option Collation) :
    d.equalUnder c d = true := by
  cases d with
  | string s => exact decide_eq_true rfl
  | int n => exact Double.same_self (Double.isNaN_ofInt _)
  | array items => exact equalItems_self h c
  | _ => exact h

theorem equalItems_self {ds : List Datum} (h : sameItems ds ds = true) (c : Option Collation) :
    equalItems c ds ds = true := by
  cases ds with
  | nil => rfl
  | cons d rest =>
    obtain ⟨hfirst, hrest⟩ := Bool.and_eq_true_iff.1 h
    exact Bool.and_eq_true_iff.2 ⟨equalUnder_self hfirst c, equalItems_self hrest c⟩

end

end Datum

/-! ### Values -/

/-- Neither coordinate is NaN. -/
def GeoPoint.NaNFree (p : GeoPoint) : Prop := p.latitude.isNaN = false ∧ p.longitude.isNaN = false

mutual

/-- **A value without NaN**, at any depth. -/
def Value.NaNFree : Value → Prop
  | .float x => x.isNaN = false
  | .geoPoint p => p.NaNFree
  | .polygon ring => ∀ p ∈ ring, p.NaNFree
  | .array items => NaNFreeItems items
  | .object members => NaNFreeMembers members
  | _ => True

/-- All items are without NaN. -/
def Value.NaNFreeItems : List Value → Prop
  | [] => True
  | v :: rest => v.NaNFree ∧ NaNFreeItems rest

/-- The values of all members are without NaN. -/
def Value.NaNFreeMembers : List (String × Value) → Prop
  | [] => True
  | (_, v) :: rest => v.NaNFree ∧ NaNFreeMembers rest

end

namespace Stored

open Datum (sameItems_self sameMembers_self)

/-- A record with a type tag equals itself if its members do. -/
theorem same_tagged {tag : String} {members : List (String × Datum)}
    (h : ∀ m ∈ members, m.2.same m.2 = true) :
    (tagged tag members).same (tagged tag members) = true := by
  refine sameMembers_self fun m hm => ?_
  rcases List.mem_cons.1 ((Members.mem_insertAll hm).resolve_right List.not_mem_nil) with rfl | hm
  · exact decide_eq_true rfl
  · exact h m hm

theorem same_string (s : String) : (Datum.string s).same (.string s) = true := decide_eq_true rfl

/-- A pair of numbers equals itself if both do. -/
theorem same_pair {x y : Double} (hx : x.isNaN = false) (hy : y.isNaN = false) :
    (Datum.array [.double x, .double y]).same (.array [.double x, .double y]) = true :=
  sameItems_self (List.forall_mem_cons.2
    ⟨Double.same_self hx, List.forall_mem_singleton.2 (Double.same_self hy)⟩)

theorem same_encodeAcl (list : Acl) :
    (Datum.record (encodeAcl list)).same (.record (encodeAcl list)) = true := by
  refine sameMembers_self fun m hm => ?_
  obtain ⟨e, -, rfl⟩ := List.mem_map.1 hm
  cases hread : e.2.read <;> cases hwrite : e.2.write <;> simp only [encodeGrant, hread, hwrite] <;>
    rfl

mutual

/-- **What is stored for a value without NaN** equals itself. -/
theorem same_encodeFree {v : Value} {d : Datum} (hv : v.NaNFree) (h : encodeFree v = .ok d) :
    d.same d = true := by
  cases v with
  | array items =>
    rw [Value.NaNFree] at hv
    obtain ⟨ds, hds, h⟩ := Outcome.bind_eq_ok.1 h
    obtain rfl := Except.ok.inj h
    exact sameItems_self (same_encodeItems hv hds)
  | object members =>
    rw [Value.NaNFree] at hv
    obtain ⟨ds, hds, h⟩ := Outcome.bind_eq_ok.1 h
    obtain rfl := Except.ok.inj h
    exact sameMembers_self (same_encodeMembers hv hds)
  | bytes text =>
    obtain ⟨bytes, -, h⟩ := Outcome.bind_eq_ok.1 h
    obtain rfl := Except.ok.inj h
    exact decide_eq_true rfl
  | acl list =>
    obtain rfl := Except.ok.inj h
    exact same_tagged (List.forall_mem_singleton.2 (same_encodeAcl list))
  | polygon ring =>
    rw [Value.NaNFree] at hv
    obtain rfl := Except.ok.inj h
    refine same_tagged (List.forall_mem_singleton.2 (sameItems_self fun d hd => ?_))
    obtain ⟨p, hp, rfl⟩ := List.mem_map.1 hd
    exact same_pair (hv p hp).1 (hv p hp).2
  | geoPoint p =>
    rw [Value.NaNFree] at hv
    obtain rfl := Except.ok.inj h
    exact same_tagged (List.forall_mem_cons.2
      ⟨Double.same_self hv.1, List.forall_mem_singleton.2 (Double.same_self hv.2)⟩)
  | pointer _ | included _ =>
    obtain rfl := Except.ok.inj h
    exact same_tagged (List.forall_mem_cons.2
      ⟨same_string _, List.forall_mem_singleton.2 (same_string _)⟩)
  | relation _ | file _ =>
    obtain rfl := Except.ok.inj h
    exact same_tagged (List.forall_mem_singleton.2 (same_string _))
  | float x =>
    rw [Value.NaNFree] at hv
    obtain rfl := Except.ok.inj h
    exact Double.same_self hv
  | null =>
    obtain rfl := Except.ok.inj h
    rfl
  | raw value =>
    obtain rfl := Except.ok.inj h
    simp [Datum.same]
  | _ =>
    obtain rfl := Except.ok.inj h
    exact decide_eq_true rfl

theorem same_encodeItems {items : List Value} {ds : List Datum} (hitems : Value.NaNFreeItems items)
    (h : encodeItems items = .ok ds) : ∀ d ∈ ds, d.same d = true := by
  cases items with
  | nil =>
    obtain rfl := Except.ok.inj h
    exact fun d hd => absurd hd List.not_mem_nil
  | cons v rest =>
    rw [Value.NaNFreeItems] at hitems
    obtain ⟨d, hd, h⟩ := Outcome.bind_eq_ok.1 h
    obtain ⟨ds', hds', h⟩ := Outcome.bind_eq_ok.1 h
    obtain rfl := Except.ok.inj h
    exact List.forall_mem_cons.2 ⟨same_encodeFree hitems.1 hd, same_encodeItems hitems.2 hds'⟩

theorem same_encodeMembers {members : List (String × Value)} {ds : List (String × Datum)}
    (hmembers : Value.NaNFreeMembers members) (h : encodeMembers members = .ok ds) :
    ∀ m ∈ ds, m.2.same m.2 = true := by
  cases members with
  | nil =>
    obtain rfl := Except.ok.inj h
    exact fun d hd => absurd hd List.not_mem_nil
  | cons m rest =>
    rw [Value.NaNFreeMembers] at hmembers
    rw [encodeMembers] at h
    obtain ⟨-, h⟩ := Outcome.guard_eq_ok.1 h
    obtain ⟨d, hd, h⟩ := Outcome.bind_eq_ok.1 h
    obtain ⟨ds', hds', h⟩ := Outcome.bind_eq_ok.1 h
    obtain rfl := Except.ok.inj h
    exact List.forall_mem_cons.2
      ⟨same_encodeFree hmembers.1 hd, same_encodeMembers hmembers.2 hds'⟩

end

/-- **So does what is stored for a declared type.** -/
theorem same_encode {ty : FieldType} {v : Value} {d : Datum} (hv : v.NaNFree)
    (h : encode ty v = .ok d) : d.same d = true := by
  unfold encode at h
  dsimp only at h
  split at h
  case h_1 =>
    obtain rfl := Except.ok.inj h
    rfl
  case h_4 x =>
    rw [Value.NaNFree] at hv
    obtain rfl := Except.ok.inj h
    exact Double.same_self hv
  case h_7 =>
    obtain ⟨bytes, -, h⟩ := Outcome.bind_eq_ok.1 h
    obtain rfl := Except.ok.inj h
    exact decide_eq_true rfl
  case h_9 p =>
    rw [Value.NaNFree] at hv
    obtain ⟨-, -, h⟩ := Outcome.bind_eq_ok.1 h
    obtain rfl := Except.ok.inj h
    exact same_pair hv.2 hv.1
  case h_10 ring =>
    rw [Value.NaNFree] at hv
    obtain ⟨-, h⟩ := Outcome.guard_eq_ok.1 h
    obtain ⟨-, -, h⟩ := Outcome.bind_eq_ok.1 h
    obtain rfl := Except.ok.inj h
    refine sameMembers_self (List.forall_mem_cons.2
      ⟨sameItems_self (List.forall_mem_singleton.2 (sameItems_self fun d hd => ?_)),
        List.forall_mem_singleton.2 (same_string _)⟩)
    obtain ⟨p, hp, rfl⟩ := List.mem_map.1 hd
    exact same_pair (hv p hp).2 (hv p hp).1
  case h_11 =>
    split at h
    · split at h
      · obtain rfl := Except.ok.inj h
        exact same_string _
      · exact absurd h (by simp)
    · exact absurd h (by simp)
  case h_12 =>
    split at h
    · obtain rfl := Except.ok.inj h
      exact same_tagged (List.forall_mem_singleton.2 (same_string _))
    · exact absurd h (by simp)
  case h_13 list =>
    obtain rfl := Except.ok.inj h
    exact same_encodeAcl list
  case h_14 | h_15 => exact same_encodeFree hv h
  case h_16 => exact absurd h (by simp)
  -- texts, integers, flags, times and file names
  all_goals
    obtain rfl := Except.ok.inj h
    exact decide_eq_true rfl

end Stored

/-- **What a value is compared with** equals itself, if there is no NaN in the value. -/
theorem Plan.same_operand {target : Target} {path : String} {v : Value} {d : Datum}
    (hv : v.NaNFree) (h : operand target path v = .ok d) : d.same d = true := by
  unfold operand at h
  split at h
  · exact Stored.same_encodeFree hv h
  · exact Stored.same_encodeFree hv h
  · exact Stored.same_encodeFree hv h
  · exact Stored.same_encodeFree hv h
  · exact Stored.same_encode hv (Outcome.inField_eq_ok.1 h)

end ObjectEngine
