import ObjectEngine.Plan.Edit
import ObjectEngine.Proofs.Store.Applying
import ObjectEngine.Proofs.Store.Rollback
import ObjectEngine.Proofs.Stored.Layout

/-!
# The access list of a record

A record keeps its access control list under `_acl`, and beside it copies of what permission is
decided by: the lists of readers and writers (`Plan.aclKeys`). The three members agree
(`Record.Agrees`) if all of them are missing, or if the copies are the readers and writers of the
list that is read from the first.

An update that changes the three as a whole (`Edit.Grants`) keeps them in agreement, and it puts
there only values that are equal to no other (`Datum.Exact`), so that a rollback can tell them
apart (`Store.residue_of_renewed`).
-/

namespace ObjectEngine

open Plan (aclKeys)
open Stored (aclKey readPermKey writePermKey accessMembers aclMembers)

/-! ### Members that agree -/

namespace Plan

theorem split_of_mem_aclKeys : ∀ key ∈ aclKeys, Text.split '.' key = [key] := by decide

theorem dot_not_mem_of_mem_aclKeys : ∀ key ∈ aclKeys, '.' ∉ key.toList := by decide

theorem root_of_mem_aclKeys {key : String} (h : key ∈ aclKeys) : Text.root key = key :=
  Text.root_of_split (split_of_mem_aclKeys key h)

end Plan

namespace Record

/-- **The access members of a record agree**: all are missing, or the copies are the readers and
the writers of the list. -/
def Agrees (r : Record) : Prop :=
  (∀ key ∈ aclKeys, r.lookup key = none) ∨
    ∃ entries, r.lookup aclKey = some (.record entries) ∧
      r.lookup readPermKey = some (.array ((Stored.decodeAcl entries).readers.map .string)) ∧
      r.lookup writePermKey = some (.array ((Stored.decodeAcl entries).writers.map .string))

/-- **The access members of a record are those that store a value**: a list, or the lack of
one. -/
def HasAccess (r : Record) (v : Value) : Prop :=
  v.Ordered ∧ ∃ members, aclMembers v = .ok members ∧
    ∀ key ∈ aclKeys, r.lookup key = members.lookup key

variable {r r' : Record} {v : Value}

theorem Agrees.congr (h : r.Agrees) (hsame : ∀ key ∈ aclKeys, r'.lookup key = r.lookup key) :
    r'.Agrees := by
  rcases h with h | ⟨entries, hacl, hread, hwrite⟩
  · exact .inl fun key hkey => (hsame key hkey).trans (h key hkey)
  · exact .inr ⟨entries, (hsame _ (by decide)).trans hacl, (hsame _ (by decide)).trans hread,
      (hsame _ (by decide)).trans hwrite⟩

/-- An access control list is null or a list. -/
theorem HasAccess.cases (h : r.HasAccess v) :
    (v = .null ∧ ∀ key ∈ aclKeys, r.lookup key = none) ∨
      ∃ list : Acl, v = .acl list ∧ list.entries.Sorted ∧
        ∀ key ∈ aclKeys, r.lookup key = (accessMembers list).lookup key := by
  obtain ⟨hordered, members, hmembers, hlookup⟩ := h
  cases v with
  | null =>
    obtain rfl := Except.ok.inj hmembers
    exact .inl ⟨rfl, hlookup⟩
  | acl list =>
    obtain rfl := Except.ok.inj hmembers
    exact .inr ⟨list, rfl, hordered, hlookup⟩
  | _ => exact absurd hmembers (by simp [aclMembers])

theorem isSome_lookup_accessMembers (list : Acl) :
    ∀ key ∈ aclKeys, ((accessMembers list).lookup key).isSome := by
  simp [aclKeys, accessMembers, aclKey, readPermKey, writePermKey, Members.lookup_cons]

/-- The access members of a list take the places of those that were there. -/
theorem hasAccess_insertAll {list : Acl} (h : list.entries.Sorted) (r : Record) :
    HasAccess (Members.insertAll r (accessMembers list)) (.acl list) := by
  have hsorted : Members.Sorted (accessMembers list) :=
    Members.sorted_of_keys [aclKey, readPermKey, writePermKey] (by decide) rfl
  refine ⟨h, _, rfl, fun key hkey => ?_⟩
  rw [Members.lookup_insertAll, hsorted.lookup_reverse]
  exact Option.or_of_isSome (isSome_lookup_accessMembers list key hkey)

theorem hasAccess_null (h : ∀ key ∈ aclKeys, r.lookup key = none) : r.HasAccess .null :=
  ⟨trivial, [], rfl, h⟩

/-- **The members that store a list agree**: the list is read back without the entries that grant
nothing, and those are neither readers nor writers. -/
theorem HasAccess.agrees (h : r.HasAccess v) : r.Agrees := by
  rcases h.cases with ⟨-, hnone⟩ | ⟨list, -, hsorted, hlookup⟩
  · exact .inl hnone
  have hread := Stored.decodeAcl_encodeAcl hsorted
  have hreaders : list.granting.readers = list.readers := by
    simp only [Acl.readers, Acl.granting, List.filter_filter]
    congr 2
    funext e
    cases e.2.read <;> simp
  have hwriters : list.granting.writers = list.writers := by
    simp only [Acl.writers, Acl.granting, List.filter_filter]
    congr 2
    funext e
    cases e.2.write <;> simp
  refine .inr ⟨Stored.encodeAcl list, hlookup aclKey (by decide), ?_, ?_⟩
  · rw [hread, hreaders]
    exact hlookup readPermKey (by decide)
  · rw [hread, hwriters]
    exact hlookup writePermKey (by decide)

end Record

/-! ### Values that equal no other -/

namespace Datum

/-- A value that equals itself and no other. -/
def Exact (d : Datum) : Prop := ∀ e, d.same e = true ↔ d = e

theorem exact_string (s : String) : Exact (.string s) := by
  intro e
  cases e <;> simp [same]

theorem exact_bool (b : Bool) : Exact (.bool b) := by
  intro e
  cases e <;> simp [same]

theorem exact_array {items : List Datum} (h : ∀ d ∈ items, d.Exact) : Exact (.array items) := by
  have hitems (es : List Datum) : sameItems items es = true ↔ items = es := by
    induction items generalizing es with
    | nil => cases es <;> simp [sameItems]
    | cons d rest ih =>
      cases es with
      | nil => simp [sameItems]
      | cons e es =>
        obtain ⟨hd, hrest⟩ := List.forall_mem_cons.1 h
        simp [sameItems, hd e, ih hrest es]
  intro e
  cases e with
  | array es => simpa [same] using hitems es
  | _ => simp [same]

theorem exact_record {members : Record} (h : ∀ m ∈ members, m.2.Exact) :
    Exact (.record members) := by
  have hmembers (es : Record) : sameMembers members es = true ↔ members = es := by
    induction members generalizing es with
    | nil => cases es <;> simp [sameMembers]
    | cons m rest ih =>
      obtain ⟨k, d⟩ := m
      cases es with
      | nil => simp [sameMembers]
      | cons e es =>
        obtain ⟨hd, hrest⟩ := List.forall_mem_cons.1 h
        simp [sameMembers, hd e.2, ih hrest es, Prod.ext_iff]
  intro e
  cases e with
  | record es => simpa [same] using hmembers es
  | _ => simp [same]

end Datum

namespace Stored

theorem exact_encodeGrant (g : Grant) : (encodeGrant g).Exact := by
  refine Datum.exact_record fun m hm => ?_
  obtain ⟨read, write⟩ := g
  cases read <;> cases write <;> simp at hm
  case false.true | true.false =>
    rw [hm]
    exact Datum.exact_bool true
  case true.true =>
    rcases hm with rfl | rfl <;> exact Datum.exact_bool true

/-- **What stores an access control list** equals no other value. -/
theorem exact_accessMembers {list : Acl} {m : String × Datum} (hm : m ∈ accessMembers list) :
    m.2.Exact := by
  have hsubjects (names : List String) : Datum.Exact (.array (names.map .string)) := by
    refine Datum.exact_array fun d hd => ?_
    obtain ⟨name, -, rfl⟩ := List.mem_map.1 hd
    exact Datum.exact_string name
  simp only [accessMembers, List.mem_cons, List.not_mem_nil, or_false] at hm
  rcases hm with rfl | rfl | rfl
  · refine Datum.exact_record fun m hm => ?_
    obtain ⟨entry, -, rfl⟩ := List.mem_map.1 hm
    exact exact_encodeGrant entry.2
  · exact hsubjects _
  · exact hsubjects _

end Stored

/-! ### Members that are renewed -/

/-- **A member that is kept or renewed**: it is as it was, or missing, or a value that equals no
other. -/
def Renewed (before after : Option Datum) : Prop :=
  after = before ∨ ∀ d, after = some d → d.Exact

/-- The access members that store a value renew those of any record. -/
theorem Record.HasAccess.renewed {r : Record} {v : Value} (h : r.HasAccess v) {key : String}
    (hkey : key ∈ aclKeys) (before : Option Datum) : Renewed before (r.lookup key) := by
  refine .inr fun d hd => ?_
  rcases h.cases with ⟨-, hnone⟩ | ⟨list, -, -, hlookup⟩
  · rw [hnone key hkey] at hd
    exact absurd hd (by simp)
  · rw [hlookup key hkey] at hd
    exact Stored.exact_accessMembers (Members.mem_of_lookup hd)

namespace Store

/-- **A member that is only renewed is restored** by a rollback. -/
theorem residue_of_renewed {first : Option Datum} {later : List (Option Datum)}
    (h : ∀ x ∈ later, Renewed first x) : residue first later = first := by
  -- a value that is not the first one equals itself, and not the first one
  have hexact {x y : Option Datum} (hx : ∀ d, x = some d → d.Exact) :
      Datum.sameOption x y = true ↔ x = y := by
    cases x with
    | none => cases y <;> simp [Datum.sameOption]
    | some d =>
      cases y with
      | none => simp [Datum.sameOption]
      | some e => simpa [Datum.sameOption] using hx d rfl e
  unfold residue
  split
  · rename_i x hlast
    obtain ⟨hx, hself⟩ := List.mem_filter.1 (List.mem_of_getLast? hlast)
    refine (h x hx).resolve_right fun hx => ?_
    rw [(hexact hx).2 rfl] at hself
    exact absurd hself (by simp)
  · cases hlast : (later.takeWhile (Datum.sameOption first)).getLast? with
    | none => rfl
    | some x =>
      have hmem := List.mem_of_getLast? hlast
      have hsame : Datum.sameOption first x = true := List.all_eq_true.1 List.all_takeWhile x hmem
      rcases h x ((List.takeWhile_sublist _).subset hmem) with hx | hx
      · exact hx
      · exact (hexact hx).1 ((Datum.sameOption_comm x first).trans hsame)

end Store

/-! ### Updates of the access list -/

namespace Edit

/-- **An update that grants as a whole**: it sets all access members to what stores one list, or
none of them; it removes all of them or none; and it does nothing else to them. -/
structure Grants (e : Edit) : Prop where
  whole : ∀ key ∈ aclKeys, e.Whole key
  set : ∃ v, Record.HasAccess e.set v
  unset : (∀ key ∈ aclKeys, key ∈ e.unset) ∨ ∀ key ∈ aclKeys, key ∉ e.unset
  onInsert : ∀ key ∈ aclKeys, e.setOnInsert.lookup key = none
  sortedSet : e.set.Sorted
  sortedOnInsert : e.setOnInsert.Sorted

/-- The update sets or removes the access list. -/
def Regrants (e : Edit) : Prop := aclKey ∈ e.unset ∨ (e.set.lookup aclKey).isSome

variable {e : Edit} {inserting : Bool} {r r' : Record}

/-- **What an update leaves of the access members**: those that store a value, if it sets or
removes the list, and otherwise those that were there. -/
theorem Grants.cases (h : e.Grants) (happly : e.apply inserting r = .ok r') :
    (e.Regrants ∧ ∃ v, r'.HasAccess v) ∨
      (¬e.Regrants ∧ ∀ key ∈ aclKeys, r'.lookup key = r.lookup key) := by
  have hlookup (key : String) (hkey : key ∈ aclKeys) : r'.lookup key =
      if key ∈ e.unset then none else (e.set.lookup key).or (r.lookup key) := by
    rw [lookup_of_apply_key (Plan.split_of_mem_aclKeys key hkey) (h.whole key hkey) h.sortedSet
      h.sortedOnInsert happly, h.onInsert key hkey, ite_self, Option.none_or]
  obtain ⟨v, hset⟩ := h.set
  rcases h.unset with hall | hnone
  · refine .inl ⟨.inl (hall _ (by decide)), .null, Record.hasAccess_null fun key hkey => ?_⟩
    rw [hlookup key hkey, if_pos (hall key hkey)]
  · have hkept (key : String) (hkey : key ∈ aclKeys) :
        r'.lookup key = (e.set.lookup key).or (r.lookup key) := by
      rw [hlookup key hkey, if_neg (hnone key hkey)]
    have haclKey : aclKey ∈ aclKeys := by decide
    rcases hset.cases with ⟨-, hmissing⟩ | ⟨list, rfl, hsorted, hlist⟩
    · refine .inr ⟨fun hregrants => ?_, fun key hkey => ?_⟩
      · rcases hregrants with hunset | hsome
        · exact hnone _ haclKey hunset
        · rw [hmissing _ haclKey] at hsome
          exact absurd hsome (by simp)
      · rw [hkept key hkey, hmissing key hkey, Option.none_or]
    · refine .inl ⟨.inr ?_, .acl list, hsorted, _, rfl, fun key hkey => ?_⟩
      · rw [hlist _ haclKey]
        rfl
      · rw [hkept key hkey, hlist key hkey]
        exact Option.or_of_isSome (Record.isSome_lookup_accessMembers list key hkey)

/-- **An update that grants as a whole** renews the access members or keeps them. -/
theorem Grants.renewed (h : e.Grants) (happly : e.apply inserting r = .ok r') {key : String}
    (hkey : key ∈ aclKeys) : Renewed (r.lookup key) (r'.lookup key) := by
  rcases h.cases happly with ⟨-, v, hv⟩ | ⟨-, hsame⟩
  · exact hv.renewed hkey _
  · exact .inl (hsame key hkey)

/-- **The access members agree after an update** if and only if they did before it or it sets or
removes the list. -/
theorem Grants.agrees_iff (h : e.Grants) (happly : e.apply inserting r = .ok r') :
    r'.Agrees ↔ r.Agrees ∨ e.Regrants := by
  rcases h.cases happly with ⟨hregrants, v, hv⟩ | ⟨hnot, hsame⟩
  · exact iff_of_true hv.agrees (.inr hregrants)
  · refine ⟨fun hr' => .inl (hr'.congr fun key hkey => (hsame key hkey).symm), ?_⟩
    exact fun hr => (hr.resolve_right hnot).congr hsame

end Edit

end ObjectEngine
