import ObjectEngine.Proofs.Store.History

/-!
# What a rollback restores

An update is taken back member by member, and a member only if the update changed it and it has
still the value the update gave it. Both questions are put to the equality of data, for which the
two zeros are equal and NaN equals nothing, not even itself. So a transaction whose writes nobody
else touched is not always undone.

`Store.residue` says what is left of a member. A value that is not equal to itself stays for good
once the transaction has written it. Without such a value, the transaction's first writes of
values equal to the one of before are never noticed, and the last of them stays. From this,
`Store.Abandoned.restored_iff` says exactly when a rollback restores the store: insertions and
removals, in any order and however often, are always undone.
-/

namespace ObjectEngine

/-! ### Equality of data -/

namespace Datum

theorem double_same_trans {x y z : Double} (h : x.same y = true) (h' : y.same z = true) :
    x.same z = true := by
  simp only [Double.same, Bool.and_eq_true, decide_eq_true_eq] at h h' ⊢
  exact ⟨⟨h.1.1, h'.1.2⟩, h.2.trans h'.2⟩

mutual

theorem same_trans {a b c : Datum} (h : a.same b = true) (h' : b.same c = true) :
    a.same c = true := by
  cases a <;> cases b <;> first | exact absurd h Bool.false_ne_true | skip
  all_goals cases c <;> first | exact absurd h' Bool.false_ne_true | skip
  case null.null.null => rfl
  case double.double.double => exact double_same_trans h h'
  case array.array.array => exact sameItems_trans h h'
  case record.record.record => exact sameMembers_trans h h'
  all_goals simp_all only [same, decide_eq_true_eq, Bool.and_eq_true, and_self]
termination_by structural a

theorem sameItems_trans {as bs cs : List Datum} (h : sameItems as bs = true)
    (h' : sameItems bs cs = true) : sameItems as cs = true := by
  cases as <;> cases bs <;> first | exact absurd h Bool.false_ne_true | skip
  all_goals cases cs <;> first | exact absurd h' Bool.false_ne_true | skip
  case nil.nil.nil => rfl
  case cons.cons.cons =>
    obtain ⟨hfirst, hrest⟩ := Bool.and_eq_true_iff.1 h
    obtain ⟨hfirst', hrest'⟩ := Bool.and_eq_true_iff.1 h'
    exact Bool.and_eq_true_iff.2 ⟨same_trans hfirst hfirst', sameItems_trans hrest hrest'⟩
termination_by structural as

theorem sameMembers_trans {as bs cs : List (String × Datum)} (h : sameMembers as bs = true)
    (h' : sameMembers bs cs = true) : sameMembers as cs = true := by
  cases as <;> cases bs <;> first | exact absurd h Bool.false_ne_true | skip
  all_goals cases cs <;> first | exact absurd h' Bool.false_ne_true | skip
  case nil.nil.nil => rfl
  case cons.cons.cons m ms n ns o os =>
    obtain ⟨k, a⟩ := m
    obtain ⟨l, b⟩ := n
    obtain ⟨j, c⟩ := o
    simp only [sameMembers, Bool.and_eq_true, decide_eq_true_eq] at h h' ⊢
    exact ⟨⟨h.1.1.trans h'.1.1, same_trans h.1.2 h'.1.2⟩, sameMembers_trans h.2 h'.2⟩
termination_by structural as

end

theorem sameOption_comm (a b : Option Datum) : sameOption a b = sameOption b a := by
  cases a <;> cases b <;> first | rfl | exact same_comm _ _

theorem sameOption_trans {a b c : Option Datum} (h : sameOption a b = true)
    (h' : sameOption b c = true) : sameOption a c = true := by
  cases a <;> cases b <;> cases c <;> first
    | rfl
    | exact same_trans h h'
    | exact absurd h Bool.false_ne_true
    | exact absurd h' Bool.false_ne_true

/-- A value that equals another equals itself. -/
theorem sameOption_self {a b : Option Datum} (h : sameOption a b = true) :
    sameOption b b = true :=
  sameOption_trans ((sameOption_comm b a).trans h) h

/-- Equal values are equal to the same values. -/
theorem sameOption_congr {a b : Option Datum} (h : sameOption a b = true) :
    sameOption a = sameOption b := by
  funext c
  refine Bool.eq_iff_iff.2 ⟨fun hc => ?_, fun hc => sameOption_trans h hc⟩
  exact sameOption_trans ((sameOption_comm b a).trans h) hc

end Datum

namespace Store

open Datum

/-! ### One member -/

/-- **An update is taken back member by member.** -/
theorem lookup_foldl_keysOf (previous written current : Record) (k : String) :
    ((UndoEntry.keysOf previous written).foldl (UndoEntry.revertMember previous written)
      current).lookup k =
      revertedValue (previous.lookup k) (written.lookup k) (current.lookup k) := by
  rw [lookup_foldl_revertMember]
  split
  case isTrue => rfl
  case isFalse hk =>
    -- a key of neither record was not changed
    have habsent {r : Record}
        (hr : Members.keys r ⊆ Members.keys previous ++ Members.keys written) :
        r.lookup k = none := by
      refine Members.lookup_eq_none fun m hm he => hk (NameSet.mem_ofList.2 (hr ?_))
      exact he ▸ List.mem_map_of_mem hm
    rw [habsent (List.subset_append_left ..), habsent (List.subset_append_right ..)]
    rfl

/-- The value of a member of a record, if there is the record. -/
def cell (key : String) (r : Option Record) : Option (Option Datum) := r.map (List.lookup key)

/-- The value of a member of a record after one write of the record has been taken back. -/
def revertedCell (before after current : Option (Option Datum)) : Option (Option Datum) :=
  match before, after, current with
  | none, _, _ => none
  | some x, none, none => some x
  | some x, some y, some z => some (revertedValue x y z)
  | some _, _, current => current

theorem cell_takenBack (key : String) (before after current : Option Record) :
    cell key (takenBack before after current) =
      revertedCell (cell key before) (cell key after) (cell key current) := by
  cases before with
  | none => rfl
  | some previous =>
    cases after with
    | none => cases current <;> rfl
    | some written =>
      cases current with
      | none => rfl
      | some current => exact congrArg some (lookup_foldl_keysOf previous written current key)

/-! ### What is left of a value -/

/-- **What a rollback leaves of a value** that a transaction has overwritten: the last value
written that is not equal to itself, or else the last of the first values that are equal to the
one of before. -/
def residue (first : Option Datum) (later : List (Option Datum)) : Option Datum :=
  match (later.filter fun x => !sameOption x x).getLast? with
  | some x => x
  | none => (later.takeWhile (sameOption first)).getLast?.getD first

/-- Without a value that is not equal to itself, what is left equals the value of before. -/
theorem sameOption_residue {first : Option Datum} {later : List (Option Datum)}
    (hlater : (later.filter fun x => !sameOption x x).getLast? = none)
    (hfirst : sameOption first first = true) : sameOption (residue first later) first = true := by
  simp only [residue, hlater]
  cases hlast : (later.takeWhile (sameOption first)).getLast? with
  | none => exact hfirst
  | some x =>
    rw [sameOption_comm]
    exact List.all_eq_true.1 List.all_takeWhile x (List.mem_of_getLast? hlast)

/-- **The step**: a value is left by a rollback as it is by taking back the last writes, and then
the first. -/
theorem residue_cons (first next : Option Datum) (later : List (Option Datum)) :
    residue first (next :: later) = revertedValue first next (residue next later) := by
  cases hlast : (later.filter fun x => !sameOption x x).getLast? with
  | some x =>
    -- a value that is not equal to itself equals no value, and stays
    have hx : sameOption x x = false := by
      simpa using (List.mem_filter.1 (List.mem_of_getLast? hlast)).2
    have hnext : sameOption x next = false := by
      refine Bool.eq_false_iff.2 fun h => ?_
      exact absurd (sameOption_self ((sameOption_comm next x).trans h)) (by simp [hx])
    have hleft : residue next later = x := by simp [residue, hlast]
    have hleft' : residue first (next :: later) = x := by
      by_cases hself : sameOption next next = true
      · simp [residue, hself, hlast]
      · simp [residue, hself, List.getLast?_cons, hlast]
    rw [hleft, hleft', revertedValue, hnext]
    simp
  | none =>
    have hnone : (later.filter fun x => !sameOption x x) = [] := List.getLast?_eq_none_iff.1 hlast
    cases hself : sameOption next next with
    | false =>
      have hdiffer (x : Option Datum) : sameOption next x = false := by
        refine Bool.eq_false_iff.2 fun h => ?_
        exact absurd (sameOption_self ((sameOption_comm x next).trans h)) (by simp [hself])
      have hleft : residue next later = next := by
        cases later with
        | nil => rfl
        | cons x later => simp [residue, hlast, hdiffer]
      have hleft' : residue first (next :: later) = next := by
        simp [residue, hself, List.getLast?_cons, hlast]
      rw [hleft, hleft', revertedValue, hself]
      simp
    | true =>
      have hleft := sameOption_residue hlast hself
      cases hfirst : sameOption first next with
      | false =>
        have hleft' : residue first (next :: later) = first := by
          simp [residue, hself, hnone, hfirst]
        rw [hleft', revertedValue, hleft, hfirst]
        rfl
      | true =>
        have hleft' : residue first (next :: later) = residue next later := by
          simp [residue, hself, hnone, List.getLast?_cons, sameOption_congr hfirst]
        rw [hleft', revertedValue, hfirst]
        rfl

/-! ### A transaction without writes from elsewhere -/

variable {s : Store} {id : SessionId} {calls : List Call} {closing : Call}

/-- The forms that revisions give a record, up to the first that removes it. -/
def forms : List Revision → List Record
  | [] => []
  | v :: vs =>
    match v.after with
    | some r => r :: forms vs
    | none => []

/-- The values that revisions give a member, up to the first that removes its record. -/
def valuesOf (key : String) (vs : List Revision) : List (Option Datum) :=
  (forms vs).map (List.lookup key)

/-- **What a rollback leaves of a member**, if the transaction made all revisions: nothing of a
record that was not there, and of another the residue of the member. -/
theorem cell_rewound (key : String) {vs : List Revision} {first last : Option Record}
    (hleads : Leads first vs last) (hinside : ∀ v ∈ vs, v.inside = true) :
    cell key (rewound vs last) = (cell key first).map fun x => residue x (valuesOf key vs) := by
  induction vs generalizing first with
  | nil =>
    obtain rfl : first = last := hleads
    cases first <;> rfl
  | cons v vs ih =>
    obtain ⟨rfl, hrest⟩ := hleads
    have hlater := ih hrest fun w hw => hinside w (List.mem_cons_of_mem _ hw)
    have hstep : rewound (v :: vs) last = takenBack v.before v.after (rewound vs last) :=
      if_pos (hinside v List.mem_cons_self)
    rw [hstep, cell_takenBack, hlater]
    cases hbefore : v.before with
    | none => rfl
    | some previous =>
      cases hafter : v.after with
      | none => simp [cell, revertedCell, valuesOf, forms, hafter, residue]
      | some written =>
        simp [cell, revertedCell, valuesOf, forms, hafter, residue_cons]

/-- The revisions by calls of a session are made inside of its transaction. -/
theorem inside_of_mem_history {s : Store} {name rid : String}
    (hcalls : ∀ call ∈ calls, call.session? = some id) {v : Revision}
    (hv : v ∈ s.history id name rid calls) : v.inside = true := by
  induction calls generalizing s with
  | nil => exact absurd hv List.not_mem_nil
  | cons call calls ih =>
    rcases List.mem_append.1 hv with hv | hv
    · obtain ⟨-, hinside, -⟩ := mem_revisions hv
      rw [hinside]
      exact decide_eq_true (hcalls call List.mem_cons_self)
    · exact ih (fun c hc => hcalls c (List.mem_cons_of_mem _ hc)) hv

/-- **Restored**: the same records under the same ids, each with the same members. -/
def Restored (s t : Store) : Prop :=
  ∀ name rid key, cell key (t.record? name rid) = cell key (s.record? name rid)

namespace Abandoned

/-- A member after the transaction has been given up. -/
theorem cell_after (h : Abandoned s id calls closing)
    (hinside : ∀ call ∈ calls, call.session? = some id) (name rid key : String) :
    cell key ((runAll s (.startTransaction id :: calls ++ [closing])).record? name rid) =
      (cell key (s.record? name rid)).map fun x =>
        residue x (valuesOf key ((started s id).history id name rid calls)) := by
  rw [h.record?_after]
  exact cell_rewound key (h.leads name rid) fun v hv => inside_of_mem_history hinside hv

/-- **A rollback restores the store if and only if it leaves every member of a record with the
value it had.** Nothing is asked of records that the transaction inserted, nor of what it did to
a record after it had removed it. -/
theorem restored_iff (h : Abandoned s id calls closing)
    (hinside : ∀ call ∈ calls, call.session? = some id) :
    Restored s (runAll s (.startTransaction id :: calls ++ [closing])) ↔
      ∀ name rid first, s.record? name rid = some first → ∀ key,
        residue (first.lookup key)
          (valuesOf key ((started s id).history id name rid calls)) = first.lookup key := by
  constructor
  · intro hrestored name rid first hfirst key
    have hcell := (h.cell_after hinside name rid key).symm.trans (hrestored name rid key)
    rw [hfirst] at hcell
    exact Option.some.inj hcell
  · intro hresidue name rid key
    rw [h.cell_after hinside]
    cases hfirst : s.record? name rid with
    | none => rfl
    | some first => exact congrArg some (hresidue name rid first hfirst key)

end Abandoned

/-! ### Two transactions -/

/-- A store with one record and one session. -/
def counted : Store :=
  runAll {} [.insert "C" [("_id", .string "a"), ("n", .int 1)] none, .startSession]

theorem wellFormed_counted : counted.WellFormed := by
  have hempty : WellFormed {} := .of_sorted [] fun m hm => absurd hm List.not_mem_nil
  exact (hempty.run _).run _

/-- A transaction that updates the record, removes it, and puts it in again. -/
def retouching : List Call :=
  [.update "C" .all { set := [("n", .int 2)] } (some ⟨0⟩),
    .delete "C" .all (some ⟨0⟩),
    .insert "C" [("_id", .string "a"), ("n", .int 3)] (some ⟨0⟩)]

theorem abandoned_retouching : Abandoned counted ⟨0⟩ retouching (.abort ⟨0⟩) where
  wellFormed := wellFormed_counted
  starts := ⟨(), rfl⟩
  writes := by simp [retouching, Call.Writes]
  closes := .inl rfl
  succeeds := ⟨(), rfl⟩

theorem restored_iff_retouching :
    Restored counted (runAll counted (.startTransaction ⟨0⟩ :: retouching ++ [.abort ⟨0⟩])) := by
  refine (abandoned_retouching.restored_iff (by simp [retouching, Call.session?])).2 ?_
  intro name rid first hfirst key
  have hcollections : counted.collections =
      [("C", { records := [("a", [("_id", .string "a"), ("n", .int 1)])] })] := rfl
  -- there is only one record
  simp only [record?, collection, collection?, hcollections, Members.lookup_cons] at hfirst
  by_cases hname : name = "C"
  · subst hname
    by_cases hrid : rid = "a"
    · subst hrid
      obtain rfl : [("_id", .string "a"), ("n", .int 1)] = first := Option.some.inj hfirst
      have hforms : forms ((Abandoned.started counted ⟨0⟩).history ⟨0⟩ "C" "a" retouching) =
          [[("_id", .string "a"), ("n", .int 2)]] := rfl
      rw [valuesOf, hforms]
      by_cases hid : key = "_id"
      · subst hid
        rfl
      by_cases hn : key = "n"
      · subst hn
        rfl
      · simp only [List.map, Members.lookup_cons, hid, hn, if_false]
        rfl
    · simp [Members.lookup_cons, hrid] at hfirst
  · simp [hname] at hfirst

/-- A transaction that sets a number to NaN. -/
def blurring : List Call := [.update "C" .all { set := [("n", .double .nan)] } (some ⟨0⟩)]

/-- **A rollback does not restore every value**: the number stays NaN. -/
theorem not_restored_blurring :
    ¬Restored counted
      (runAll counted (.startTransaction ⟨0⟩ :: blurring ++ [.abort ⟨0⟩])) := by
  intro h
  have hafter :
      (runAll counted (.startTransaction ⟨0⟩ :: blurring ++ [.abort ⟨0⟩])).record? "C" "a" =
      some [("_id", .string "a"), ("n", .double .nan)] := rfl
  have hbefore : counted.record? "C" "a" = some [("_id", .string "a"), ("n", .int 1)] := rfl
  have hcell := h "C" "a" "n"
  rw [hafter, hbefore] at hcell
  exact absurd (Option.some.inj (Option.some.inj hcell)) (by simp)

end Store

end ObjectEngine
