import ObjectEngine.Proofs.Store.Rollback

/-!
# Writes from outside a transaction

While a transaction is open, others may write to the records that it has written. A rollback is
meant to leave their writes alone. It has no record of them, and infers them: an update is taken
back where the value is still the one it wrote, an insertion whenever there is a record, and a
removal whenever there is none.

`Store.Revision.Spares` says which writes of the transaction, taken back, leave a value alone.
`Store.Abandoned.keeps_iff` is the result: the value that a write from outside left to a member
stays through the whole rollback if and only if all writes of the transaction before it spare it.
An insertion spares no record that others have put in its place since
(`Store.not_kept_replacing`).
-/

namespace ObjectEngine

namespace Store

open Datum

variable {s : Store} {id : SessionId} {calls : List Call} {closing : Call} {key : String}

/-! ### One write taken back -/

/-- **A write of a transaction that spares a value** of a member when it is taken back. An
insertion spares only that there is no record, and a removal only that there is one. An update
spares a member that it did not change, and a value that is not equal to the one it wrote. -/
def Revision.Spares (v : Revision) (key : String) (x : Option (Option Datum)) : Prop :=
  match cell key v.before, cell key v.after with
  | none, _ => x = none
  | some _, none => x ≠ none
  | some before, some after =>
    sameOption before after = true ∨ ∀ y, x = some y → sameOption y after = false

theorem revertedValue_eq_iff {before after x : Option Datum} :
    revertedValue before after x = x ↔
      sameOption before after = true ∨ sameOption x after = false := by
  cases hsame : sameOption before after with
  | true => simp [revertedValue, hsame]
  | false =>
    cases hx : sameOption x after with
    | false => simp [revertedValue, hx]
    | true =>
      -- the value would be the one of before, which the write has changed
      have hne : before ≠ x := by
        rintro rfl
        exact absurd (hsame.symm.trans hx) (by simp)
      simp [revertedValue, hsame, hx, hne]

/-- **To spare a value is to leave it as it is.** -/
theorem Revision.spares_iff {v : Revision} {x : Option (Option Datum)} :
    v.Spares key x ↔ revertedCell (cell key v.before) (cell key v.after) x = x := by
  unfold Revision.Spares revertedCell
  cases cell key v.before with
  | none => exact eq_comm
  | some before =>
    cases cell key v.after with
    | none => cases x <;> simp
    | some after =>
      cases x with
      | none => simp
      | some y => simp [revertedValue_eq_iff]

theorem cell_rewound_cons (v : Revision) (vs : List Revision) (r : Option Record) :
    cell key (rewound (v :: vs) r) =
      if v.inside then
        revertedCell (cell key v.before) (cell key v.after) (cell key (rewound vs r))
      else cell key (rewound vs r) := by
  cases hv : v.inside with
  | true =>
    have hstep : rewound (v :: vs) r = takenBack v.before v.after (rewound vs r) := if_pos hv
    rw [hstep, cell_takenBack, if_pos rfl]
  | false =>
    have hstep : rewound (v :: vs) r = rewound vs r := if_neg (by simp [hv])
    rw [hstep, if_neg Bool.false_ne_true]

/-! ### A rollback -/

/-- Writes that keep a member are taken back without a change of it. -/
theorem cell_rewound_of_keeps {vs : List Revision} {first last : Option Record}
    (hleads : Leads first vs last) (hkeep : ∀ v ∈ vs, cell key v.after = cell key first) :
    cell key (rewound vs last) = cell key first := by
  induction vs generalizing first with
  | nil =>
    obtain rfl : first = last := hleads
    rfl
  | cons v vs ih =>
    obtain ⟨rfl, hrest⟩ := hleads
    have hv : cell key v.after = cell key v.before := hkeep v List.mem_cons_self
    have hlater : cell key (rewound vs last) = cell key v.before := by
      rw [← hv]
      exact ih hrest fun w hw => (hkeep w (List.mem_cons_of_mem _ hw)).trans hv.symm
    have hself : revertedCell (cell key v.before) (cell key v.before) (cell key v.before) =
        cell key v.before := by
      cases cell key v.before with
      | none => rfl
      | some x => exact congrArg some (revertedValue_self x)
    rw [cell_rewound_cons, hv, hlater, hself, ite_self]

/-- **The revisions before a value are taken back**, and the value stays all along, if and only
if those of the transaction spare it. -/
theorem forall_cell_rewound_iff {earlier rest : List Revision} {last : Option Record}
    {x : Option (Option Datum)} (hrest : cell key (rewound rest last) = x) :
    (∀ undone, undone <:+ earlier → cell key (rewound (undone ++ rest) last) = x) ↔
      ∀ v ∈ earlier, v.inside = true → v.Spares key x := by
  constructor
  · intro hkept v hv hinside
    obtain ⟨before, after, rfl⟩ := List.append_of_mem hv
    have hafter := hkept after ((List.suffix_cons v after).trans (List.suffix_append ..))
    have hnow := hkept (v :: after) (List.suffix_append ..)
    rw [List.cons_append, cell_rewound_cons, if_pos hinside, hafter] at hnow
    exact Revision.spares_iff.2 hnow
  · intro hspares undone
    -- the revisions are taken back from the last to the first
    induction undone with
    | nil => exact fun _ => hrest
    | cons v undone ih =>
      intro hsuffix
      have hnow := ih ((List.suffix_cons v undone).trans hsuffix)
      rw [List.cons_append, cell_rewound_cons, hnow]
      cases hinside : v.inside with
      | true =>
        exact Revision.spares_iff.1 (hspares v (hsuffix.subset List.mem_cons_self) hinside)
      | false => rfl

namespace Abandoned

/-- **What a rollback keeps of the writes from outside.** Of a record whose history is known, a
write `o` from outside is the last to change a member. The record after the rollback is its
history rewound. The member has the value that `o` left to it after every step of the rollback,
and so in the end, if and only if all writes of the transaction before `o` spare that value. -/
theorem keeps_iff (h : Abandoned s id calls closing) (key : String) {name rid : String}
    {earlier later : List Revision} {o : Revision}
    (hhistory : (started s id).history id name rid calls = earlier ++ o :: later)
    (houtside : o.inside = false) (hlater : ∀ v ∈ later, cell key v.after = cell key o.after) :
    let last := (runAll s (.startTransaction id :: calls)).record? name rid
    (runAll s (.startTransaction id :: calls ++ [closing])).record? name rid =
      rewound (earlier ++ o :: later) last ∧
    ((∀ undone, undone <:+ earlier →
        cell key (rewound (undone ++ o :: later) last) = cell key o.after) ↔
      ∀ v ∈ earlier, v.inside = true → v.Spares key (cell key o.after)) := by
  intro last
  have hleads := h.leads name rid
  rw [hhistory] at hleads
  obtain ⟨before, -, -, hleads⟩ := leads_append.1 hleads
  have hrest : cell key (rewound (o :: later) last) = cell key o.after := by
    rw [cell_rewound_cons, houtside, if_neg Bool.false_ne_true]
    exact cell_rewound_of_keeps hleads hlater
  refine ⟨?_, forall_cell_rewound_iff hrest⟩
  rw [h.record?_after, hhistory]

end Abandoned

/-! ### Two rollbacks -/

/-- A transaction updates a record, and then others add a member to it. -/
def annotating : List Call :=
  [.update "C" .all { set := [("n", .int 2)] } (some ⟨0⟩),
    .update "C" .all { set := [("m", .int 5)] } none]

theorem abandoned_annotating : Abandoned counted ⟨0⟩ annotating (.abort ⟨0⟩) where
  wellFormed := wellFormed_counted
  starts := ⟨(), rfl⟩
  writes := by simp [annotating, Call.Writes]
  closes := .inl rfl
  succeeds := ⟨(), rfl⟩

theorem keeps_iff_annotating :
    cell "m" ((runAll counted (.startTransaction ⟨0⟩ :: annotating ++ [.abort ⟨0⟩])).record?
      "C" "a") = some (some (.int 5)) := by
  have hhistory : (Abandoned.started counted ⟨0⟩).history ⟨0⟩ "C" "a" annotating =
      [⟨true, some [("_id", .string "a"), ("n", .int 1)],
        some [("_id", .string "a"), ("n", .int 2)]⟩] ++
      ⟨false, some [("_id", .string "a"), ("n", .int 2)],
        some [("_id", .string "a"), ("m", .int 5), ("n", .int 2)]⟩ :: [] := rfl
  obtain ⟨hafter, hkept⟩ := abandoned_annotating.keeps_iff "m" hhistory rfl
    fun v hv => absurd hv List.not_mem_nil
  rw [hafter]
  refine hkept.2 (fun v hv _ => ?_) _ List.suffix_rfl
  obtain rfl := List.mem_singleton.1 hv
  exact .inl rfl

/-- A transaction inserts a record, and others remove it and put one of their own there. -/
def replacing : List Call :=
  [.insert "C" [("_id", .string "b"), ("n", .int 2)] (some ⟨0⟩),
    .delete "C" (.byId "b") none,
    .insert "C" [("_id", .string "b"), ("n", .int 7)] none]

/-- **A rollback does not keep every write from outside**: the record that others have put in is
removed as if it were the transaction's. -/
theorem not_kept_replacing :
    ¬∀ earlier o, (Abandoned.started counted ⟨0⟩).history ⟨0⟩ "C" "b" replacing = earlier ++ [o] →
      o.inside = false →
      (runAll counted (.startTransaction ⟨0⟩ :: replacing ++ [.abort ⟨0⟩])).record? "C" "b" =
        o.after := by
  intro h
  have hhistory : (Abandoned.started counted ⟨0⟩).history ⟨0⟩ "C" "b" replacing =
      [⟨true, none, some [("_id", .string "b"), ("n", .int 2)]⟩,
        ⟨false, some [("_id", .string "b"), ("n", .int 2)], none⟩] ++
      [⟨false, none, some [("_id", .string "b"), ("n", .int 7)]⟩] := rfl
  have hafter :
      (runAll counted (.startTransaction ⟨0⟩ :: replacing ++ [.abort ⟨0⟩])).record? "C" "b" =
        none := rfl
  exact absurd (hafter.symm.trans (h _ _ hhistory rfl)) (by simp)

end Store

end ObjectEngine
