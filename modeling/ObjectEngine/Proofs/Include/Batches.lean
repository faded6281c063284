import Mathlib.Algebra.BigOperators.Group.Finset.Basic
import Mathlib.Algebra.Order.Floor.Div
import ObjectEngine.Proofs.Include.Answers

/-!
# Batches of references

A level collects its references into a list without repetitions (`Includes.nodup_targetSet`), and
asks for their objects class by class, in pieces of bounded length. Each reference is in one piece
and no other is in any (`Includes.flatMap_batches`), and a class takes as many pieces as its
references need (`Includes.length_batches`).
-/

namespace ObjectEngine

namespace Includes

/-! ### Sets of references -/

theorem mem_insertTarget {p q : Pointer} {ps : List Pointer} :
    q ∈ insertTarget p ps ↔ q = p ∨ q ∈ ps := by
  induction ps with
  | nil => rw [insertTarget, List.mem_singleton]; simp
  | cons first rest ih =>
    rw [insertTarget]
    split
    · exact List.mem_cons
    split
    case isTrue heq =>
      subst heq
      simp
    case isFalse => rw [List.mem_cons, ih, List.mem_cons, or_left_comm]

theorem mem_targetSet {q : Pointer} {ps : List Pointer} : q ∈ targetSet ps ↔ q ∈ ps := by
  suffices ∀ acc, q ∈ ps.foldl (fun acc p => insertTarget p acc) acc ↔ q ∈ ps ∨ q ∈ acc by
    simpa [targetSet] using this []
  induction ps with
  | nil => simp
  | cons p rest ih =>
    intro acc
    rw [List.foldl_cons, ih, mem_insertTarget, List.mem_cons, or_assoc, or_left_comm]

theorem pointerLt_iff {p q : Pointer} : pointerLt p q = true ↔
    p.className < q.className ∨ p.className = q.className ∧ p.objectId < q.objectId := by
  simp [pointerLt]

theorem not_pointerLt_self (p : Pointer) : ¬pointerLt p p = true := by
  rw [pointerLt_iff]
  rintro (h | ⟨-, h⟩) <;> exact String.lt_irrefl _ h

theorem pointerLt_trans {p q r : Pointer} (h : pointerLt p q = true) (h' : pointerLt q r = true) :
    pointerLt p r = true := by
  rw [pointerLt_iff] at *
  rcases h with h | ⟨heq, h⟩ <;> rcases h' with h' | ⟨heq', h'⟩
  · exact .inl (String.lt_trans h h')
  · exact .inl (heq' ▸ h)
  · exact .inl (heq ▸ h')
  · exact .inr ⟨heq.trans heq', String.lt_trans h h'⟩

/-- Of two references one comes first. -/
theorem pointerLt_of_not {p q : Pointer} (h : ¬pointerLt p q = true) (hne : p ≠ q) :
    pointerLt q p = true := by
  rw [pointerLt_iff] at *
  push Not at h
  obtain ⟨hclass, hid⟩ := h
  by_cases heq : p.className = q.className
  · refine .inr ⟨heq.symm, ?_⟩
    refine Decidable.byContradiction fun hlt => hne ?_
    have hsame : p.objectId = q.objectId :=
      String.le_antisymm (String.not_lt.1 hlt) (hid heq)
    exact (Pointer.mk.injEq ..).mpr ⟨heq, hsame⟩
  · refine .inl (Decidable.byContradiction fun hlt => heq ?_)
    exact String.le_antisymm (String.not_lt.1 hlt) hclass

theorem increasing_insertTarget {ps : List Pointer} (hs : ps.Pairwise (pointerLt · · = true))
    (p : Pointer) : (insertTarget p ps).Pairwise (pointerLt · · = true) := by
  induction ps with
  | nil => exact List.pairwise_singleton _ _
  | cons first rest ih =>
    obtain ⟨hfirst, hrest⟩ := List.pairwise_cons.1 hs
    rw [insertTarget]
    split
    case isTrue hlt =>
      refine List.pairwise_cons.2 ⟨fun q hq => ?_, hs⟩
      rcases List.mem_cons.1 hq with rfl | hq
      · exact hlt
      · exact pointerLt_trans hlt (hfirst q hq)
    split
    case isFalse.isTrue => exact hs
    case isFalse.isFalse hlt hne =>
      refine List.pairwise_cons.2 ⟨fun q hq => ?_, ih hrest⟩
      rcases mem_insertTarget.1 hq with rfl | hq
      · exact pointerLt_of_not hlt hne
      · exact hfirst q hq

/-- **A set of references** has each of them once. -/
theorem nodup_targetSet (ps : List Pointer) : (targetSet ps).Nodup := by
  have hsorted : (targetSet ps).Pairwise (pointerLt · · = true) :=
    List.foldlRecOn (motive := fun acc : List Pointer => acc.Pairwise (pointerLt · · = true)) ps _
      .nil fun _ hs p _ => increasing_insertTarget hs p
  refine hsorted.imp ?_
  rintro p _ hlt rfl
  exact not_pointerLt_self p hlt

/-! ### Pieces of a list -/

section Chunks

variable {α : Type} {size : Nat} (hsize : 1 ≤ size)

include hsize

/-- The pieces of a list put together are the list. -/
theorem flatten_chunks {fuel : Nat} {xs : List α} (h : xs.length ≤ fuel) :
    (chunks size fuel xs).flatten = xs := by
  induction fuel generalizing xs with
  | zero => exact (List.eq_nil_of_length_eq_zero (Nat.le_zero.1 h)).symm
  | succ fuel ih =>
    cases xs with
    | nil => rfl
    | cons x rest =>
      have hshorter : ((x :: rest).drop size).length ≤ fuel := by
        rw [List.length_drop]
        omega
      rw [chunks, List.flatten_cons, ih hshorter, List.take_append_drop]
      simp

/-- No piece is empty or too long. -/
theorem length_of_mem_chunks {fuel : Nat} {xs piece : List α} (h : piece ∈ chunks size fuel xs) :
    1 ≤ piece.length ∧ piece.length ≤ size := by
  induction fuel generalizing xs with
  | zero => exact absurd h List.not_mem_nil
  | succ fuel ih =>
    cases xs with
    | nil => exact absurd h List.not_mem_nil
    | cons x rest =>
      rcases List.mem_cons.1 h with rfl | h
      · rw [List.length_take, List.length_cons]
        omega
      · exact ih h

/-- **There are as many pieces** as the length needs. -/
theorem length_chunks {fuel : Nat} {xs : List α} (h : xs.length ≤ fuel) :
    (chunks size fuel xs).length = xs.length ⌈/⌉ size := by
  induction fuel generalizing xs with
  | zero =>
    rw [Nat.le_zero.1 h, zero_ceilDiv]
    rfl
  | succ fuel ih =>
    cases xs with
    | nil => exact (zero_ceilDiv size).symm
    | cons x rest =>
      have hshorter : ((x :: rest).drop size).length ≤ fuel := by
        rw [List.length_drop]
        omega
      have hpos : 1 ≤ (x :: rest).length := Nat.succ_pos _
      rw [chunks, List.length_cons, ih hshorter, List.length_drop]
      · -- the quotient goes down by one with each piece
        generalize (x :: rest).length = n at hpos
        rw [Nat.ceilDiv_eq_add_pred_div, Nat.ceilDiv_eq_add_pred_div]
        rcases Nat.le_total size n with hle | hle
        · rw [show n - size + size - 1 = n - 1 by omega, show n + size - 1 = n - 1 + size by omega,
            Nat.add_div_right _ hsize]
        · rw [show n - size + size - 1 = size - 1 by omega, Nat.div_eq_of_lt (by omega)]
          exact (Nat.div_eq_of_lt_le (by omega) (by omega)).symm
      · simp

end Chunks

/-! ### Batches -/

/-- The references whose objects a batch asks for. -/
def batchPointers (batch : String × List String) : List Pointer :=
  batch.2.map fun id => ⟨batch.1, id⟩

theorem mem_batchPointers {batch : String × List String} {p : Pointer} :
    p ∈ batchPointers batch ↔ batch.1 = p.className ∧ p.objectId ∈ batch.2 := by
  rw [batchPointers, List.mem_map]
  constructor
  · rintro ⟨id, hid, rfl⟩
    exact ⟨rfl, hid⟩
  · rintro ⟨hclass, hid⟩
    exact ⟨p.objectId, hid, by rw [hclass]⟩

section Batches

variable {size : Nat} (hsize : 1 ≤ size) (targets : List Pointer)

include hsize

/-- **The batches together** ask for the references class by class. -/
theorem flatMap_batches : (batches size targets).flatMap batchPointers =
    (NameSet.ofList (targets.map Pointer.className)).flatMap fun c =>
      targets.filter fun p => p.className = c := by
  simp only [batches, List.flatMap_assoc, List.flatMap_map]
  refine congrArg (fun f => List.flatMap f _) (funext fun c => ?_)
  obtain ⟨ps, hps⟩ : ∃ ps, ps = targets.filter fun p => p.className = c := ⟨_, rfl⟩
  have hclass : ∀ p ∈ ps, p.className = c := fun p hp => by
    rw [hps] at hp
    exact of_decide_eq_true (List.mem_filter.1 hp).2
  -- the ids of one class, cut into pieces and put together again
  rw [← hps]
  change (chunks size _ (ps.map Pointer.objectId)).flatMap (List.map fun id => ⟨c, id⟩) = ps
  rw [List.flatMap_def, ← List.map_flatten, flatten_chunks hsize (Nat.le_refl _), List.map_map]
  refine (List.map_congr_left fun p hp => ?_).trans (List.map_id ps)
  rw [Function.comp_apply, ← hclass p hp, id]

/-- The batches ask for the references and no other. -/
theorem mem_flatMap_batches {p : Pointer} :
    p ∈ (batches size targets).flatMap batchPointers ↔ p ∈ targets := by
  rw [flatMap_batches hsize, List.mem_flatMap]
  constructor
  · rintro ⟨c, -, hp⟩
    exact (List.mem_filter.1 hp).1
  · intro hp
    exact ⟨p.className, NameSet.mem_ofList.2 (List.mem_map_of_mem hp),
      List.mem_filter.2 ⟨hp, by simp⟩⟩

variable {targets}

/-- **No reference is asked for twice.** -/
theorem nodup_flatMap_batches (hnodup : targets.Nodup) :
    ((batches size targets).flatMap batchPointers).Nodup := by
  rw [flatMap_batches hsize, List.nodup_flatMap]
  refine ⟨fun c _ => hnodup.filter _, (NameSet.nodup_ofList _).imp fun hne => ?_⟩
  refine List.disjoint_left.2 fun p hp hp' => hne ?_
  exact (of_decide_eq_true (List.mem_filter.1 hp).2).symm.trans
    (of_decide_eq_true (List.mem_filter.1 hp').2)

/-- A batch has at least one id and at most as many as it may. -/
theorem length_of_mem_batches {batch : String × List String} (h : batch ∈ batches size targets) :
    1 ≤ batch.2.length ∧ batch.2.length ≤ size := by
  obtain ⟨c, -, h⟩ := List.mem_flatMap.1 h
  obtain ⟨ids, hids, rfl⟩ := List.mem_map.1 h
  exact length_of_mem_chunks hsize hids

/-- **The number of batches**, class by class. -/
theorem length_batches (hnodup : targets.Nodup) : (batches size targets).length =
    ∑ c ∈ targets.toFinset.image Pointer.className,
      (targets.toFinset.filter fun p => p.className = c).card ⌈/⌉ size := by
  have hclasses : targets.toFinset.image Pointer.className =
      (NameSet.ofList (targets.map Pointer.className)).toFinset := by
    ext c
    simp [NameSet.mem_ofList]
  have hcount (c : String) : (targets.toFinset.filter fun p => p.className = c).card =
      (targets.filter fun p => p.className = c).length := by
    rw [← List.toFinset_card_of_nodup (hnodup.filter _)]
    refine congrArg Finset.card (Finset.ext fun p => ?_)
    simp
  rw [hclasses, List.sum_toFinset _ (NameSet.nodup_ofList _), batches, List.length_flatMap]
  refine congrArg List.sum (List.map_congr_left fun c _ => ?_)
  rw [List.length_map, length_chunks hsize (Nat.le_refl _), List.length_map, hcount]

end Batches

end Includes

end ObjectEngine
