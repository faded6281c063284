/-!
# Merging ordered lists

`Sorting.merge` merges two ordered lists, and `Sorting.sort` sorts by merging in one item after
another. Both are stable: of items that may precede each other, the earlier comes first. A
merge holds the items of both lists (`merge_perm`) and is ordered if they are
(`merge_ordered`), so `Sorting.sort` answers the items of a list in order (`sort_perm`,
`sort_ordered`).
-/

namespace ObjectEngine

namespace Sorting

variable {α : Type}

/-- Merges two ordered lists. An item of the first list goes before what it may precede. -/
def merge (le : α → α → Bool) : List α → List α → List α
  | [], bs => bs
  | a :: as, bs => bs.takeWhile (!le a ·) ++ a :: merge le as (bs.dropWhile (!le a ·))

/-- The items of a list in order. -/
def sort (le : α → α → Bool) (items : List α) : List α :=
  items.foldr (fun a sorted => merge le [a] sorted) []

/-! ### The items -/

theorem merge_perm (le : α → α → Bool) (as bs : List α) :
    (merge le as bs).Perm (as ++ bs) := by
  induction as generalizing bs with
  | nil => exact .refl bs
  | cons a as ih =>
    have split : (bs.takeWhile (!le a ·) ++ bs.dropWhile (!le a ·)).Perm bs := by
      rw [List.takeWhile_append_dropWhile]
    refine (List.perm_middle).trans (.cons a ?_)
    refine ((ih _).append_left _).trans ?_
    refine (List.perm_append_comm_assoc _ _ _).trans ?_
    exact split.append_left as

theorem sort_perm (le : α → α → Bool) (items : List α) : (sort le items).Perm items := by
  induction items with
  | nil => exact .refl []
  | cons a rest ih => exact (merge_perm le [a] _).trans (.cons a ih)

/-! ### The order -/

/-- Items each of which may precede all that follow. -/
def Ordered (le : α → α → Bool) (items : List α) : Prop :=
  items.Pairwise fun a b => le a b = true

theorem merge_ordered {le : α → α → Bool} (total : ∀ a b, le a b = true ∨ le b a = true)
    (trans : ∀ a b c, le a b = true → le b c = true → le a c = true) {as bs : List α}
    (ha : Ordered le as) (hb : Ordered le bs) : Ordered le (merge le as bs) := by
  induction as generalizing bs with
  | nil => exact hb
  | cons a as ih =>
    obtain ⟨hfirst, hrest⟩ := List.pairwise_cons.1 ha
    have htake : ∀ b ∈ bs.takeWhile (!le a ·), le b a = true := fun b hmem => by
      have := List.all_eq_true.1 List.all_takeWhile b hmem
      exact (total a b).resolve_left (by simpa using this)
    have hdrop : ∀ b ∈ bs.dropWhile (!le a ·), le a b = true := by
      cases hd : bs.dropWhile (!le a ·) with
      | nil => simp
      | cons d ds =>
        have hd1 : le a d = true := by
          have := List.head?_dropWhile_not (!le a ·) bs
          rw [hd] at this
          simpa using this
        have hds : Ordered le (d :: ds) := hd ▸ hb.sublist (List.dropWhile_sublist _)
        intro b hmem
        rcases List.mem_cons.1 hmem with rfl | hmem
        · exact hd1
        · exact trans _ _ _ hd1 ((List.pairwise_cons.1 hds).1 b hmem)
    have hmerge : ∀ b ∈ merge le as (bs.dropWhile (!le a ·)), le a b = true := fun b hmem => by
      rcases List.mem_append.1 ((merge_perm le _ _).mem_iff.1 hmem) with hmem | hmem
      · exact hfirst b hmem
      · exact hdrop b hmem
    refine List.pairwise_append.2 ⟨hb.sublist (List.takeWhile_sublist _), ?_, ?_⟩
    · exact List.pairwise_cons.2 ⟨hmerge, ih hrest (hb.sublist (List.dropWhile_sublist _))⟩
    · intro b hmem c hc
      rcases List.mem_cons.1 hc with rfl | hc
      · exact htake b hmem
      · exact trans _ _ _ (htake b hmem) (hmerge c hc)

theorem sort_ordered {le : α → α → Bool} (total : ∀ a b, le a b = true ∨ le b a = true)
    (trans : ∀ a b c, le a b = true → le b c = true → le a c = true) (items : List α) :
    Ordered le (sort le items) := by
  induction items with
  | nil => exact .nil
  | cons a rest ih => exact merge_ordered total trans (List.pairwise_singleton _ a) ih

end Sorting

end ObjectEngine
