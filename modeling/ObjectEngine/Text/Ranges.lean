import ObjectEngine.Sorting

/-!
# Character ranges

A property of characters is a list of ranges of code points. A table writes it as pairs of
numbers: how far the range starts after the end of the one before, and how far it reaches.
Ranges of several properties join into one list (`Ranges.join`), which holds what one of them
holds (`contains_join`); what ranges leave out and what lies between two code points are again
lists of ranges (`Ranges.gaps`, `contains_gaps`; `Ranges.clip`, `contains_clip`).

A map from characters to characters is a list of runs: characters at even steps that all
move by one distance. Characters in no run stay. A map takes characters one by one
(`Runs.image`, `Runs.sources`) or by whole ranges (`Runs.imageOf`, `Runs.sourcesOf`).
-/

namespace ObjectEngine

namespace Text

/-- Ranges of code points, both ends included. -/
abbrev Ranges := List (Nat × Nat)

namespace Ranges

/-- Whether a code point is in one of the ranges. -/
def contains (ranges : Ranges) (n : Nat) : Bool :=
  ranges.any fun r => r.1 ≤ n && n ≤ r.2

/-- The ranges that pairs of distances describe, after `last`. -/
def ofDistances (last : Nat) : List Nat → Ranges
  | gap :: length :: rest =>
    let start := last + gap
    (start, start + length) :: ofDistances (start + length) rest
  | _ => []

/-- The ranges of a table. -/
def ofTable (table : List Nat) : Ranges := ofDistances 0 table

/-- A range and those that follow it in order, where ranges that touch become one. -/
def coalesceFrom (r : Nat × Nat) : Ranges → Ranges
  | [] => [r]
  | s :: rest =>
    if s.1 ≤ r.2 + 1 then coalesceFrom (r.1, max r.2 s.2) rest else r :: coalesceFrom s rest

/-- Ranges in order, where those that touch become one. -/
def coalesce : Ranges → Ranges
  | [] => []
  | r :: rest => coalesceFrom r rest

/-- The order of ranges by their starts. -/
def startsBefore (a b : Nat × Nat) : Bool := a.1 ≤ b.1

/-- The ranges of several properties in order. -/
def mergeAll (parts : List Ranges) : Ranges := parts.foldr (Sorting.merge startsBefore) []

/-- The characters of several properties. -/
def join (parts : List Ranges) : Ranges := coalesce (mergeAll parts)

/-- What ranges in order leave out, from `next` to the last code point. -/
def gaps (next : Nat) : Ranges → Ranges
  | [] => if next ≤ 0x10FFFF then [(next, 0x10FFFF)] else []
  | (first, last) :: rest =>
    if next < first then (next, first - 1) :: gaps (last + 1) rest else gaps (last + 1) rest

/-- The characters of one list of ranges that another does not hold. -/
def without (a b : Ranges) : Ranges := gaps 0 (join [gaps 0 a, b])

/-- The characters that two lists of ranges share. -/
def inter (a b : Ranges) : Ranges := gaps 0 (join [gaps 0 a, gaps 0 b])

/-- The part of ranges from one code point to another. -/
def clip (first last : Nat) (ranges : Ranges) : Ranges :=
  ranges.filterMap fun r =>
    if max first r.1 ≤ min last r.2 then some (max first r.1, min last r.2) else none

/-! ### What the ranges hold -/

/-- Ranges by their starts. -/
def InOrder (ranges : Ranges) : Prop :=
  ranges.Pairwise fun a b => a.1 ≤ b.1

theorem contains_cons (r : Nat × Nat) (rest : Ranges) (n : Nat) :
    contains (r :: rest) n = ((r.1 ≤ n && n ≤ r.2) || contains rest n) := rfl

/-- Joining ranges that touch loses no character and adds none. -/
theorem contains_coalesceFrom {r : Nat × Nat} {rest : Ranges} (h : InOrder (r :: rest)) (n : Nat) :
    contains (coalesceFrom r rest) n = contains (r :: rest) n := by
  induction rest generalizing r with
  | nil => rfl
  | cons s rest ih =>
    obtain ⟨hr, hs⟩ := List.pairwise_cons.1 h
    have hrs : r.1 ≤ s.1 := hr s List.mem_cons_self
    rw [coalesceFrom]
    split
    case isTrue touch =>
      have hjoined : InOrder ((r.1, max r.2 s.2) :: rest) :=
        List.pairwise_cons.2 ⟨fun t ht => hr t (List.mem_cons_of_mem _ ht),
          (List.pairwise_cons.1 hs).2⟩
      rw [ih hjoined, contains_cons, contains_cons, contains_cons, ← Bool.or_assoc]
      congr 1
      rw [Bool.eq_iff_iff]
      simp only [Bool.and_eq_true, Bool.or_eq_true, decide_eq_true_eq]
      omega
    case isFalse => rw [contains_cons, ih hs, contains_cons r]

theorem contains_coalesce {ranges : Ranges} (h : InOrder ranges) (n : Nat) :
    contains (coalesce ranges) n = contains ranges n := by
  cases ranges with
  | nil => rfl
  | cons r rest => exact contains_coalesceFrom h n

theorem mergeAll_inOrder {parts : List Ranges} (h : ∀ p ∈ parts, InOrder p) :
    InOrder (mergeAll parts) := by
  induction parts with
  | nil => exact .nil
  | cons p parts ih =>
    have hp : Sorting.Ordered startsBefore p :=
      (h p List.mem_cons_self).imp (by simp [startsBefore])
    have hparts : Sorting.Ordered startsBefore (mergeAll parts) :=
      (ih fun q hq => h q (List.mem_cons_of_mem _ hq)).imp (by simp [startsBefore])
    refine List.Pairwise.imp (fun hab => ?_)
      (Sorting.merge_ordered (fun a b => ?_) (fun a b c => ?_) hp hparts)
    · simpa [startsBefore] using hab
    · simpa [startsBefore] using Nat.le_total a.1 b.1
    · simpa [startsBefore] using Nat.le_trans

theorem contains_mergeAll (parts : List Ranges) (n : Nat) :
    contains (mergeAll parts) n = parts.any (contains · n) := by
  induction parts with
  | nil => rfl
  | cons p parts ih =>
    rw [List.any_cons, ← ih, mergeAll, List.foldr_cons, contains, (Sorting.merge_perm ..).any_eq,
      List.any_append]
    rfl

/-- **The joined ranges hold what one of the lists holds.** -/
theorem contains_join {parts : List Ranges} (h : ∀ p ∈ parts, InOrder p) (n : Nat) :
    contains (join parts) n = parts.any (contains · n) :=
  (contains_coalesce (mergeAll_inOrder h) n).trans (contains_mergeAll parts n)

/-- **The clipped ranges hold what the ranges hold between the ends.** -/
theorem contains_clip (first last : Nat) (ranges : Ranges) (n : Nat) :
    contains (clip first last ranges) n = (first ≤ n && n ≤ last && contains ranges n) := by
  induction ranges with
  | nil => simp [clip, contains]
  | cons r rest ih =>
    have one : contains (clip first last [r]) n =
        (first ≤ n && n ≤ last && (r.1 ≤ n && n ≤ r.2)) := by
      rw [Bool.eq_iff_iff]
      by_cases h : max first r.1 ≤ min last r.2
      · rw [show clip first last [r] = [(max first r.1, min last r.2)] by
          simp only [clip, List.filterMap_cons, List.filterMap_nil, if_pos h]]
        simp only [contains, List.any_cons, List.any_nil, Bool.or_false, Bool.and_eq_true,
          decide_eq_true_eq]
        omega
      · rw [show clip first last [r] = [] by
          simp only [clip, List.filterMap_cons, List.filterMap_nil, if_neg h]]
        simp only [contains, List.any_nil, Bool.and_eq_true, decide_eq_true_eq,
          Bool.false_eq_true, false_iff]
        omega
    have split : contains (clip first last (r :: rest)) n =
        (contains (clip first last [r]) n || contains (clip first last rest) n) := by
      rw [contains, contains, contains, ← List.any_append, clip, clip, clip,
        ← List.filterMap_append]
      rfl
    rw [split, one, ih, contains_cons, Bool.and_or_distrib_left]

/-- **The gaps hold what the ranges leave out.** -/
theorem contains_gaps {next : Nat} {ranges : Ranges}
    (apart : ranges.Pairwise fun a b => a.2 < b.1)
    (bounded : ∀ r ∈ ranges, next ≤ r.1 ∧ r.1 ≤ r.2 ∧ r.2 ≤ 0x10FFFF) (n : Nat) :
    contains (gaps next ranges) n =
      (next ≤ n && n ≤ 0x10FFFF && !contains ranges n) := by
  induction ranges generalizing next with
  | nil =>
    rw [gaps]
    split
    · simp [contains]
    · simp [contains]
      omega
  | cons r rest ih =>
    obtain ⟨hfirst, hrest⟩ := List.pairwise_cons.1 apart
    obtain ⟨hnext, hr, hlast⟩ := bounded r List.mem_cons_self
    have later : contains (gaps (r.2 + 1) rest) n =
        (r.2 + 1 ≤ n && n ≤ 0x10FFFF && !contains rest n) :=
      ih hrest fun s hs => ⟨hfirst s hs, (bounded s (List.mem_cons_of_mem _ hs)).2⟩
    have skipped : n < r.2 + 1 → contains rest n = false := fun hn => by
      refine List.any_eq_false.2 fun s hs => ?_
      have := hfirst s hs
      simp only [Bool.and_eq_true, decide_eq_true_eq]
      omega
    rw [gaps]
    cases hc : contains rest n with
    | true =>
      have hn : ¬n < r.2 + 1 := fun hn => by simp [skipped hn] at hc
      split
      · simp [contains_cons, later, hc]
        omega
      · simp [contains_cons, later, hc]
    | false =>
      rw [Bool.eq_iff_iff]
      split
      · simp [contains_cons, later, hc]
        omega
      · simp [contains_cons, later, hc]
        omega

end Ranges

/-- A property of characters under the names that the standard gives it. -/
structure NamedRanges where
  names : List String
  ranges : Ranges
  deriving Inhabited

namespace NamedRanges

/-- The property of a name. -/
def find? (properties : List NamedRanges) (name : String) : Option Ranges :=
  (properties.find? fun p => p.names.contains name).map (·.ranges)

end NamedRanges

/-! ### Runs of characters that move -/

/-- The characters from `first` to `last`, `step` apart, which move by `distance`. -/
structure Run where
  first : Nat
  last : Nat
  step : Nat
  distance : Int
  deriving Inhabited

namespace Run

/-- Whether a code point is in the run. -/
def covers (r : Run) (n : Nat) : Bool :=
  r.first ≤ n && n ≤ r.last && (n - r.first) % r.step = 0

/-- The code point `distance` away from another. -/
def shift (n : Nat) (distance : Int) : Nat := ((n : Int) + distance).toNat

/-- The run that moves the characters back. -/
def back (r : Run) : Run :=
  ⟨shift r.first r.distance, shift r.last r.distance, r.step, -r.distance⟩

/-- Where the characters of ranges go that the run covers. -/
def imageOf (r : Run) (ranges : Ranges) : Ranges :=
  let near := Ranges.clip r.first r.last ranges
  let covered : Ranges :=
    if r.step = 1 then near
    else (List.range ((r.last - r.first) / r.step + 1)).filterMap fun i =>
      let n := r.first + i * r.step
      if Ranges.contains near n then some (n, n) else none
  covered.map fun s => (shift s.1 r.distance, shift s.2 r.distance)

end Run

/-- A map by runs, the first that covers a character counting. -/
abbrev Runs := List Run

namespace Runs

/-- Where a character goes. -/
def image (runs : Runs) (c : Char) : Char :=
  match runs.find? fun r => r.covers c.toNat with
  | some r => Char.ofNat (Run.shift c.toNat r.distance)
  | none => c

/-- The characters of the runs that move to a character. -/
def sources (runs : Runs) (c : Char) : List Char :=
  runs.filterMap fun r =>
    let n := Run.shift c.toNat (-r.distance)
    if r.covers n then some (Char.ofNat n) else none

/-- Where the characters of ranges go that move. -/
def imageOf (runs : Runs) (ranges : Ranges) : Ranges :=
  Ranges.join (runs.map (·.imageOf ranges))

/-- The characters that move into ranges. -/
def sourcesOf (runs : Runs) (ranges : Ranges) : Ranges :=
  Ranges.join (runs.map (·.back.imageOf ranges))

end Runs

end Text

end ObjectEngine
