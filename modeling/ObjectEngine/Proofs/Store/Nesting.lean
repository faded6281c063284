import ObjectEngine.Proofs.Store.Applying
import ObjectEngine.Proofs.Text.Reading

/-!
# Records in records

A path leads from a record to the records in it, one key after another. A path that is removed
takes away what stands there (`Record.missing_unsetPath`), leaves the members beside it
(`Record.lookup_unsetAlong_cons`), and restores nothing (`Record.Missing.unsetPath`). A change at a
path is a change of the innermost record, as long as there is no other value on the way
(`Record.alterAlong_cons`).
-/

namespace ObjectEngine

/-! ### Pieces of a path -/

namespace Text

theorem splitChars_append {sep : Char} {a : List Char} (ha : sep ∉ a) (b : List Char) :
    splitChars sep (a ++ sep :: b) = a :: splitChars sep b := by
  induction a with
  | nil => rw [List.nil_append, splitChars, if_pos rfl]
  | cons c rest ih =>
    obtain ⟨hc, hrest⟩ := not_or.1 (mt List.mem_cons.2 ha)
    rw [List.cons_append, splitChars, if_neg (Ne.symm hc), ih hrest]

/-- **A text is cut** at the separator after a piece. -/
theorem split_append {a : String} (ha : '.' ∉ a.toList) (b : String) :
    split '.' (a ++ "." ++ b) = a :: split '.' b := by
  have htext : (a ++ "." ++ b).toList = a.toList ++ '.' :: b.toList := by
    rw [String.toList_append, String.toList_append, List.append_assoc]
    rfl
  rw [split, htext, splitChars_append ha, List.map_cons, String.ofList_toList, split]

/-- A text has at least one piece. -/
theorem split_ne_nil (s : String) : split '.' s ≠ [] := by
  intro h
  have hhead := head?_split s
  rw [h] at hhead
  exact absurd hhead (by simp)

/-- A text of one piece is that piece. -/
theorem eq_of_split {s piece : String} (h : split '.' s = [piece]) :
    s = piece ∧ '.' ∉ s.toList := by
  have hdot : '.' ∉ s.toList := by
    intro hmem
    obtain ⟨a, b, hs, ha⟩ := List.eq_append_cons_of_mem hmem
    have htext : s = String.ofList a ++ "." ++ String.ofList b := by
      rw [← String.toList_inj, hs]
      simp
    rw [htext, split_append (by rwa [String.toList_ofList])] at h
    exact split_ne_nil _ (List.cons_eq_cons.1 h).2
  exact ⟨List.singleton_inj.1 ((split_of_not_mem hdot).symm.trans h), hdot⟩

end Text

/-! ### Records in records -/

/-- The members of a record, and none of any other value. -/
def Datum.members : Datum → Record
  | .record members => members
  | _ => []

namespace Record

/-- The record under a key, empty if there is none. -/
def nested (key : String) (r : Record) : Record := ((r.lookup key).map Datum.members).getD []

/-- What stands under the key, if anything does, is a record. -/
def Nests (key : String) (r : Record) : Prop :=
  ∀ d, r.lookup key = some d → ∃ members, d = .record members

theorem nested_congr {key : String} {r r' : Record} (h : r.lookup key = r'.lookup key) :
    nested key r = nested key r' := by
  rw [nested, nested, h]

theorem nested_of_lookup {key : String} {members r : Record}
    (h : r.lookup key = some (.record members)) : nested key r = members := by
  rw [nested, h]
  rfl

theorem nested_insert (key name : String) (members r : Record) :
    nested key (Members.insert name (.record members) r) =
      if key = name then members else nested key r := by
  unfold nested
  rw [Members.lookup_insert]
  split <;> rfl

end Record

/-! ### Removing along a path -/

/-- A value without what stands below it along a path. -/
def Datum.without (segments : List String) : Datum → Datum
  | .record members => .record (Record.unsetAlong segments members)
  | d => d

namespace Record

variable {s key : String} {rest segments place : List String} {r : Record}

theorem lookup_unsetAlong_cons (s key : String) (rest : List String) (r : Record) :
    (unsetAlong (s :: rest) r).lookup key =
      if key = s then if rest = [] then none else (r.lookup key).map (Datum.without rest)
      else r.lookup key := by
  cases rest with
  | nil =>
    rw [unsetAlong, Members.lookup_erase]
    simp
  | cons s' rest =>
    have hsame : (r.lookup s).map (Datum.without (s' :: rest)) =
        (unsetAlong (s :: s' :: rest) r).lookup s := by
      rw [unsetAlong]
      · split
        · rename_i members hmembers
          rw [hmembers, Members.lookup_insert, if_pos rfl]
          rfl
        · rename_i hother
          cases hlookup : r.lookup s with
          | none => rfl
          | some d =>
            cases d with
            | record members => exact absurd hlookup (hother members)
            | _ => rfl
      · simp
    by_cases hkey : key = s
    · subst hkey
      rw [← hsame]
      simp
    · rw [if_neg hkey, unsetAlong]
      · split
        · rw [Members.lookup_insert, if_neg hkey]
        · rfl
      · simp

theorem sorted_unsetAlong (hr : Members.Sorted r) (segments : List String) :
    Members.Sorted (unsetAlong segments r) := by
  unfold unsetAlong
  split
  · exact hr
  · exact Members.sorted_erase hr _
  · split
    · exact Members.sorted_insert hr _ _
    · exact hr

theorem unsetAlong_nil (segments : List String) : unsetAlong segments [] = [] := by
  cases segments with
  | nil => rfl
  | cons s rest => cases rest <;> rfl

/-- What is below a key is removed within the record there. -/
theorem nested_unsetAlong_cons (s key : String) (rest : List String) (r : Record) :
    nested key (unsetAlong (s :: rest) r) =
      if key = s then if rest = [] then [] else unsetAlong rest (nested key r)
      else nested key r := by
  have hwithout (d : Datum) : (d.without rest).members = unsetAlong rest d.members := by
    cases d <;> first | rfl | exact (unsetAlong_nil rest).symm
  unfold nested
  rw [lookup_unsetAlong_cons]
  split
  · split
    · rfl
    · cases r.lookup key with
      | none => exact (unsetAlong_nil rest).symm
      | some d => exact hwithout d
  · rfl

theorem Nests.unsetAlong (h : r.Nests key) (segments : List String) :
    Nests key (unsetAlong segments r) := by
  cases segments with
  | nil => exact h
  | cons s rest =>
    intro d hd
    rw [lookup_unsetAlong_cons] at hd
    split at hd
    · split at hd
      · exact absurd hd (by simp)
      · obtain ⟨d', hd', rfl⟩ := Option.map_eq_some_iff.1 hd
        obtain ⟨members, rfl⟩ := h d' hd'
        exact ⟨_, rfl⟩
    · exact h d hd

/-- **Nothing stands** at a place, which is given by the keys that lead there. -/
def Missing : List String → Record → Prop
  | [], _ => False
  | [key], r => r.lookup key = none
  | key :: rest, r => Missing rest (nested key r)

theorem missing_nil (hplace : place ≠ []) : Missing place [] := by
  induction place with
  | nil => exact absurd rfl hplace
  | cons key place ih =>
    cases place with
    | nil => rfl
    | cons key' place => exact ih (by simp)

theorem missing_unsetAlong (hne : segments ≠ []) (h : segments <+: place) (r : Record) :
    Missing place (unsetAlong segments r) := by
  induction place generalizing segments r with
  | nil => exact absurd (List.prefix_nil.1 h) hne
  | cons key place ih =>
    cases segments with
    | nil => exact absurd rfl hne
    | cons s rest =>
      obtain ⟨rfl, hrest⟩ := List.cons_prefix_cons.1 h
      cases place with
      | nil =>
        obtain rfl := List.prefix_nil.1 hrest
        rw [Missing, lookup_unsetAlong_cons, if_pos rfl, if_pos rfl]
      | cons key' place =>
        change Missing (key' :: place) (nested s _)
        rw [nested_unsetAlong_cons, if_pos rfl]
        split
        case isTrue => exact missing_nil (by simp)
        case isFalse hrest' => exact ih hrest' hrest _

theorem Missing.unsetAlong (h : Missing place r) (segments : List String) :
    Missing place (unsetAlong segments r) := by
  induction place generalizing segments r with
  | nil => exact h
  | cons key place ih =>
    cases segments with
    | nil => exact h
    | cons s rest =>
      cases place with
      | nil =>
        have hnone : r.lookup key = none := h
        rw [Missing, lookup_unsetAlong_cons, hnone]
        split
        · split <;> rfl
        · rfl
      | cons key' place =>
        change Missing (key' :: place) (nested key _)
        rw [nested_unsetAlong_cons]
        split
        · split
          · exact missing_nil (by simp)
          · exact ih h _
        · exact h

/-- **A path that is removed** takes away the places that it leads to, and those below. -/
theorem missing_unsetPath {path : String} (h : Text.split '.' path <+: place) (r : Record) :
    Missing place (r.unsetPath path) :=
  missing_unsetAlong (Text.split_ne_nil path) h r

/-- What is missing is not restored by removing more. -/
theorem Missing.unsetPath (h : Missing place r) (path : String) :
    Missing place (r.unsetPath path) :=
  h.unsetAlong _

theorem missing_foldl_unsetPath {path : String} {paths : List String} (hpath : path ∈ paths)
    (h : Text.split '.' path <+: place) (r : Record) :
    Missing place (paths.foldl (fun r p => r.unsetPath p) r) := by
  induction paths generalizing r with
  | nil => exact absurd hpath List.not_mem_nil
  | cons p rest ih =>
    rw [List.foldl_cons]
    rcases List.mem_cons.1 hpath with rfl | hpath
    · exact List.foldlRecOn rest _ (missing_unsetPath h r) fun _ hr p _ => hr.unsetPath p
    · exact ih hpath _

/-! ### Changing along a path -/

theorem sorted_alterAlong {path : String} {change : Option Datum → Outcome Datum}
    (hr : Members.Sorted r) (segments : List String) :
    Members.Sorted (alterAlong path change segments r).2 := by
  unfold alterAlong
  split
  · exact hr
  · split
    · exact Members.sorted_insert hr _ _
    · exact hr
  · split
    · exact Members.sorted_insert hr _ _
    · exact Members.sorted_insert hr _ _
    · exact hr

/-- **A change below a key** is made within the record there. -/
theorem alterAlong_cons {path : String} {change : Option Datum → Outcome Datum}
    (hrest : rest ≠ []) (h : ∀ d, r.lookup s = some d → ∃ members, d = .record members) :
    alterAlong path change (s :: rest) r =
      ((alterAlong path change rest (nested s r)).1,
        Members.insert s (.record (alterAlong path change rest (nested s r)).2) r) := by
  rw [alterAlong]
  · cases hlookup : r.lookup s with
    | none => rw [nested, hlookup]; rfl
    | some d =>
      obtain ⟨members, rfl⟩ := h d hlookup
      rw [nested_of_lookup hlookup]
  · exact hrest

end Record

end ObjectEngine
