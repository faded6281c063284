import ObjectEngine.Members.Lemmas
import ObjectEngine.Proofs.Outcome
import ObjectEngine.Store.Editing

/-!
# The members an update touches

An update of a record changes the members that its paths start with and no other. So an update
whose paths all start elsewhere keeps the value under a key (`Edit.lookup_of_apply`); what it
sets only when it inserts does not count.
-/

namespace ObjectEngine

/-! ### The first segment of a path -/

namespace Text

/-- A text splits into its root and what follows. -/
theorem head?_splitChars (cs : List Char) :
    (splitChars '.' cs).head? = some (cs.takeWhile (· ≠ '.')) := by
  induction cs with
  | nil => rfl
  | cons c rest ih =>
    rw [splitChars]
    by_cases hc : c = '.'
    · simp [hc]
    · rw [if_neg hc, List.takeWhile_cons_of_pos (by simpa using hc)]
      split
      · rename_i hnil
        simp [hnil] at ih
      · rename_i piece pieces hpieces
        rw [hpieces] at ih
        simpa using ih

theorem head?_split (path : String) : (split '.' path).head? = some (root path) := by
  rw [split, List.head?_map, head?_splitChars]
  rfl

end Text

/-! ### Changes at a path -/

namespace Record

variable {key path : String}

theorem lookup_alterAlong {change : Option Datum → Outcome Datum} {segments : List String}
    (h : segments.head? ≠ some key) (r : Record) :
    (alterAlong path change segments r).2.lookup key = r.lookup key := by
  have hinsert (s : String) (hs : s ≠ key) (d : Datum) :
      (Members.insert s d r).lookup key = r.lookup key :=
    (Members.lookup_insert ..).trans (if_neg hs.symm)
  unfold alterAlong
  split
  · rfl
  · rename_i leaf
    split
    · exact hinsert leaf (fun he => h (by rw [he]; rfl)) _
    · rfl
  · rename_i s rest _
    have hs : s ≠ key := fun he => h (by rw [he]; rfl)
    split
    · exact hinsert s hs _
    · exact hinsert s hs _
    · rfl

theorem lookup_setPath (h : Text.root path ≠ key) (d : Datum) (r : Record) :
    (r.setPath path d).2.lookup key = r.lookup key :=
  lookup_alterAlong (by simpa [Text.head?_split] using h) r

theorem lookup_unsetPath (h : Text.root path ≠ key) (r : Record) :
    (r.unsetPath path).lookup key = r.lookup key := by
  have hsegments : (Text.split '.' path).head? ≠ some key := by simpa [Text.head?_split] using h
  unfold unsetPath
  generalize Text.split '.' path = segments at hsegments
  unfold unsetAlong
  split
  · rfl
  · rename_i leaf
    rw [Members.lookup_erase, if_neg fun he => hsegments (by rw [he]; rfl)]
  · rename_i s rest _
    split
    · rw [Members.lookup_insert, if_neg fun he => hsegments (by rw [he]; rfl)]
    · rfl

end Record

namespace Edit

variable {key : String}

/-- **No path of the update starts with the key**, those for insertions aside. -/
structure Avoids (key : String) (e : Edit) : Prop where
  set : ∀ m ∈ e.set, Text.root m.1 ≠ key
  unset : ∀ path ∈ e.unset, Text.root path ≠ key
  inc : ∀ m ∈ e.inc, Text.root m.1 ≠ key
  push : ∀ m ∈ e.push, Text.root m.1 ≠ key
  addToSet : ∀ m ∈ e.addToSet, Text.root m.1 ≠ key
  pull : ∀ m ∈ e.pull, Text.root m.1 ≠ key

theorem lookup_applySteps {α : Type} {step : Record → α → Outcome Unit × Record} {as : List α}
    (h : ∀ a ∈ as, ∀ r, (step r a).2.lookup key = r.lookup key) (r : Record) :
    (applySteps step r as).2.lookup key = r.lookup key := by
  induction as generalizing r with
  | nil => rfl
  | cons a rest ih =>
    have ha := h a List.mem_cons_self r
    rw [applySteps]
    split
    · rename_i r' hstep
      rw [hstep] at ha
      exact (ih (fun b hb => h b (List.mem_cons_of_mem _ hb)) r').trans ha
    · exact ha

theorem lookup_incPath {path : String} (h : Text.root path ≠ key) (r : Record) (amount : Datum) :
    (incPath r path amount).2.lookup key = r.lookup key := by
  unfold incPath
  split
  · split
    · exact Record.lookup_setPath h _ r
    · rfl
  · exact Record.lookup_setPath h _ r

theorem lookup_arrayPath {path : String} (h : Text.root path ≠ key) (op : String)
    (change : List Datum → List Datum) (r : Record) :
    (arrayPath op change r path).2.lookup key = r.lookup key :=
  Record.lookup_alterAlong (by simpa [Text.head?_split] using h) r

theorem lookup_pullPath {path : String} (h : Text.root path ≠ key) (r : Record)
    (ds : List Datum) : (pullPath r path ds).2.lookup key = r.lookup key := by
  unfold pullPath
  split
  · rfl
  · exact Record.lookup_setPath h _ r
  · rfl

/-- A stage of an update keeps what the stages before it and the rest of it keep. -/
theorem lookup_andThen {step : Outcome Unit × Record} {next : Record → Outcome Unit × Record}
    {r : Record} (hstep : step.2.lookup key = r.lookup key)
    (hnext : ∀ r', (next r').2.lookup key = r'.lookup key) :
    (andThen step next).2.lookup key = r.lookup key := by
  unfold andThen
  split
  · exact (hnext _).trans hstep
  · exact hstep

/-- **An update keeps the value under a key that it avoids.** -/
theorem lookup_of_apply {e : Edit} (h : e.Avoids key) {r r' : Record}
    (happly : e.apply false r = .ok r') : r'.lookup key = r.lookup key := by
  have hunset (r : Record) : (e.unset.foldl (fun r p => r.unsetPath p) r).lookup key =
      r.lookup key := by
    have hpaths := h.unset
    generalize e.unset = paths at hpaths
    induction paths generalizing r with
    | nil => rfl
    | cons path rest ih =>
      exact (ih _ fun p hp => hpaths p (List.mem_cons_of_mem _ hp)).trans
        (Record.lookup_unsetPath (hpaths path List.mem_cons_self) r)
  have hfrom : (e.applyFrom false r).2.lookup key = r.lookup key := by
    refine lookup_andThen (lookup_applySteps (fun m hm r => ?_) r) fun r => ?_
    · exact Record.lookup_setPath (h.set m hm) _ r
    refine lookup_andThen (hunset r) fun r => ?_
    refine lookup_andThen (lookup_applySteps (fun m hm r => ?_) r) fun r => ?_
    · exact lookup_incPath (h.inc m hm) r _
    refine lookup_andThen (lookup_applySteps (fun m hm r => ?_) r) fun r => ?_
    · exact lookup_arrayPath (h.push m hm) _ _ r
    refine lookup_andThen (lookup_applySteps (fun m hm r => ?_) r) fun r => ?_
    · exact lookup_arrayPath (h.addToSet m hm) _ _ r
    refine lookup_andThen (lookup_applySteps (fun m hm r => ?_) r) fun r => rfl
    exact lookup_pullPath (h.pull m hm) r _
  unfold apply at happly
  split at happly
  · rename_i r'' hr''
    rw [hr''] at hfrom
    rw [← Except.ok.inj happly]
    exact hfrom
  · exact absurd happly (by simp)

end Edit

end ObjectEngine
