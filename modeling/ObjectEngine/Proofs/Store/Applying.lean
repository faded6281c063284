import ObjectEngine.Proofs.Store.Edits

/-!
# What an update comes to

An update that succeeds has gone through its stages one after another
(`Edit.exists_of_apply`). What all of its steps keep, the update keeps
(`Edit.apply_induction`); and the value under a key that only whole values are put under, or
removed from, is the one put there last (`Edit.lookup_of_apply_key`).
-/

namespace ObjectEngine

/-! ### Plain keys -/

namespace Text

/-- A text without the separator is one piece. -/
theorem split_of_not_mem {sep : Char} {s : String} (h : sep ∉ s.toList) : split sep s = [s] := by
  have hchars (cs : List Char) (hcs : sep ∉ cs) : splitChars sep cs = [cs] := by
    induction cs with
    | nil => rfl
    | cons c rest ih =>
      obtain ⟨hc, hrest⟩ := not_or.1 (mt List.mem_cons.2 hcs)
      rw [splitChars, if_neg (Ne.symm hc), ih hrest]
  rw [split, hchars _ h, List.map_singleton, String.ofList_toList]

theorem root_of_split {key : String} (h : split '.' key = [key]) : root key = key :=
  Option.some.inj ((head?_split key).symm.trans (by rw [h]; rfl))

end Text

namespace Record

variable {path : String} {m : String × Datum}

/-! ### The members after a step -/

/-- **A change at a path** leaves the members that do not stand at its first segment. -/
theorem mem_of_mem_alterAlong {change : Option Datum → Outcome Datum} {segments : List String}
    {r : Record} (h : m ∈ (alterAlong path change segments r).2) :
    m ∈ r ∨ segments.head? = some m.1 := by
  have hinsert {s : String} {d : Datum} (h : m ∈ Members.insert s d r) : m ∈ r ∨ s = m.1 := by
    rcases Members.mem_insert h with rfl | h
    · exact .inr rfl
    · exact .inl h
  unfold alterAlong at h
  split at h
  · exact .inl h
  · split at h
    · exact (hinsert h).imp_right fun h => congrArg some h
    · exact .inl h
  · split at h
    · exact (hinsert h).imp_right fun h => congrArg some h
    · exact (hinsert h).imp_right fun h => congrArg some h
    · exact .inl h

/-- A change at a plain key that succeeds puts its result under the key. -/
theorem alterAlong_key {change : Option Datum → Outcome Datum} {key : String} {r r' : Record}
    (h : alterAlong path change [key] r = (.ok (), r')) :
    ∃ d, change (r.lookup key) = .ok d ∧ r' = Members.insert key d r := by
  rw [alterAlong] at h
  split at h
  · rename_i d hd
    exact ⟨d, hd, (Prod.mk.inj h).2.symm⟩
  · exact absurd h (by simp)

theorem setPath_key {key : String} (hkey : Text.split '.' key = [key]) (d : Datum) (r : Record) :
    r.setPath key d = (.ok (), Members.insert key d r) := by
  rw [setPath, hkey]
  rfl

theorem unsetPath_key {key : String} (hkey : Text.split '.' key = [key]) (r : Record) :
    r.unsetPath key = Members.erase key r := by
  rw [unsetPath, hkey]
  rfl

theorem get?_key {key : String} (hkey : Text.split '.' key = [key]) (r : Record) :
    r.get? key = r.lookup key := by
  rw [get?, hkey, Datum.getAlong?]
  cases r.lookup key <;> rfl

theorem mem_of_mem_setPath {d : Datum} {r : Record} (h : m ∈ (r.setPath path d).2) :
    m ∈ r ∨ Text.root path = m.1 :=
  (mem_of_mem_alterAlong h).imp_right fun h =>
    Option.some.inj ((Text.head?_split path).symm.trans h)

theorem mem_of_mem_unsetPath {r : Record} (h : m ∈ r.unsetPath path) :
    m ∈ r ∨ Text.root path = m.1 := by
  have hhead := Text.head?_split path
  unfold unsetPath at h
  generalize Text.split '.' path = segments at h hhead
  unfold unsetAlong at h
  split at h
  · exact .inl h
  · exact .inl (List.mem_filter.1 h).1
  · split at h
    · rcases Members.mem_insert h with rfl | h
      · exact .inr (Option.some.inj hhead).symm
      · exact .inl h
    · exact .inl h

end Record

namespace Edit

variable {e : Edit} {inserting : Bool} {r r' : Record} {m : String × Datum} {path key : String}

/-! ### Operators -/

theorem mem_of_mem_incPath {amount : Datum} (h : m ∈ (incPath r path amount).2) :
    m ∈ r ∨ Text.root path = m.1 := by
  unfold incPath at h
  split at h
  · split at h
    · exact Record.mem_of_mem_setPath h
    · exact .inl h
  · exact Record.mem_of_mem_setPath h

theorem mem_of_mem_arrayPath {op : String} {change : List Datum → List Datum}
    (h : m ∈ (arrayPath op change r path).2) : m ∈ r ∨ Text.root path = m.1 :=
  (Record.mem_of_mem_alterAlong h).imp_right fun h =>
    Option.some.inj ((Text.head?_split path).symm.trans h)

theorem mem_of_mem_pullPath {ds : List Datum} (h : m ∈ (pullPath r path ds).2) :
    m ∈ r ∨ Text.root path = m.1 := by
  unfold pullPath at h
  split at h
  · exact .inl h
  · exact Record.mem_of_mem_setPath h
  · exact .inl h

/-- **A sum of numbers** is a number. -/
theorem isSome_of_addNumbers {a b d : Datum} (h : addNumbers path a b = .ok d) :
    d.asDouble?.isSome := by
  unfold addNumbers at h
  split at h
  · split at h
    · obtain rfl := Except.ok.inj h
      rfl
    · exact absurd h (by simp)
  · split at h
    · obtain rfl := Except.ok.inj h
      rfl
    · exact absurd h (by simp)

/-- To add a number under a key leaves a number there. -/
theorem incPath_key (hkey : Text.split '.' key = [key]) {amount : Datum}
    (hamount : amount.asDouble?.isSome) (h : incPath r key amount = (.ok (), r')) :
    ∃ d : Datum, d.asDouble?.isSome ∧ r' = Members.insert key d r := by
  unfold incPath at h
  split at h
  · split at h
    · rename_i d hd
      rw [Record.setPath_key hkey] at h
      exact ⟨d, isSome_of_addNumbers hd, (Prod.mk.inj h).2.symm⟩
    · exact absurd h (by simp)
  · rw [Record.setPath_key hkey] at h
    exact ⟨amount, hamount, (Prod.mk.inj h).2.symm⟩

/-- An array under a key is changed, or an empty one if there is none. -/
theorem arrayPath_key (hkey : Text.split '.' key = [key]) {op : String}
    {change : List Datum → List Datum} (h : arrayPath op change r key = (.ok (), r')) :
    ∃ items, (r.lookup key = some (.array items) ∨ items = []) ∧
      r' = Members.insert key (.array (change items)) r := by
  rw [arrayPath, hkey] at h
  obtain ⟨d, hd, rfl⟩ := Record.alterAlong_key h
  split at hd
  · obtain rfl := Except.ok.inj hd
    exact ⟨[], .inr rfl, rfl⟩
  · rename_i items hitems
    obtain rfl := Except.ok.inj hd
    exact ⟨items, .inl hitems, rfl⟩
  · exact absurd hd (by simp)

theorem pullPath_key (hkey : Text.split '.' key = [key]) {ds : List Datum}
    (h : pullPath r key ds = (.ok (), r')) :
    r' = r ∨ ∃ items, r.lookup key = some (.array items) ∧
      r' = Members.insert key (.array (removeAll ds items)) r := by
  unfold pullPath at h
  rw [Record.get?_key hkey] at h
  split at h
  · exact .inl (Prod.mk.inj h).2.symm
  · rename_i items hitems
    rw [Record.setPath_key hkey] at h
    exact .inr ⟨items, hitems, (Prod.mk.inj h).2.symm⟩
  · exact absurd h (by simp)

theorem andThen_eq_ok {step : Outcome Unit × Record} {next : Record → Outcome Unit × Record} :
    andThen step next = (.ok (), r') ↔ ∃ x, step = (.ok (), x) ∧ next x = (.ok (), r') := by
  obtain ⟨_ | _, x⟩ := step <;> simp [andThen]

/-- What all steps keep, they keep one after another. -/
theorem applySteps_induction {α : Type} {step : Record → α → Outcome Unit × Record}
    {P : Record → Prop} {as : List α} (h : applySteps step r as = (.ok (), r')) (hr : P r)
    (hstep : ∀ a ∈ as, ∀ x y, P x → step x a = (.ok (), y) → P y) : P r' := by
  induction as generalizing r with
  | nil =>
    obtain ⟨-, rfl⟩ := Prod.mk.inj h
    exact hr
  | cons a rest ih =>
    rw [applySteps] at h
    split at h
    · rename_i x hx
      exact ih h (hstep a List.mem_cons_self r x hr hx)
        fun b hb => hstep b (List.mem_cons_of_mem _ hb)
    · rename_i hfailed
      exact absurd h (hfailed _)

/-- **The stages of an update** that succeeds. -/
structure Stages (e : Edit) (inserting : Bool) (r r₁ r₂ r₃ r₄ r₅ r' : Record) : Prop where
  set : setAll e.set r = (.ok (), r₁)
  inc : applySteps (fun r m => incPath r m.1 m.2)
    (e.unset.foldl (fun r p => r.unsetPath p) r₁) e.inc = (.ok (), r₂)
  push : applySteps (fun r m => arrayPath "$push" (· ++ m.2) r m.1) r₂ e.push = (.ok (), r₃)
  addToSet : applySteps (fun r m => arrayPath "$addToSet" (m.2.foldl addIfNew ·) r m.1) r₃
    e.addToSet = (.ok (), r₄)
  pull : applySteps (fun r m => pullPath r m.1 m.2) r₄ e.pull = (.ok (), r₅)
  setOnInsert : (if inserting then setAll e.setOnInsert r₅ else (.ok (), r₅)) = (.ok (), r')

theorem exists_of_apply (h : e.apply inserting r = .ok r') :
    ∃ r₁ r₂ r₃ r₄ r₅, Stages e inserting r r₁ r₂ r₃ r₄ r₅ r' := by
  have hfrom : e.applyFrom inserting r = (.ok (), r') := by
    unfold apply at h
    split at h
    · rename_i x hx
      rw [hx, Except.ok.inj h]
    · exact absurd h (by simp)
  obtain ⟨r₁, hset, h⟩ := andThen_eq_ok.1 hfrom
  obtain ⟨_, hunset, h⟩ := andThen_eq_ok.1 h
  obtain ⟨-, rfl⟩ := Prod.mk.inj hunset
  obtain ⟨r₂, hinc, h⟩ := andThen_eq_ok.1 h
  obtain ⟨r₃, hpush, h⟩ := andThen_eq_ok.1 h
  obtain ⟨r₄, haddToSet, h⟩ := andThen_eq_ok.1 h
  obtain ⟨r₅, hpull, h⟩ := andThen_eq_ok.1 h
  exact ⟨r₁, r₂, r₃, r₄, r₅, hset, hinc, hpush, haddToSet, hpull, h⟩

/-- **Steps of an update**, each of which keeps `P`. -/
structure Steps (P : Record → Prop) (e : Edit) (inserting : Bool) : Prop where
  set : ∀ m ∈ e.set, ∀ x y, P x → x.setPath m.1 m.2 = (.ok (), y) → P y
  unset : ∀ path ∈ e.unset, ∀ x, P x → P (x.unsetPath path)
  inc : ∀ m ∈ e.inc, ∀ x y, P x → incPath x m.1 m.2 = (.ok (), y) → P y
  push : ∀ m ∈ e.push, ∀ x y, P x → arrayPath "$push" (· ++ m.2) x m.1 = (.ok (), y) → P y
  addToSet : ∀ m ∈ e.addToSet, ∀ x y, P x →
    arrayPath "$addToSet" (m.2.foldl addIfNew ·) x m.1 = (.ok (), y) → P y
  pull : ∀ m ∈ e.pull, ∀ x y, P x → pullPath x m.1 m.2 = (.ok (), y) → P y
  setOnInsert : inserting = true → ∀ m ∈ e.setOnInsert, ∀ x y, P x →
    x.setPath m.1 m.2 = (.ok (), y) → P y

/-- **What every step keeps, the update keeps.** -/
theorem apply_induction {P : Record → Prop} (h : e.apply inserting r = .ok r') (hr : P r)
    (hsteps : Steps P e inserting) : P r' := by
  obtain ⟨r₁, r₂, r₃, r₄, r₅, hstages⟩ := exists_of_apply h
  have h₁ : P r₁ := applySteps_induction hstages.set hr hsteps.set
  have h₁' : P (e.unset.foldl (fun r p => r.unsetPath p) r₁) :=
    List.foldlRecOn _ _ h₁ fun x hx path hpath => hsteps.unset path hpath x hx
  have h₂ : P r₂ := applySteps_induction hstages.inc h₁' hsteps.inc
  have h₃ : P r₃ := applySteps_induction hstages.push h₂ hsteps.push
  have h₄ : P r₄ := applySteps_induction hstages.addToSet h₃ hsteps.addToSet
  have h₅ : P r₅ := applySteps_induction hstages.pull h₄ hsteps.pull
  have hlast := hstages.setOnInsert
  split at hlast
  · exact applySteps_induction hlast h₅ (hsteps.setOnInsert ‹_›)
  · obtain ⟨-, rfl⟩ := Prod.mk.inj hlast
    exact h₅

/-! ### Whole values under a key -/

/-- **Only whole values** are put under the key or removed from it. -/
structure Whole (key : String) (e : Edit) : Prop where
  set : ∀ m ∈ e.set, Text.root m.1 = key → m.1 = key
  unset : ∀ path ∈ e.unset, Text.root path = key → path = key
  inc : ∀ m ∈ e.inc, Text.root m.1 ≠ key
  push : ∀ m ∈ e.push, Text.root m.1 ≠ key
  addToSet : ∀ m ∈ e.addToSet, Text.root m.1 ≠ key
  pull : ∀ m ∈ e.pull, Text.root m.1 ≠ key
  setOnInsert : ∀ m ∈ e.setOnInsert, Text.root m.1 = key → m.1 = key

/-- Of the values set, the one under the key is there. -/
theorem lookup_of_setAll {key : String} (hkey : Text.split '.' key = [key])
    {members : Members Datum} (hsorted : members.Sorted)
    (hwhole : ∀ m ∈ members, Text.root m.1 = key → m.1 = key)
    (h : setAll members r = (.ok (), r')) :
    r'.lookup key = (members.lookup key).or (r.lookup key) := by
  induction members generalizing r with
  | nil =>
    obtain ⟨-, rfl⟩ := Prod.mk.inj h
    rfl
  | cons m rest ih =>
    obtain ⟨path, d⟩ := m
    rw [setAll, applySteps] at h
    obtain ⟨hfirst, hrest⟩ := List.pairwise_cons.1 hsorted
    split at h
    · rename_i x hx
      rw [ih hrest (fun m hm => hwhole m (List.mem_cons_of_mem _ hm)) h, Members.lookup_cons]
      by_cases hpath : key = path
      · subst hpath
        -- no later member has this key
        have hnone : List.lookup key rest = none :=
          Members.lookup_eq_none fun m hm he => String.lt_irrefl _ (he ▸ hfirst m hm)
        rw [Record.setPath_key hkey] at hx
        obtain ⟨-, rfl⟩ := Prod.mk.inj hx
        rw [hnone, if_pos rfl, Members.lookup_insert, if_pos rfl]
        rfl
      · rw [if_neg hpath]
        have hroot : Text.root path ≠ key := fun he =>
          hpath (hwhole _ List.mem_cons_self he).symm
        have hsame := Record.lookup_setPath hroot d r
        rw [hx] at hsame
        rw [hsame]
    · rename_i hfailed
      exact absurd h (hfailed _)

/-- Of the paths removed, none is left. -/
theorem lookup_unsetAll {key : String} (hkey : Text.split '.' key = [key]) {paths : List String}
    (hwhole : ∀ path ∈ paths, Text.root path = key → path = key) (r : Record) :
    (paths.foldl (fun r p => r.unsetPath p) r).lookup key =
      if key ∈ paths then none else r.lookup key := by
  induction paths generalizing r with
  | nil => rfl
  | cons path rest ih =>
    rw [List.foldl_cons, ih fun p hp => hwhole p (List.mem_cons_of_mem _ hp)]
    by_cases hpath : path = key
    · subst hpath
      rw [Record.unsetPath_key hkey, Members.lookup_erase]
      simp
    · rw [Record.lookup_unsetPath fun he => hpath (hwhole path List.mem_cons_self he)]
      simp [Ne.symm hpath]

/-- **The value under a key** that only whole values are put under: the one set on insertion, or
else none if the key was removed, or else the one set, or else the one that was there. -/
theorem lookup_of_apply_key {key : String} (hkey : Text.split '.' key = [key])
    (hwhole : e.Whole key) (hset : e.set.Sorted) (honInsert : e.setOnInsert.Sorted)
    (h : e.apply inserting r = .ok r') :
    r'.lookup key = (if inserting then e.setOnInsert.lookup key else none).or
      (if key ∈ e.unset then none else (e.set.lookup key).or (r.lookup key)) := by
  obtain ⟨r₁, r₂, r₃, r₄, r₅, hstages⟩ := exists_of_apply h
  have hbetween : r₅.lookup key =
      (e.unset.foldl (fun r p => r.unsetPath p) r₁).lookup key := by
    have hinc := lookup_applySteps (fun m hm r => lookup_incPath (hwhole.inc m hm) r m.2)
      (e.unset.foldl (fun r p => r.unsetPath p) r₁)
    have hpush := lookup_applySteps
      (fun m hm r => lookup_arrayPath (hwhole.push m hm) "$push" (· ++ m.2) r) r₂
    have haddToSet := lookup_applySteps (fun m hm r =>
      lookup_arrayPath (hwhole.addToSet m hm) "$addToSet" (m.2.foldl addIfNew ·) r) r₃
    have hpull := lookup_applySteps (fun m hm r => lookup_pullPath (hwhole.pull m hm) r m.2) r₄
    rw [hstages.inc] at hinc
    rw [hstages.push] at hpush
    rw [hstages.addToSet] at haddToSet
    rw [hstages.pull] at hpull
    rw [hpull, haddToSet, hpush, hinc]
  have hlast := hstages.setOnInsert
  have hfirst := lookup_of_setAll hkey hset hwhole.set hstages.set
  rw [lookup_unsetAll hkey hwhole.unset, hfirst] at hbetween
  cases inserting with
  | true =>
    rw [lookup_of_setAll hkey honInsert hwhole.setOnInsert hlast, hbetween]
    rfl
  | false =>
    obtain ⟨-, rfl⟩ := Prod.mk.inj hlast
    rw [hbetween]
    rfl

end Edit

end ObjectEngine
