import ObjectEngine.Proofs.Store.Nesting

/-!
# Paths apart from each other

Two paths are apart if neither leads to, or below, where the other leads (`Text.Apart`). A path is
open in a record if nothing but records stands on the way (`Record.Open`). To set the value at an
open path puts it there and changes nothing at the paths apart from it, which stay open
(`Record.setPath_open`). So the steps of an update that are apart from each other do not get into
each other's way, in whatever order they come (`Edit.applySteps_apart`).
-/

namespace ObjectEngine

namespace Text

variable {a b : String}

/-! ### Paths as they are written -/

theorem splitChars_cons_of_ne {c : Char} (hc : c ≠ '.') (cs : List Char) :
    ∃ piece pieces, splitChars '.' cs = piece :: pieces ∧
      splitChars '.' (c :: cs) = (c :: piece) :: pieces := by
  have hhead := head?_splitChars cs
  cases hcs : splitChars '.' cs with
  | nil =>
    rw [hcs] at hhead
    exact absurd hhead (by simp)
  | cons piece pieces =>
    refine ⟨piece, pieces, rfl, ?_⟩
    rw [splitChars, if_neg hc, hcs]

/-- A text is its pieces, with full stops between them. -/
theorem eq_of_splitChars {cs piece : List Char} {pieces : List (List Char)}
    (h : splitChars '.' cs = piece :: pieces) : cs = piece ++ pieces.flatMap ('.' :: ·) := by
  induction cs generalizing piece pieces with
  | nil =>
    obtain ⟨rfl, rfl⟩ := List.cons_eq_cons.1 h
    rfl
  | cons c cs ih =>
    by_cases hc : c = '.'
    · subst hc
      rw [splitChars, if_pos rfl] at h
      obtain ⟨rfl, rfl⟩ := List.cons_eq_cons.1 h
      obtain ⟨pieces, hpieces⟩ := List.head?_eq_some_iff.1 (head?_splitChars cs)
      rw [hpieces, List.flatMap_cons, List.nil_append, List.cons_append, ← ih hpieces]
    · obtain ⟨piece', pieces', hcs, hsplit⟩ := splitChars_cons_of_ne hc cs
      rw [hsplit] at h
      obtain ⟨rfl, rfl⟩ := List.cons_eq_cons.1 h
      rw [List.cons_append, ← ih hcs]

/-- **A text whose pieces begin with those of another** begins with that text. -/
theorem eq_or_append_of_splitChars {cs ds : List Char}
    (h : splitChars '.' cs <+: splitChars '.' ds) : ds = cs ∨ ∃ rest, ds = cs ++ '.' :: rest := by
  obtain ⟨more, hmore⟩ := h
  cases hcs : splitChars '.' cs with
  | nil => exact absurd (head?_splitChars cs) (by simp [hcs])
  | cons piece pieces =>
    rw [hcs, List.cons_append] at hmore
    have hds := eq_of_splitChars hmore.symm
    rw [List.flatMap_append, ← List.append_assoc, ← eq_of_splitChars hcs] at hds
    cases more with
    | nil => exact .inl (hds.trans (List.append_nil cs))
    | cons next more => exact .inr ⟨_, hds⟩

theorem eq_or_append_of_split (h : split '.' a <+: split '.' b) :
    b = a ∨ ∃ c, b = a ++ "." ++ c := by
  have hpieces (s : String) : (split '.' s).map String.toList = splitChars '.' s.toList := by
    rw [split, List.map_map]
    exact List.map_id'' (fun cs => String.toList_ofList) _
  have hbelow := h.map String.toList
  rw [hpieces, hpieces] at hbelow
  rcases eq_or_append_of_splitChars hbelow with heq | ⟨rest, heq⟩
  · exact .inl (String.toList_inj.1 heq)
  · refine .inr ⟨String.ofList rest, String.toList_inj.1 ?_⟩
    simp [heq]

/-- **Neither of two paths** leads to, or below, where the other leads. -/
def Apart (a b : String) : Prop := ¬split '.' a <+: split '.' b ∧ ¬split '.' b <+: split '.' a

instance : DecidableRel Apart := fun _ _ => inferInstanceAs (Decidable (_ ∧ _))

theorem Apart.symm (h : Apart a b) : Apart b a := ⟨h.2, h.1⟩

/-- Paths below different fields are apart. -/
theorem apart_of_root (h : root a ≠ root b) : Apart a b := by
  have hhead {a b : String} (h : root a ≠ root b) : ¬split '.' a <+: split '.' b := by
    intro hbelow
    obtain ⟨rest, hrest⟩ := hbelow
    have hroot := head?_split b
    rw [← hrest, List.head?_append, head?_split, Option.some_or] at hroot
    exact h (Option.some.inj hroot)
  exact ⟨hhead h, hhead (Ne.symm h)⟩

end Text

/-! ### Open paths -/

namespace Record

variable {s : String} {rest segments others : List String} {r r' : Record} {d : Datum}

/-- What stands at the end of a way through records. -/
def at? (segments : List String) (r : Record) : Option Datum :=
  Datum.getAlong? segments (.record r)

/-- **A way is open** in a record: nothing but records stands on it before its end. -/
def Open : List String → Record → Prop
  | [], _ => True
  | [_], _ => True
  | s :: rest, r => Nests s r ∧ Open rest (nested s r)

theorem open_cons (hrest : rest ≠ []) :
    Open (s :: rest) r ↔ Nests s r ∧ Open rest (nested s r) := by
  cases rest with
  | nil => exact absurd rfl hrest
  | cons s' rest => rfl

theorem at?_singleton (s : String) (r : Record) : at? [s] r = r.lookup s := by
  rw [at?, Datum.getAlong?]
  cases r.lookup s <;> rfl

theorem at?_cons (hrest : rest ≠ []) : at? (s :: rest) r = at? rest (nested s r) := by
  obtain ⟨s', rest, rfl⟩ := List.exists_cons_of_ne_nil hrest
  unfold at? nested
  rw [Datum.getAlong?]
  cases r.lookup s with
  | none => rfl
  | some d => cases d <;> rfl

theorem open_nil (segments : List String) : Open segments [] := by
  induction segments with
  | nil => trivial
  | cons s rest ih =>
    cases rest with
    | nil => trivial
    | cons s' rest => exact ⟨fun d hd => absurd hd (by simp), ih⟩

/-- A way is open if nothing stands at its beginning. -/
theorem open_of_lookup_none (h : r.lookup s = none) : Open (s :: rest) r := by
  by_cases hrest : rest = []
  · subst hrest
    trivial
  · refine (open_cons hrest).2 ⟨fun d hd => absurd (h.symm.trans hd) (by simp), ?_⟩
    rw [nested, h]
    exact open_nil rest

/-- A way to a value is open. -/
theorem open_of_at? (h : at? segments r = some d) : Open segments r := by
  induction segments generalizing r with
  | nil => trivial
  | cons s rest ih =>
    by_cases hrest : rest = []
    · subst hrest
      trivial
    · refine (open_cons hrest).2 ⟨fun x hx => ?_, ih (at?_cons hrest ▸ h)⟩
      obtain ⟨s', rest, rfl⟩ := List.exists_cons_of_ne_nil hrest
      rw [at?, Datum.getAlong?, hx] at h
      cases x with
      | record members => exact ⟨members, rfl⟩
      | _ => exact absurd h (by simp [Datum.getAlong?])

/-- **A value is put** at the end of a way: it is found there, and on other ways nothing
changes. -/
structure Puts (segments : List String) (d : Datum) (r r' : Record) : Prop where
  found : at? segments r' = some d
  others (others : List String) : ¬others <+: segments → ¬segments <+: others →
    at? others r' = at? others r ∧ (Open others r → Open others r')

/-- A change at the first key leaves all ways that begin otherwise. -/
theorem at?_insert_of_ne {t : String} (ht : t ≠ s) (others : List String) (d : Datum)
    (r : Record) :
    at? (t :: others) (Members.insert s d r) = at? (t :: others) r ∧
      (Open (t :: others) r → Open (t :: others) (Members.insert s d r)) := by
  have hlookup : (Members.insert s d r).lookup t = r.lookup t :=
    (Members.lookup_insert ..).trans (if_neg ht)
  by_cases hothers : others = []
  · subst hothers
    exact ⟨by rw [at?_singleton, at?_singleton, hlookup], fun _ => trivial⟩
  · rw [at?_cons hothers, at?_cons hothers, open_cons hothers, open_cons hothers,
      nested_congr hlookup, Nests, Nests, hlookup]
    exact ⟨rfl, id⟩

/-- **To set a value** at the end of an open way. -/
theorem alterAlong_open (path : String) (hne : segments ≠ []) (h : Open segments r) (d : Datum) :
    ∃ r', alterAlong path (fun _ => .ok d) segments r = (.ok (), r') ∧ Puts segments d r r' := by
  induction segments generalizing r with
  | nil => exact absurd rfl hne
  | cons s rest ih =>
    by_cases hrest : rest = []
    · subst hrest
      refine ⟨Members.insert s d r, rfl, ?_, fun others hbelow habove => ?_⟩
      · rw [at?_singleton, Members.lookup_insert, if_pos rfl]
      · cases others with
        | nil => exact absurd List.nil_prefix hbelow
        | cons t others =>
          refine at?_insert_of_ne (fun ht => habove ?_) others d r
          exact List.cons_prefix_cons.2 ⟨ht.symm, List.nil_prefix⟩
    · obtain ⟨hnests, hopen⟩ := (open_cons hrest).1 h
      obtain ⟨members, halter, hputs⟩ := ih hrest hopen
      refine ⟨_, by rw [alterAlong_cons hrest hnests, halter], ?_, fun others hbelow habove => ?_⟩
      · rw [at?_cons hrest, nested_insert, if_pos rfl]
        exact hputs.found
      · cases others with
        | nil => exact absurd List.nil_prefix hbelow
        | cons t others =>
          by_cases ht : t = s
          · subst ht
            have hothers : others ≠ [] := by
              rintro rfl
              exact hbelow (List.cons_prefix_cons.2 ⟨rfl, List.nil_prefix⟩)
            obtain ⟨hat, hopen'⟩ := hputs.others others
              (fun h => hbelow (List.cons_prefix_cons.2 ⟨rfl, h⟩))
              fun h => habove (List.cons_prefix_cons.2 ⟨rfl, h⟩)
            rw [at?_cons hothers, at?_cons hothers, open_cons hothers, open_cons hothers,
              nested_insert, if_pos rfl]
            refine ⟨hat, fun h => ⟨fun d hd => ?_, hopen' h.2⟩⟩
            rw [Members.lookup_insert, if_pos rfl] at hd
            exact ⟨_, (Option.some.inj hd).symm⟩
          · exact at?_insert_of_ne ht others _ r

/-! ### Writing at a path -/

/-- The path is open in a record. -/
def OpenAt (path : String) (r : Record) : Prop := Open (Text.split '.' path) r

theorem openAt_of_get? {path : String} (h : r.get? path = some d) : OpenAt path r :=
  open_of_at? h

theorem openAt_of_lookup_none {path : String} (h : r.lookup (Text.root path) = none) :
    OpenAt path r := by
  obtain ⟨s, rest, hsplit⟩ := List.exists_cons_of_ne_nil (Text.split_ne_nil path)
  have hroot := Text.head?_split path
  rw [hsplit] at hroot
  rw [OpenAt, hsplit]
  exact open_of_lookup_none (Option.some.inj hroot ▸ h)

/-- A key is open in every record. -/
theorem openAt_key {key : String} (hkey : Text.split '.' key = [key]) (r : Record) :
    OpenAt key r := by
  rw [OpenAt, hkey]
  trivial

/-- Nothing is at a path whose root is missing. -/
theorem get?_of_lookup_none {path : String} (h : r.lookup (Text.root path) = none) :
    r.get? path = none := by
  obtain ⟨s, rest, hsplit⟩ := List.exists_cons_of_ne_nil (Text.split_ne_nil path)
  have hroot := Text.head?_split path
  rw [hsplit] at hroot
  rw [Record.get?, hsplit, Datum.getAlong?, Option.some.inj hroot, h]
  rfl

/-- **A value is written** at a path: it is found there, and at the paths apart from it nothing
changes. -/
structure Writes (path : String) (d : Datum) (r r' : Record) : Prop where
  found : r'.get? path = some d
  others {other : String} : Text.Apart other path → r'.get? other = r.get? other
  opens {other : String} : Text.Apart other path → OpenAt other r → OpenAt other r'

/-- **To set the value** at an open path. -/
theorem setPath_open {path : String} (h : OpenAt path r) (d : Datum) :
    ∃ r', r.setPath path d = (.ok (), r') ∧ Writes path d r r' := by
  obtain ⟨r', hset, hputs⟩ := alterAlong_open path (Text.split_ne_nil path) h d
  exact ⟨r', hset, hputs.found, fun hapart => (hputs.others _ hapart.1 hapart.2).1,
    fun hapart => (hputs.others _ hapart.1 hapart.2).2⟩

end Record

namespace Edit

open Record (OpenAt Writes)

variable {α : Type} {r : Record}

/-- **Steps at paths apart from each other**, each of which writes at its path: afterwards every
path has what its step makes of what was there, and the paths apart from them are as before. -/
theorem applySteps_apart {step : Record → α → Outcome Unit × Record} (path : α → String)
    (value : α → Option Datum → Datum) (ready : α → Option Datum → Prop) {as : List α}
    (hstep : ∀ a ∈ as, ∀ r, OpenAt (path a) r → ready a (r.get? (path a)) →
      ∃ r', step r a = (.ok (), r') ∧ Writes (path a) (value a (r.get? (path a))) r r')
    (hapart : as.Pairwise fun a b => Text.Apart (path a) (path b))
    (hopen : ∀ a ∈ as, OpenAt (path a) r) (hready : ∀ a ∈ as, ready a (r.get? (path a))) :
    ∃ r', applySteps step r as = (.ok (), r') ∧
      (∀ a ∈ as, r'.get? (path a) = some (value a (r.get? (path a)))) ∧
      ∀ other, (∀ a ∈ as, Text.Apart other (path a)) →
        r'.get? other = r.get? other ∧ (OpenAt other r → OpenAt other r') := by
  induction as generalizing r with
  | nil => exact ⟨r, rfl, fun _ ha => absurd ha List.not_mem_nil, fun _ _ => ⟨rfl, id⟩⟩
  | cons a as ih =>
    obtain ⟨hfirst, hapart⟩ := List.pairwise_cons.1 hapart
    obtain ⟨hopenFirst, hopen⟩ := List.forall_mem_cons.1 hopen
    obtain ⟨hreadyFirst, hready⟩ := List.forall_mem_cons.1 hready
    obtain ⟨r₁, hr₁, hwrites⟩ := hstep a List.mem_cons_self r hopenFirst hreadyFirst
    have hsame {b : α} (hb : b ∈ as) : r₁.get? (path b) = r.get? (path b) :=
      hwrites.others (hfirst b hb).symm
    obtain ⟨r', hr', hfound, hothers⟩ :=
      ih (fun b hb => hstep b (List.mem_cons_of_mem _ hb)) hapart
        (fun b hb => hwrites.opens (hfirst b hb).symm (hopen b hb))
        fun b hb => (hsame hb).symm ▸ hready b hb
    refine ⟨r', by rw [applySteps, hr₁]; exact hr', fun b hb => ?_, fun other hother => ?_⟩
    · rcases List.mem_cons.1 hb with rfl | hb
      · rw [(hothers _ hfirst).1, hwrites.found]
      · rw [hfound b hb, hsame hb]
    · obtain ⟨hotherFirst, hother⟩ := List.forall_mem_cons.1 hother
      obtain ⟨hget, hopens⟩ := hothers other hother
      exact ⟨hget.trans (hwrites.others hotherFirst), fun h => hopens (hwrites.opens hotherFirst h)⟩

/-! ### Updates that set and add -/

/-- What becomes of what is at a path when a number is added. -/
def added (path : String) (amount : Datum) : Option Datum → Outcome Datum
  | none => .ok amount
  | some current => addNumbers path current amount

theorem incPath_eq_ok {path : String} {amount d : Datum}
    (h : added path amount (r.get? path) = .ok d) : incPath r path amount = r.setPath path d := by
  unfold incPath
  cases hget : r.get? path with
  | none =>
    rw [hget] at h
    rw [Except.ok.inj h]
  | some current =>
    rw [hget] at h
    have hadd : addNumbers path current amount = .ok d := h
    simp only [hadd]

/-- **An update that tallies**: it only sets values and adds to numbers, at paths that are apart
from each other. -/
structure Tallies (e : Edit) : Prop where
  unset : e.unset = []
  push : e.push = []
  addToSet : e.addToSet = []
  pull : e.pull = []
  apart : (Members.keys e.set ++ Members.keys e.inc ++ Members.keys e.setOnInsert).Pairwise
    Text.Apart

/-- What an update that tallies leaves at each path. -/
structure Tallied (e : Edit) (inserting : Bool) (r r' : Record) : Prop where
  set : ∀ m ∈ e.set, r'.get? m.1 = some m.2
  inc : ∀ m ∈ e.inc, ∀ d, added m.1 m.2 (r.get? m.1) = .ok d → r'.get? m.1 = some d
  setOnInsert : ∀ m ∈ e.setOnInsert, r'.get? m.1 = if inserting then some m.2 else r.get? m.1
  other (path : String) : (∀ m ∈ e.set, Text.Apart path m.1) →
    (∀ m ∈ e.inc, Text.Apart path m.1) → (∀ m ∈ e.setOnInsert, Text.Apart path m.1) →
    r'.get? path = r.get? path

/-- The paths that an update sets, all at once. -/
theorem setAll_apart {members : Members Datum}
    (hapart : members.Pairwise fun m n => Text.Apart m.1 n.1)
    (hopen : ∀ m ∈ members, OpenAt m.1 r) :
    ∃ r', setAll members r = (.ok (), r') ∧ (∀ m ∈ members, r'.get? m.1 = some m.2) ∧
      ∀ path, (∀ m ∈ members, Text.Apart path m.1) →
        r'.get? path = r.get? path ∧ (OpenAt path r → OpenAt path r') :=
  applySteps_apart Prod.fst (fun m _ => m.2) (fun _ _ => True)
    (fun m _ _ hopen _ => Record.setPath_open hopen m.2) hapart hopen fun _ _ => trivial

/-- The paths that an update adds to, all at once. -/
theorem applySteps_incPath_apart {members : Members Datum}
    (hapart : members.Pairwise fun m n => Text.Apart m.1 n.1)
    (hopen : ∀ m ∈ members, OpenAt m.1 r)
    (hadded : ∀ m ∈ members, ∃ d, added m.1 m.2 (r.get? m.1) = .ok d) :
    ∃ r', applySteps (fun r m => incPath r m.1 m.2) r members = (.ok (), r') ∧
      (∀ m ∈ members, ∀ d, added m.1 m.2 (r.get? m.1) = .ok d → r'.get? m.1 = some d) ∧
      ∀ path, (∀ m ∈ members, Text.Apart path m.1) →
        r'.get? path = r.get? path ∧ (OpenAt path r → OpenAt path r') := by
  have hstep : ∀ m ∈ members, ∀ r, OpenAt m.1 r → (∃ d, added m.1 m.2 (r.get? m.1) = .ok d) →
      ∃ r', incPath r m.1 m.2 = (.ok (), r') ∧
        Writes m.1 ((added m.1 m.2 (r.get? m.1)).toOption.getD .null) r r' := by
    rintro m - r hopen ⟨d, hd⟩
    rw [incPath_eq_ok hd, hd]
    exact Record.setPath_open hopen d
  obtain ⟨r', hsteps, hfound, hothers⟩ := applySteps_apart Prod.fst
    (fun m x => (added m.1 m.2 x).toOption.getD .null) (fun m x => ∃ d, added m.1 m.2 x = .ok d)
    hstep hapart hopen hadded
  refine ⟨r', hsteps, fun m hm d hd => ?_, hothers⟩
  rw [hfound m hm, hd]
  rfl

/-- **An update that tallies** succeeds where its paths are open and the numbers can be added. -/
theorem Tallies.apply {e : Edit} (h : e.Tallies) (inserting : Bool)
    (hset : ∀ m ∈ e.set, OpenAt m.1 r) (hinc : ∀ m ∈ e.inc, OpenAt m.1 r)
    (honInsert : ∀ m ∈ e.setOnInsert, OpenAt m.1 r)
    (hadded : ∀ m ∈ e.inc, ∃ d, added m.1 m.2 (r.get? m.1) = .ok d) :
    ∃ r', e.apply inserting r = .ok r' ∧ Tallied e inserting r r' := by
  obtain ⟨hboth, hapartOnInsert, hcross⟩ := List.pairwise_append.1 h.apart
  obtain ⟨hapartSet, hapartInc, hsetInc⟩ := List.pairwise_append.1 hboth
  have hkey {members : Members Datum} {m : String × Datum} (hm : m ∈ members) :
      m.1 ∈ Members.keys members := List.mem_map_of_mem hm
  have hincSet (m) (hm : m ∈ e.inc) (n) (hn : n ∈ e.set) : Text.Apart m.1 n.1 :=
    (hsetInc _ (hkey hn) _ (hkey hm)).symm
  have honInsertSet (m) (hm : m ∈ e.setOnInsert) (n) (hn : n ∈ e.set) : Text.Apart m.1 n.1 :=
    (hcross _ (List.mem_append_left _ (hkey hn)) _ (hkey hm)).symm
  have honInsertInc (m) (hm : m ∈ e.setOnInsert) (n) (hn : n ∈ e.inc) : Text.Apart m.1 n.1 :=
    (hcross _ (List.mem_append_right _ (hkey hn)) _ (hkey hm)).symm
  obtain ⟨r₁, hr₁, hfound₁, hothers₁⟩ := setAll_apart (List.pairwise_map.1 hapartSet) hset
  have hsame (m) (hm : m ∈ e.inc) : r₁.get? m.1 = r.get? m.1 := (hothers₁ _ (hincSet m hm)).1
  obtain ⟨r₂, hr₂, hfound₂, hothers₂⟩ := applySteps_incPath_apart (List.pairwise_map.1 hapartInc)
    (fun m hm => (hothers₁ _ (hincSet m hm)).2 (hinc m hm))
    fun m hm => (hsame m hm).symm ▸ hadded m hm
  obtain ⟨r₃, hr₃, hfound₃, hothers₃⟩ := setAll_apart (List.pairwise_map.1 hapartOnInsert)
    fun m hm => (hothers₂ _ (honInsertInc m hm)).2
      ((hothers₁ _ (honInsertSet m hm)).2 (honInsert m hm))
  have hsetEnd (m) (hm : m ∈ e.set) : r₂.get? m.1 = some m.2 :=
    (hothers₂ _ fun n hn => (hincSet n hn m hm).symm).1.trans (hfound₁ m hm)
  have hincEnd (m) (hm : m ∈ e.inc) (d) (hd : added m.1 m.2 (r.get? m.1) = .ok d) :
      r₂.get? m.1 = some d := hfound₂ m hm d (hsame m hm ▸ hd)
  have happly (r') (hlast : (if inserting then setAll e.setOnInsert r₂ else (.ok (), r₂)) =
      (.ok (), r')) : e.apply inserting r = .ok r' := by
    simp only [Edit.apply, applyFrom, hr₁, h.unset, h.push, h.addToSet, h.pull, andThen,
      List.foldl_nil, hr₂, applySteps, hlast]
  cases inserting with
  | true =>
    refine ⟨r₃, happly r₃ hr₃, fun m hm => ?_, fun m hm d hd => ?_, hfound₃,
      fun path hpath hpath' hpath'' => ?_⟩
    · exact (hothers₃ _ fun n hn => (honInsertSet n hn m hm).symm).1.trans (hsetEnd m hm)
    · exact (hothers₃ _ fun n hn => (honInsertInc n hn m hm).symm).1.trans (hincEnd m hm d hd)
    · rw [(hothers₃ _ hpath'').1, (hothers₂ _ hpath').1, (hothers₁ _ hpath).1]
  | false =>
    refine ⟨r₂, happly r₂ rfl, hsetEnd, hincEnd, fun m hm => ?_, fun path hpath hpath' _ => ?_⟩
    · exact ((hothers₂ _ (honInsertInc m hm)).1).trans (hothers₁ _ (honInsertSet m hm)).1
    · rw [(hothers₂ _ hpath').1, (hothers₁ _ hpath).1]

end Edit

end ObjectEngine
