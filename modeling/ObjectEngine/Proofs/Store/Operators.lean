import ObjectEngine.Proofs.Store.Revising

/-!
# Updates, path by path

An update is a list of operations, each with the path that it touches (`Edit.applied`).
`Edit.Operation.Yields` says what each of them makes of the value at its path. An operation
succeeds where it can do so, and then it revises the value at its path and nothing else
(`Edit.Operation.run_eq_ok`).

If the paths that an update touches are apart from each other, then no operation gets to see what
another one did: at every path touched there is afterwards what the operator makes of what was
there before, at the paths apart from them there is what was there, and whichever order the
operations are applied in, the same record comes of them (`Edit.apply_apart`).
-/

namespace ObjectEngine

/-! ### Paths that overlap -/

namespace Text

variable {a b : String}

theorem splitChars_append_dot (cs ds : List Char) :
    splitChars '.' (cs ++ '.' :: ds) = splitChars '.' cs ++ splitChars '.' ds := by
  induction cs with
  | nil => simp [splitChars]
  | cons c cs ih =>
    rw [List.cons_append]
    by_cases hc : c = '.'
    · rw [splitChars, if_pos hc, splitChars, if_pos hc, ih, List.cons_append]
    · obtain ⟨piece, pieces, hcs, hsplit⟩ := splitChars_cons_of_ne hc cs
      rw [hsplit, splitChars, if_neg hc, ih, hcs, List.cons_append, List.cons_append]

theorem split_append_dot (a b : String) : split '.' (a ++ "." ++ b) = split '.' a ++ split '.' b := by
  have htext : (a ++ "." ++ b).toList = a.toList ++ '.' :: b.toList := by simp
  rw [split, htext, splitChars_append_dot, List.map_append, ← split, ← split]

/-- **Paths are apart** if they are different and neither is the other with a full stop and more
after it. -/
theorem apart_iff :
    Apart a b ↔ a ≠ b ∧ (¬∃ c, b = a ++ "." ++ c) ∧ ¬∃ c, a = b ++ "." ++ c := by
  have hprefix (a b : String) : split '.' a <+: split '.' b ↔ b = a ∨ ∃ c, b = a ++ "." ++ c := by
    refine ⟨eq_or_append_of_split, ?_⟩
    rintro (rfl | ⟨c, rfl⟩)
    · exact List.prefix_refl _
    · exact split_append_dot a c ▸ List.prefix_append _ _
  rw [Apart, hprefix, hprefix]
  grind

end Text

namespace Edit

/-! ### Operations -/

/-- **One operation** of an update, at its path. -/
inductive Operation
  | set (path : String) (d : Datum)
  | unset (path : String)
  | inc (path : String) (amount : Datum)
  | push (path : String) (ds : List Datum)
  | addToSet (path : String) (ds : List Datum)
  | pull (path : String) (ds : List Datum)
  | setOnInsert (path : String) (d : Datum)

/-- **Items united with others**: each of these, unless one that comes before equals it. -/
inductive Unites : List Datum → List Datum → List Datum → Prop
  | nil {items : List Datum} : Unites items [] items
  | known {items ds united : List Datum} {d : Datum}
    (hd : ∃ x ∈ items, Datum.equalUnder none x d = true) (h : Unites items ds united) :
    Unites items (d :: ds) united
  | new {items ds united : List Datum} {d : Datum}
    (hd : ∀ x ∈ items, Datum.equalUnder none x d = false) (h : Unites (items ++ [d]) ds united) :
    Unites items (d :: ds) united

namespace Operation

/-- The path that an operation touches. -/
def path : Operation → String
  | set path _ | unset path | inc path _ | push path _ | addToSet path _ | pull path _
  | setOnInsert path _ => path

/-- The name of an operation's operator. -/
def name : Operation → String
  | set .. => "$set"
  | unset .. => "$unset"
  | inc .. => "$inc"
  | push .. => "$push"
  | addToSet .. => "$addToSet"
  | pull .. => "$pullAll"
  | setOnInsert .. => "$setOnInsert"

/-- What an operation touches: its path, with the name of the operator. -/
def touch (o : Operation) : String × String := (o.path, o.name)

/-- Carries out an operation on a record. -/
def run : Operation → Record → Outcome Unit × Record
  | set path d, r => r.setPath path d
  | unset path, r => (.ok (), r.unsetPath path)
  | inc path amount, r => incPath r path amount
  | push path ds, r => arrayPath "$push" (· ++ ds) r path
  | addToSet path ds, r => arrayPath "$addToSet" (ds.foldl addIfNew ·) r path
  | pull path ds, r => pullPath r path ds
  | setOnInsert path d, r => r.setPath path d

/-- **What an operation makes** of the value at its path, if there is one. -/
inductive Yields : Operation → Option Datum → Option Datum → Prop
  | set {path : String} {d : Datum} {x : Option Datum} : Yields (.set path d) x (some d)
  | setOnInsert {path : String} {d : Datum} {x : Option Datum} :
    Yields (.setOnInsert path d) x (some d)
  | unset {path : String} {x : Option Datum} : Yields (.unset path) x none
  | incMissing {path : String} {amount : Datum} : Yields (.inc path amount) none (some amount)
  /-- Of integers the exact sum. -/
  | incInt {path : String} {a b sum : Int64} (h : sum.toInt = a.toInt + b.toInt) :
    Yields (.inc path (.int b)) (some (.int a)) (some (.int sum))
  | incDouble {path : String} {current amount : Datum} {a b : Double}
    (hkind : ∀ m n, ¬(current = .int m ∧ amount = .int n)) (ha : current.asDouble? = some a)
    (hb : amount.asDouble? = some b) :
    Yields (.inc path amount) (some current) (some (.double (a.add b)))
  | pushMissing {path : String} {ds : List Datum} : Yields (.push path ds) none (some (.array ds))
  | push {path : String} {ds items : List Datum} :
    Yields (.push path ds) (some (.array items)) (some (.array (items ++ ds)))
  | addToSetMissing {path : String} {ds united : List Datum} (h : Unites [] ds united) :
    Yields (.addToSet path ds) none (some (.array united))
  | addToSet {path : String} {ds items united : List Datum} (h : Unites items ds united) :
    Yields (.addToSet path ds) (some (.array items)) (some (.array united))
  | pullMissing {path : String} {ds : List Datum} : Yields (.pull path ds) none none
  | pull {path : String} {ds items left : List Datum}
    (h : left = items.filter fun x => ∀ d ∈ ds, Datum.equalUnder none x d = false) :
    Yields (.pull path ds) (some (.array items)) (some (.array left))

/-- **An operation whose value is in key order**, at every depth that a way leads to. -/
def Ordered : Operation → Prop
  | set _ d | setOnInsert _ d | inc _ d => d.Ordered
  | unset _ | push .. | addToSet .. | pull .. => True

end Operation

theorem unites_foldl (items ds : List Datum) : Unites items ds (ds.foldl addIfNew items) := by
  induction ds generalizing items with
  | nil => exact .nil
  | cons d ds ih =>
    rw [List.foldl_cons, addIfNew]
    split
    case isTrue h =>
      exact .known (by simpa using h) (ih items)
    case isFalse h =>
      exact .new (by simpa using h) (ih _)

theorem unites_iff {items ds united : List Datum} :
    Unites items ds united ↔ united = ds.foldl addIfNew items := by
  refine ⟨fun h => ?_, fun h => h ▸ unites_foldl items ds⟩
  induction h with
  | nil => rfl
  | known hd h ih =>
    rw [List.foldl_cons, addIfNew, if_pos (by simpa using hd)]
    exact ih
  | new hd h ih =>
    rw [List.foldl_cons, addIfNew, if_neg (by simpa using hd)]
    exact ih

namespace Operation

variable {o : Operation} {path : String} {r r' : Record} {x z : Option Datum}

/-! ### What operations do -/

theorem removeAll_eq (ds items : List Datum) :
    removeAll ds items = items.filter fun x => ∀ d ∈ ds, Datum.equalUnder none x d = false := by
  refine List.filter_congr fun x _ => ?_
  rw [Bool.eq_iff_iff]
  simp

theorem yields_set {d : Datum} : Yields (.set path d) x z ↔ z = some d :=
  ⟨fun h => by cases h; rfl, fun h => h ▸ .set⟩

theorem yields_setOnInsert {d : Datum} : Yields (.setOnInsert path d) x z ↔ z = some d :=
  ⟨fun h => by cases h; rfl, fun h => h ▸ .setOnInsert⟩

theorem yields_unset : Yields (.unset path) x z ↔ z = none :=
  ⟨fun h => by cases h; rfl, fun h => h ▸ .unset⟩

theorem addNumbers_int {a b : Int64} {d : Datum} :
    addNumbers path (.int a) (.int b) = .ok d ↔
      ∃ sum : Int64, sum.toInt = a.toInt + b.toInt ∧ d = .int sum := by
  simp only [addNumbers, ← Words.int64?_eq_some_iff]
  cases Words.int64? (a.toInt + b.toInt) <;> simp [eq_comm]

theorem addNumbers_double {current amount d : Datum}
    (hkind : ∀ m n, ¬(current = .int m ∧ amount = .int n)) :
    addNumbers path current amount = .ok d ↔
      ∃ a b, current.asDouble? = some a ∧ amount.asDouble? = some b ∧ d = .double (a.add b) := by
  unfold addNumbers
  split
  · exact absurd ⟨rfl, rfl⟩ (hkind _ _)
  · cases current.asDouble? <;> cases amount.asDouble? <;> simp [eq_comm]

/-- What an addition makes of a value is what is added to it. -/
theorem yields_inc {amount : Datum} :
    Yields (.inc path amount) x z ↔ ∃ d, added path amount x = .ok d ∧ z = some d := by
  constructor
  · intro h
    cases h with
    | incMissing => exact ⟨amount, rfl, rfl⟩
    | incInt h => exact ⟨_, addNumbers_int.2 ⟨_, h, rfl⟩, rfl⟩
    | incDouble hkind ha hb => exact ⟨_, (addNumbers_double hkind).2 ⟨_, _, ha, hb, rfl⟩, rfl⟩
  · rintro ⟨d, hd, rfl⟩
    cases x with
    | none =>
      obtain rfl := Except.ok.inj hd
      exact .incMissing
    | some current =>
      by_cases hkind : ∃ m n, current = .int m ∧ amount = .int n
      · obtain ⟨m, n, rfl, rfl⟩ := hkind
        obtain ⟨sum, hsum, rfl⟩ := addNumbers_int.1 hd
        exact .incInt hsum
      · have hkind (m n) : ¬(current = .int m ∧ amount = .int n) := fun h => hkind ⟨m, n, h⟩
        obtain ⟨a, b, ha, hb, rfl⟩ := (addNumbers_double hkind).1 hd
        exact .incDouble hkind ha hb

/-- What becomes of the array that is at a path, or of none, when its items are changed. -/
def altered (op path : String) (change : List Datum → List Datum) : Option Datum → Outcome Datum
  | none => .ok (.array (change []))
  | some (.array items) => .ok (.array (change items))
  | some d => .error (arrayMismatch op path d)

theorem arrayPath_eq (op path : String) (change : List Datum → List Datum) (r : Record) :
    arrayPath op change r path =
      r.alterAlong path (altered op path change) (Text.split '.' path) := by
  unfold arrayPath
  congr 1

theorem yields_push (op : String) {ds : List Datum} :
    Yields (.push path ds) x z ↔ ∃ d, altered op path (· ++ ds) x = .ok d ∧ z = some d := by
  constructor
  · intro h
    cases h with
    | pushMissing => exact ⟨_, rfl, rfl⟩
    | push => exact ⟨_, rfl, rfl⟩
  · rintro ⟨d, hd, rfl⟩
    unfold altered at hd
    split at hd
    · obtain rfl := Except.ok.inj hd
      exact .pushMissing
    · obtain rfl := Except.ok.inj hd
      exact .push
    · exact absurd hd (by simp)

theorem yields_addToSet (op : String) {ds : List Datum} :
    Yields (.addToSet path ds) x z ↔
      ∃ d, altered op path (ds.foldl addIfNew ·) x = .ok d ∧ z = some d := by
  constructor
  · intro h
    cases h with
    | addToSetMissing h => exact ⟨_, rfl, unites_iff.1 h ▸ rfl⟩
    | addToSet h => exact ⟨_, rfl, unites_iff.1 h ▸ rfl⟩
  · rintro ⟨d, hd, rfl⟩
    unfold altered at hd
    split at hd
    · obtain rfl := Except.ok.inj hd
      exact .addToSetMissing (unites_foldl [] ds)
    · obtain rfl := Except.ok.inj hd
      exact .addToSet (unites_foldl _ ds)
    · exact absurd hd (by simp)

/-- **An operation makes one thing** of a value, if anything. -/
theorem Yields.unique {z' : Option Datum} (h : o.Yields x z) (h' : o.Yields x z') : z = z' := by
  have hresult {f : Option Datum → Outcome Datum} (h : ∃ d, f x = .ok d ∧ z = some d)
      (h' : ∃ d, f x = .ok d ∧ z' = some d) : z = z' := by
    obtain ⟨d, hd, rfl⟩ := h
    obtain ⟨d', hd', rfl⟩ := h'
    rw [Except.ok.inj (hd.symm.trans hd')]
  cases o with
  | set path d => exact (yields_set.1 h).trans (yields_set.1 h').symm
  | unset path => exact (yields_unset.1 h).trans (yields_unset.1 h').symm
  | inc path amount => exact hresult (yields_inc.1 h) (yields_inc.1 h')
  | push path ds => exact hresult ((yields_push "$push").1 h) ((yields_push "$push").1 h')
  | addToSet path ds =>
    exact hresult ((yields_addToSet "$addToSet").1 h) ((yields_addToSet "$addToSet").1 h')
  | pull path ds =>
    cases h with
    | pullMissing => cases h'; rfl
    | pull h =>
      cases h' with
      | pull h' => rw [h, h']
  | setOnInsert path d => exact (yields_setOnInsert.1 h).trans (yields_setOnInsert.1 h').symm

/-- What an operation makes of a value in key order is in key order. -/
theorem Yields.ordered (h : o.Yields x z) (ho : o.Ordered) (d : Datum) (hd : z = some d) :
    d.Ordered := by
  cases h with
  | set | setOnInsert | incMissing => exact Option.some.inj hd ▸ ho
  | unset | pullMissing => exact absurd hd (by simp)
  | _ => exact Option.some.inj hd ▸ .other rfl

end Operation

end Edit

/-! ### Operations on records -/

namespace Record

open Datum (Revised)

variable {path : String} {segments : List String} {r r' : Record}

/-- What stands under a key, if it is not a record. -/
theorem exists_of_not_nests {s : String} (h : ¬Nests s r) :
    ∃ d, r.lookup s = some d ∧ d.isRecord = false := by
  obtain ⟨d, hd⟩ := not_forall.1 h
  obtain ⟨hlookup, hother⟩ := Classical.not_imp.1 hd
  exact ⟨d, hlookup, d.record_or_other.resolve_left hother⟩

/-- To put something below a key is to put it into the record there, which is new if there is
none. -/
theorem revised_nested {change : Option Datum → Option Datum → Prop} {s : String}
    {rest : List String} {z : Option Datum} (hrest : rest ≠ []) (hnests : Nests s r)
    (hputs : ∀ x z, change x z → z.isSome) :
    Revised change rest (r.lookup s) z ↔ Revised change rest (some (.record (nested s r))) z := by
  cases hlookup : r.lookup s with
  | none =>
    rw [nested, hlookup]
    exact (Datum.revised_empty hrest hputs).symm
  | some d =>
    obtain ⟨inner, rfl⟩ := hnests d hlookup
    rw [nested_of_lookup hlookup]

/-- **A change along a path** succeeds where it revises the value there. -/
theorem alterAlong_eq_ok {change : Option Datum → Outcome Datum} (hne : segments ≠ []) :
    alterAlong path change segments r = (.ok (), r') ↔
      Revised (fun x z => ∃ d, change x = .ok d ∧ z = some d) segments (some (.record r))
        (some (.record r')) := by
  have hputs : ∀ x z, (∃ d, change x = .ok d ∧ z = some d) → z.isSome := by
    rintro x _ ⟨d, -, rfl⟩
    rfl
  induction segments generalizing r r' with
  | nil => exact absurd rfl hne
  | cons s rest ih =>
    by_cases hrest : rest = []
    · subst hrest
      rw [alterAlong]
      constructor
      · intro h
        split at h
        · obtain ⟨-, rfl⟩ := Prod.mk.inj h
          exact ⟨_, ⟨_, ‹_›, rfl⟩, rfl⟩
        · exact absurd h (by simp)
      · rintro ⟨_, ⟨d, hd, rfl⟩, h⟩
        obtain rfl := Datum.record.inj (Option.some.inj h)
        rw [hd]
        rfl
    by_cases hnests : Nests s r
    · have hnested (z : Option Datum) := revised_nested (z := z) hrest hnests hputs
      rw [alterAlong_cons hrest hnests, Prod.mk.injEq]
      constructor
      · rintro ⟨hok, rfl⟩
        exact ⟨some _, (hnested _).2 ((ih hrest).1 (Prod.ext hok rfl)), rfl⟩
      · rintro ⟨y, hy, hr'⟩
        obtain ⟨inner, rfl⟩ := ((hnested _).1 hy).isRecord hrest
        rw [(ih hrest).2 ((hnested _).1 hy)]
        exact ⟨rfl, (Datum.record.inj (Option.some.inj hr')).symm⟩
    · obtain ⟨d, hlookup, hd⟩ := exists_of_not_nests hnests
      obtain ⟨s', rest, rfl⟩ := List.exists_cons_of_ne_nil hrest
      constructor
      · intro h
        rw [alterAlong] at h
        · cases d with
          | record inner => exact absurd hd (by simp [Datum.isRecord])
          | _ => simp [hlookup] at h
        · exact hrest
      · rintro ⟨y, hy, -⟩
        rw [hlookup, Datum.revised_other hd] at hy
        exact absurd (hputs _ _ hy.1) (by simp)

/-- **To remove what is at a path** revises the value there. -/
theorem revised_unsetAlong (hr : (Datum.record r).Ordered) (hne : segments ≠ []) :
    Revised (fun _ z => z = none) segments (some (.record r))
      (some (.record (unsetAlong segments r))) := by
  induction segments generalizing r with
  | nil => exact absurd rfl hne
  | cons s rest ih =>
    by_cases hrest : rest = []
    · subst hrest
      exact ⟨none, rfl, rfl⟩
    · have hself (h : Datum.read? (s :: rest) (some (.record r)) = none) :
          Revised (fun _ z => z = none) (s :: rest) (some (.record r)) (some (.record r)) :=
        Datum.revised_self (fun d hd => Option.some.inj hd ▸ hr) h
      rw [unsetAlong]
      · split
        case h_1 inner hlookup =>
          refine ⟨some (.record (unsetAlong rest inner)), ?_, rfl⟩
          rw [hlookup]
          exact ih (hr.lookup hlookup) hrest
        case h_2 hother =>
          refine hself ?_
          rw [Datum.read?_record]
          obtain ⟨s', rest, rfl⟩ := List.exists_cons_of_ne_nil hrest
          cases hlookup : r.lookup s with
          | none => rfl
          | some d =>
            obtain ⟨inner, rfl⟩ | hd := d.record_or_other
            · exact absurd hlookup (hother inner)
            · exact Datum.read?_other hd s' rest
      · exact hrest

theorem setPath_eq_ok {d : Datum} :
    r.setPath path d = (.ok (), r') ↔ Revised (fun _ z => z = some d) (Text.split '.' path)
      (some (.record r)) (some (.record r')) := by
  rw [setPath, alterAlong_eq_ok (Text.split_ne_nil path)]
  simp

end Record

/-! ### One operation on a record -/

namespace Edit.Operation

open Datum (Revised)

variable {o : Operation} {path : String} {r r' : Record}

/-- A value that is determined by what was there is put at a path. -/
theorem setPath_eq_ok_of_yields {d : Datum}
    (h : ∀ z, o.Yields (r.get? o.path) z ↔ z = some d) :
    r.setPath o.path d = (.ok (), r') ↔
      Revised o.Yields (Text.split '.' o.path) (some (.record r)) (some (.record r')) :=
  Record.setPath_eq_ok.trans ⟨fun hr => hr.congr fun z => (h z).2, fun hr => hr.congr fun z => (h z).1⟩

/-- Nothing comes of an operation that makes nothing of what is at its path. -/
theorem not_revised (h : ∀ z, ¬o.Yields (r.get? o.path) z) :
    ¬Revised o.Yields (Text.split '.' o.path) (some (.record r)) (some (.record r')) :=
  fun hr => h _ hr.read

theorem run_inc_eq_ok {amount : Datum} :
    incPath r path amount = (.ok (), r') ↔ Revised (Yields (.inc path amount))
      (Text.split '.' path) (some (.record r)) (some (.record r')) := by
  have hyields (z : Option Datum) : Yields (.inc path amount) (r.get? path) z ↔
      ∃ d, added path amount (r.get? path) = .ok d ∧ z = some d := yields_inc
  cases hadded : added path amount (r.get? path) with
  | ok d =>
    rw [incPath_eq_ok hadded]
    refine setPath_eq_ok_of_yields (o := .inc path amount) fun z => (hyields z).trans ?_
    simp [hadded]
  | error e =>
    refine iff_of_false ?_ (not_revised (o := .inc path amount) fun z hz => ?_)
    · cases hget : r.get? path with
      | none =>
        rw [hget] at hadded
        exact absurd hadded (by simp [added])
      | some current =>
        rw [hget] at hadded
        have hadd : addNumbers path current amount = .error e := hadded
        simp [incPath, hget, hadd]
    · obtain ⟨d, hd, -⟩ := (hyields z).1 hz
      exact absurd (hadded.symm.trans hd) (by simp)

theorem run_pull_eq_ok (hr : (Datum.record r).Ordered) {ds : List Datum} :
    pullPath r path ds = (.ok (), r') ↔ Revised (Yields (.pull path ds))
      (Text.split '.' path) (some (.record r)) (some (.record r')) := by
  cases hget : r.get? path with
  | none =>
    have hself : Revised (Yields (.pull path ds)) (Text.split '.' path) (some (.record r))
        (some (.record r)) := by
      refine Datum.revised_self (fun d hd => Option.some.inj hd ▸ hr) ?_
      change Yields _ (r.get? path) (r.get? path)
      rw [hget]
      exact .pullMissing
    simp only [pullPath, hget, Prod.mk.injEq, true_and]
    constructor
    · rintro rfl
      exact hself
    · intro h
      exact Datum.record.inj (Option.some.inj (hself.unique h fun _ _ _ => Yields.unique))
  | some d =>
    by_cases harray : ∃ items, d = .array items
    · obtain ⟨items, rfl⟩ := harray
      simp only [pullPath, hget]
      refine setPath_eq_ok_of_yields (o := .pull path ds) fun z => ?_
      change Yields (.pull path ds) (r.get? path) z ↔ _
      rw [hget, removeAll_eq]
      exact ⟨fun h => by cases h with | pull h => rw [h], fun h => h ▸ .pull rfl⟩
    · refine iff_of_false ?_ (not_revised (o := .pull path ds) fun z hz => harray ?_)
      · cases d with
        | array items => exact absurd ⟨items, rfl⟩ harray
        | _ => simp [pullPath, hget]
      · change Yields (.pull path ds) (r.get? path) z at hz
        rw [hget] at hz
        cases hz with
        | pull h => exact ⟨_, rfl⟩

theorem run_unset_eq_ok (hr : (Datum.record r).Ordered) :
    run (.unset path) r = (.ok (), r') ↔ Revised (Yields (.unset path))
      (Text.split '.' path) (some (.record r)) (some (.record r')) := by
  have hunset : Revised (Yields (.unset path)) (Text.split '.' path) (some (.record r))
      (some (.record (r.unsetPath path))) :=
    (Record.revised_unsetAlong hr (Text.split_ne_nil path)).congr fun _ => yields_unset.2
  rw [run, Prod.mk.injEq]
  constructor
  · rintro ⟨-, rfl⟩
    exact hunset
  · intro h
    exact ⟨rfl, Datum.record.inj (Option.some.inj
      (hunset.unique h fun _ _ _ => Yields.unique))⟩

/-- **An operation succeeds** where it revises the value at its path. -/
theorem run_eq_ok (hr : (Datum.record r).Ordered) :
    o.run r = (.ok (), r') ↔
      Revised o.Yields (Text.split '.' o.path) (some (.record r)) (some (.record r')) := by
  have hchange {f : Option Datum → Outcome Datum}
      (h : ∀ x z, o.Yields x z ↔ ∃ d, f x = .ok d ∧ z = some d) :
      r.alterAlong o.path f (Text.split '.' o.path) = (.ok (), r') ↔
        Revised o.Yields (Text.split '.' o.path) (some (.record r)) (some (.record r')) := by
    have hyields : o.Yields = fun x z => ∃ d, f x = .ok d ∧ z = some d :=
      funext fun x => funext fun z => propext (h x z)
    rw [hyields]
    exact Record.alterAlong_eq_ok (Text.split_ne_nil _)
  cases o with
  | set path d => exact hchange (f := fun _ => .ok d) fun x z => by simp [yields_set]
  | unset path => exact run_unset_eq_ok hr
  | inc path amount => exact run_inc_eq_ok
  | push path ds =>
    rw [run, arrayPath_eq]
    exact hchange fun _ _ => yields_push "$push"
  | addToSet path ds =>
    rw [run, arrayPath_eq]
    exact hchange fun _ _ => yields_addToSet "$addToSet"
  | pull path ds => exact run_pull_eq_ok hr
  | setOnInsert path d => exact hchange (f := fun _ => .ok d) fun x z => by simp [yields_setOnInsert]

/-- An operation leaves a record in key order. -/
theorem ordered_run (hr : (Datum.record r).Ordered) (ho : o.Ordered) (h : o.run r = (.ok (), r')) :
    (Datum.record r').Ordered :=
  ((run_eq_ok hr).1 h).ordered (fun _ _ hy _ => hy.ordered ho)
    (fun _ hd => Option.some.inj hd ▸ hr) _ rfl

end Edit.Operation

namespace Edit

open Operation (run_eq_ok ordered_run)

variable {o : Operation} {ops ops' : List Operation} {r r' : Record}

/-! ### Several operations -/

section Steps

variable {α β : Type} {step : Record → α → Outcome Unit × Record}

theorem applySteps_cons_eq_ok {a : α} {as : List α} :
    applySteps step r (a :: as) = (.ok (), r') ↔
      ∃ x, step r a = (.ok (), x) ∧ applySteps step x as = (.ok (), r') := by
  rw [applySteps]
  obtain ⟨_ | _, x⟩ := step r a <;> simp

theorem applySteps_append (as bs : List α) (r : Record) :
    applySteps step r (as ++ bs) =
      andThen (applySteps step r as) fun r => applySteps step r bs := by
  induction as generalizing r with
  | nil => rfl
  | cons a as ih =>
    rw [List.cons_append, applySteps, applySteps]
    obtain ⟨_ | _, x⟩ := step r a
    · rfl
    · exact ih x

theorem applySteps_map (f : β → α) (bs : List β) (r : Record) :
    applySteps step r (bs.map f) = applySteps (fun r b => step r (f b)) r bs := by
  induction bs generalizing r with
  | nil => rfl
  | cons b bs ih =>
    rw [List.map_cons, applySteps, applySteps]
    obtain ⟨_ | _, x⟩ := step r (f b)
    · rfl
    · exact ih x

theorem applySteps_ok (f : Record → α → Record) (as : List α) (r : Record) :
    applySteps (fun r a => (.ok (), f r a)) r as = (.ok (), as.foldl f r) := by
  induction as generalizing r with
  | nil => rfl
  | cons a as ih => exact ih (f r a)

end Steps

/-- Carries out operations one after another. -/
def runAll (ops : List Operation) (r : Record) : Outcome Unit × Record :=
  applySteps (fun r o => o.run r) r ops

/-- **Operations at paths apart from each other**: each sees what was there before them all, and
elsewhere nothing changes. -/
theorem runAll_yields (hr : (Datum.record r).Ordered) (hops : ∀ o ∈ ops, o.Ordered)
    (hapart : ops.Pairwise fun o p => Text.Apart o.path p.path)
    (h : runAll ops r = (.ok (), r')) :
    (∀ o ∈ ops, o.Yields (r.get? o.path) (r'.get? o.path)) ∧
      ∀ path, (∀ o ∈ ops, Text.Apart path o.path) → r'.get? path = r.get? path := by
  induction ops generalizing r with
  | nil =>
    obtain ⟨-, rfl⟩ := Prod.mk.inj h
    exact ⟨fun _ ho => absurd ho List.not_mem_nil, fun _ _ => rfl⟩
  | cons o ops ih =>
    obtain ⟨hfirst, hapart⟩ := List.pairwise_cons.1 hapart
    obtain ⟨ho, hops⟩ := List.forall_mem_cons.1 hops
    obtain ⟨x, hx, h⟩ := applySteps_cons_eq_ok.1 h
    have hrevised := (run_eq_ok hr).1 hx
    have hothers {path : String} (hpath : Text.Apart path o.path) : x.get? path = r.get? path :=
      hrevised.read_apart hpath.2 hpath.1
    obtain ⟨hyields, hrest⟩ := ih (ordered_run hr ho hx) hops hapart h
    constructor
    · rintro p hp
      rcases List.mem_cons.1 hp with rfl | hp
      · rw [hrest p.path hfirst]
        exact hrevised.read
      · rw [← hothers (hfirst p hp).symm]
        exact hyields p hp
    · intro path hpath
      obtain ⟨hpath, hpaths⟩ := List.forall_mem_cons.1 hpath
      rw [hrest path hpaths, hothers hpath]

/-- **Operations at paths apart from each other** can be carried out in every order. -/
theorem runAll_perm (hperm : ops.Perm ops') (hr : (Datum.record r).Ordered)
    (hops : ∀ o ∈ ops, o.Ordered) (hapart : ops.Pairwise fun o p => Text.Apart o.path p.path)
    (h : runAll ops r = (.ok (), r')) : runAll ops' r = (.ok (), r') := by
  induction hperm generalizing r with
  | nil => exact h
  | cons o hperm ih =>
    obtain ⟨x, hx, h⟩ := applySteps_cons_eq_ok.1 h
    obtain ⟨ho, hops⟩ := List.forall_mem_cons.1 hops
    exact applySteps_cons_eq_ok.2
      ⟨x, hx, ih (ordered_run hr ho hx) hops (List.pairwise_cons.1 hapart).2 h⟩
  | swap o p ops =>
    obtain ⟨x, hx, h⟩ := applySteps_cons_eq_ok.1 h
    obtain ⟨y, hy, h⟩ := applySteps_cons_eq_ok.1 h
    obtain ⟨hp, hops⟩ := List.forall_mem_cons.1 hops
    obtain ⟨ho, -⟩ := List.forall_mem_cons.1 hops
    have hpo := (List.pairwise_cons.1 hapart).1 o List.mem_cons_self
    have hrx := ordered_run hr hp hx
    obtain ⟨z, hz, hzy⟩ := ((run_eq_ok hr).1 hx).comm ((run_eq_ok hrx).1 hy)
      (fun _ hd => Option.some.inj hd ▸ hr) hpo.1 hpo.2
    obtain ⟨x', rfl⟩ := hz.isRecord (Text.split_ne_nil _)
    have hx' : o.run r = (.ok (), x') := (run_eq_ok hr).2 hz
    exact applySteps_cons_eq_ok.2 ⟨x', hx', applySteps_cons_eq_ok.2
      ⟨y, (run_eq_ok (ordered_run hr ho hx')).2 hzy, h⟩⟩
  | trans hperm _ ih ih' =>
    refine ih' hr (fun o ho => hops o (hperm.mem_iff.2 ho)) ?_ (ih hr hops hapart h)
    exact (hperm.pairwise_iff Text.Apart.symm).1 hapart

/-! ### Updates -/

/-- What an update does to every record, in the order in which it is done. -/
def always (e : Edit) : List Operation :=
  e.set.map (fun m => .set m.1 m.2) ++ e.unset.map .unset ++ e.inc.map (fun m => .inc m.1 m.2) ++
  e.push.map (fun m => .push m.1 m.2) ++ e.addToSet.map (fun m => .addToSet m.1 m.2) ++
  e.pull.map fun m => .pull m.1 m.2

/-- What an update does to a record that is being inserted only. -/
def onInsertion (e : Edit) : List Operation := e.setOnInsert.map fun m => .setOnInsert m.1 m.2

/-- **The operations of an update.** -/
def operations (e : Edit) : List Operation := e.always ++ e.onInsertion

/-- The operations of an update that are applied. -/
def applied (e : Edit) (inserting : Bool) : List Operation :=
  e.always ++ if inserting then e.onInsertion else []

theorem touched_eq (e : Edit) : e.touched = e.operations.map Operation.touch := by
  simp only [touched, operations, always, onInsertion, Members.keys, List.map_append,
    List.map_map]
  rfl

/-- **An update carries out** its operations. -/
theorem applyFrom_eq (e : Edit) (inserting : Bool) (r : Record) :
    e.applyFrom inserting r = runAll (e.applied inserting) r := by
  have hlast (r : Record) : applySteps (fun r (o : Operation) => o.run r) r
      (if inserting then e.onInsertion else []) =
        if inserting then setAll e.setOnInsert r else (.ok (), r) := by
    cases inserting with
    | true => exact applySteps_map ..
    | false => rfl
  have hunset (r : Record) : applySteps (fun r path => (Operation.unset path).run r) r e.unset =
      (.ok (), e.unset.foldl (fun r p => r.unsetPath p) r) := applySteps_ok ..
  simp only [applyFrom, runAll, applied, always, List.append_assoc, applySteps_append,
    applySteps_map, hunset, hlast]
  rfl

/-- **What an update does** at paths that are apart from each other: at every path that it touches
there is what the operator makes of what was there, at the paths apart from them all there is what
was there, and its operations give the same record in every order. -/
theorem apply_apart {e : Edit} {inserting : Bool} (hr : (Datum.record r).Ordered)
    (he : ∀ o ∈ e.operations, o.Ordered)
    (hapart : (e.touched.map Prod.fst).Pairwise Text.Apart) (h : e.apply inserting r = .ok r') :
    (∀ o ∈ e.applied inserting, o.Yields (r.get? o.path) (r'.get? o.path)) ∧
      (∀ path, (∀ t ∈ e.touched, Text.Apart path t.1) → r'.get? path = r.get? path) ∧
      (inserting = false → ∀ m ∈ e.setOnInsert, r'.get? m.1 = r.get? m.1) ∧
      ∀ ops, ops.Perm (e.applied inserting) → runAll ops r = (.ok (), r') := by
  have hsub : (e.applied inserting).Sublist e.operations := by
    refine List.Sublist.append_left ?_ _
    split
    · exact .refl _
    · exact List.nil_sublist _
  have hall : e.operations.Pairwise fun o p => Text.Apart o.path p.path := by
    rw [touched_eq, List.map_map] at hapart
    exact List.pairwise_map.1 hapart
  have happlied := hall.sublist hsub
  have hordered (o) (ho : o ∈ e.applied inserting) : o.Ordered := he o (hsub.subset ho)
  have hrun : runAll (e.applied inserting) r = (.ok (), r') := by
    rw [← applyFrom_eq]
    unfold apply at h
    split at h
    case h_1 x hx => rw [hx, Except.ok.inj h]
    case h_2 => exact absurd h (by simp)
  obtain ⟨hyields, hothers⟩ := runAll_yields hr hordered happlied hrun
  refine ⟨hyields, fun path hpath => hothers path fun o ho => ?_, fun hnot m hm => ?_,
    fun ops hperm => runAll_perm hperm.symm hr hordered happlied hrun⟩
  · refine hpath o.touch ?_
    rw [touched_eq]
    exact List.mem_map_of_mem (hsub.subset ho)
  · -- A path that only an insertion sets is apart from those that the update touches.
    refine hothers m.1 fun o ho => ?_
    rw [applied, hnot, if_neg (by simp), List.append_nil] at ho
    exact ((List.pairwise_append.1 hall).2.2 o ho (.setOnInsert m.1 m.2)
      (List.mem_map_of_mem hm)).symm

/-- Two operators within one record, in the order in which they are not applied. -/
theorem runAll_inc_set :
    runAll [.inc "a.c" (.int 2), .set "a.b" .null] [("a", .record [("c", .int 3)])] =
      (.ok (), [("a", .record [("b", .null), ("c", .int 5)])]) := by
  have hr : (Datum.record [("a", .record [("c", .int 3)])]).Ordered :=
    .record (by decide) (by simpa using .record (by decide) (by simpa using .other rfl))
  have happly : ({ set := [("a.b", .null)], inc := [("a.c", .int 2)] } : Edit).apply false
      [("a", .record [("c", .int 3)])] = .ok [("a", .record [("b", .null), ("c", .int 5)])] := rfl
  have hordered : ∀ o ∈ operations { set := [("a.b", .null)], inc := [("a.c", .int 2)] },
      o.Ordered := by
    simpa [operations, always, onInsertion, Operation.Ordered] using
      And.intro (.other rfl : Datum.Ordered .null) (.other rfl : Datum.Ordered (.int 2))
  exact (apply_apart hr hordered (by decide) happly).2.2.2 _ (.swap ..)

end Edit

end ObjectEngine
