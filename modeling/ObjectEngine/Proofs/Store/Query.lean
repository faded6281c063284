import ObjectEngine.Proofs.Store.Edits
import ObjectEngine.Proofs.Store.Effect

/-!
# What a query finds

The records that a query answers are records of its collection that satisfy its predicate, up
to the projection (`Store.exists_found`), and a query changes nothing (`Store.sameContent_find`).

The delay of a query is carried from one evaluation to the next, so an evaluation is a function of
the delay collected before it (`Predicate.evalFrom`), and a conjunction evaluates one part after
another as long as they hold (`Predicate.andThen`). That is associative. Both predicates at once
are evaluated one after the other, however they are flattened, with the same answer or failure and
after the same delay (`Predicate.evalFrom_both`).

To read predicates, a conjunction holds where its parts do (`Predicate.eval_both`), and an equality
at a plain key is a statement about one member (`Predicate.eval_key_eq`).

A predicate without scripts reads a record only at its paths, and a path reads only the member it
starts with (`Predicate.Over`). So do the keys of an order and a projection. Records that agree on
the members that a query reads are the same to it: it finds the one where it finds the other, takes
as long, fails for the same reason, and puts them in the same order (`Store.query_related`).
-/

namespace ObjectEngine

namespace Predicate

variable {c : Option Collation} {r : Record}

/-! ### Where a predicate holds -/

/-- A conjunction holds where all of its parts do. -/
theorem evalUntil_false {parts : List Predicate} :
    (evalUntil c r false parts).1 = .ok true ↔ ∀ p ∈ parts, (p.eval c r).1 = .ok true := by
  induction parts with
  | nil => simp [evalUntil]
  | cons p rest ih =>
    rw [evalUntil, List.forall_mem_cons, ← ih]
    rcases p.eval c r with ⟨_ | b, delay⟩
    · simp
    · cases b <;> simp

/-- A disjunction holds only where one of its parts does. -/
theorem exists_of_evalUntil_true {parts : List Predicate}
    (h : (evalUntil c r true parts).1 = .ok true) : ∃ p ∈ parts, (p.eval c r).1 = .ok true := by
  induction parts with
  | nil => simp [evalUntil] at h
  | cons p rest ih =>
    rw [evalUntil] at h
    rcases hp : p.eval c r with ⟨_ | b, delay⟩
    · simp [hp] at h
    · cases b with
      | true => exact ⟨p, List.mem_cons_self, by rw [hp]⟩
      | false =>
        obtain ⟨q, hq, hholds⟩ := ih (by simpa [hp] using h)
        exact ⟨q, List.mem_cons_of_mem _ hq, hholds⟩

theorem eval_and {parts : List Predicate} :
    ((Predicate.and parts).eval c r).1 = .ok true ↔ ∀ p ∈ parts, (p.eval c r).1 = .ok true := by
  rw [eval, evalUntil_false]

theorem eval_all : ((Predicate.all).eval c r).1 = .ok true := by
  rw [eval]

theorem both_all (p : Predicate) : p.both .all = p := by
  cases p <;> rfl

/-! ### One evaluation after another -/

/-- **Evaluation from a delay** collected before, to which the predicate adds its own. -/
def evalFrom (c : Option Collation) (r : Record) (p : Predicate) (delayMs : Nat) :
    Outcome Bool × Nat :=
  ((p.eval c r).1, delayMs + (p.eval c r).2)

theorem evalFrom_zero (c : Option Collation) (r : Record) (p : Predicate) :
    p.evalFrom c r 0 = p.eval c r := by
  rw [evalFrom, Nat.zero_add]

/-- **One evaluation after another**: the second goes on from the delay of the first, and only
where the first holds. -/
def andThen (first second : Nat → Outcome Bool × Nat) (delayMs : Nat) : Outcome Bool × Nat :=
  match first delayMs with
  | (.ok true, delayMs) => second delayMs
  | stopped => stopped

theorem andThen_assoc (x y z : Nat → Outcome Bool × Nat) :
    andThen (andThen x y) z = andThen x (andThen y z) := by
  funext delayMs
  unfold andThen
  rcases x delayMs with ⟨_ | b, delay⟩
  · rfl
  · cases b <;> rfl

@[simp] theorem all_andThen (x : Nat → Outcome Bool × Nat) :
    andThen (evalFrom c r .all) x = x := by
  funext delayMs
  simp [andThen, evalFrom, eval]

@[simp] theorem andThen_all (x : Nat → Outcome Bool × Nat) :
    andThen x (evalFrom c r .all) = x := by
  funext delayMs
  unfold andThen
  rcases x delayMs with ⟨_ | b, delay⟩
  · rfl
  · cases b <;> simp [evalFrom, eval]

/-! ### Parts in turn -/

theorem evalFrom_and_nil : evalFrom c r (.and []) = evalFrom c r .all := by
  funext delayMs
  simp [evalFrom, eval, evalUntil]

/-- **The first part, then the others**: this is where delays are added up. -/
theorem evalFrom_and_cons (p : Predicate) (rest : List Predicate) :
    evalFrom c r (.and (p :: rest)) = andThen (p.evalFrom c r) (evalFrom c r (.and rest)) := by
  funext delayMs
  simp only [andThen, evalFrom, eval, evalUntil]
  rcases p.eval c r with ⟨_ | b, delay⟩
  · rfl
  · cases b <;> simp [Nat.add_assoc]

theorem evalFrom_and_singleton (p : Predicate) :
    evalFrom c r (.and [p]) = p.evalFrom c r := by
  rw [evalFrom_and_cons, evalFrom_and_nil, andThen_all]

theorem evalFrom_and_append (ps qs : List Predicate) :
    evalFrom c r (.and (ps ++ qs)) =
      andThen (evalFrom c r (.and ps)) (evalFrom c r (.and qs)) := by
  induction ps with
  | nil => rw [evalFrom_and_nil, all_andThen, List.nil_append]
  | cons p rest ih =>
    rw [List.cons_append, evalFrom_and_cons, evalFrom_and_cons, ih, andThen_assoc]

/-- **Both predicates at once** are evaluated one after the other, however they are flattened. -/
theorem evalFrom_both (p q : Predicate) :
    (p.both q).evalFrom c r = andThen (p.evalFrom c r) (q.evalFrom c r) := by
  unfold both
  -- nothing to evaluate on one side, then a conjunction on the left, then none
  split
  · rw [all_andThen]
  · rw [andThen_all]
  · rw [evalFrom_and_append]
  · rw [evalFrom_and_append, evalFrom_and_singleton]
  · rw [evalFrom_and_cons, evalFrom_and_singleton]

/-- The answer of both: that of the second where the first holds. -/
theorem eval_both_eq (p q : Predicate) :
    ((p.both q).eval c r).1 =
      (p.eval c r).1 >>= fun b => if b then (q.eval c r).1 else .ok false := by
  rw [← evalFrom_zero, evalFrom_both]
  unfold andThen evalFrom
  rcases p.eval c r with ⟨_ | b, delay⟩
  · rfl
  · cases b <;> rfl

/-- **Both predicates at once hold where both do**, however they are flattened. -/
theorem eval_both (p q : Predicate) :
    ((p.both q).eval c r).1 = .ok true ↔
      (p.eval c r).1 = .ok true ∧ (q.eval c r).1 = .ok true := by
  rw [eval_both_eq]
  cases (p.eval c r).1 with
  | error e => simp [bind, Except.bind]
  | ok b => cases b <;> simp [bind, Except.bind]

end Predicate

/-! ### Plain keys -/

/-- What is read from a projection: the id, and what is under the root of one of its paths. -/
theorem Record.lookup_project (keys : List String) (r : Record) (k : String) :
    (r.project keys).lookup k =
      if k = idKey ∨ keys.any (fun p => Text.root p = k) then r.lookup k else none := by
  have h := Members.lookup_filter_key
    (fun k => decide (k = idKey) || keys.any fun p => Text.root p = k) r k
  simp only [Bool.or_eq_true, decide_eq_true_eq] at h
  rw [← h]
  simp [project]

/-- At a key without a full stop there is the value of the member, if there is one. -/
theorem Record.values_key {key : String} (hkey : Text.split '.' key = [key]) (r : Record) :
    r.values key = (r.lookup key).toList := by
  rw [Record.values, hkey]
  simp only [Datum.along]
  cases r.lookup key with
  | none => rfl
  | some d => cases d <;> rfl

/-- What is read as a text is one. -/
theorem Record.lookup_of_string? {r : Record} {key s : String} (h : r.string? key = some s) :
    r.lookup key = some (.string s) := by
  obtain ⟨d, hd, hs⟩ := Option.bind_eq_some_iff.1 h
  cases d with
  | string t =>
    obtain rfl : t = s := Option.some.inj hs
    exact hd
  | _ => exact absurd hs (by simp [Datum.asString?])

/-- A value that equals a text under a collation is a text. -/
theorem Datum.equalUnder_string {c : Option Collation} {d : Datum} {s : String} :
    d.equalUnder c (.string s) = true ↔
      ∃ t, d = .string t ∧ Collation.fold c t = Collation.fold c s := by
  cases d <;> simp [Datum.equalUnder, Datum.same]

/-- **A value that names a text** under a collation: it is the text or an array with it. -/
def Datum.Names (c : Option Collation) (s : String) : Datum → Prop
  | .string t => Collation.fold c t = Collation.fold c s
  | .array items => ∃ t, .string t ∈ items ∧ Collation.fold c t = Collation.fold c s
  | _ => False

/-- An equality of the values of one member with a text. -/
theorem Condition.equalsAny_string {c : Option Collation} {d? : Option Datum} {s : String} :
    equalsAny c d?.toList (.string s) = true ↔ ∃ d, d? = some d ∧ d.Names c s := by
  cases d? with
  | none => simp [equalsAny, Datum.withItems]
  | some d =>
    have hempty : equalsAny c (some d).toList (.string s) =
        (Datum.withItems [d]).any fun v => Datum.equalUnder c v (.string s) := by
      simp [equalsAny]
    rw [hempty, List.any_eq_true]
    simp only [Datum.equalUnder_string, Option.some.injEq, exists_eq_left']
    cases d with
    | array items =>
      simp only [Datum.withItems, Datum.Names, List.flatMap_cons, List.flatMap_nil,
        List.append_nil, List.mem_cons]
      constructor
      · rintro ⟨_, rfl | hmem, t, ht, hfold⟩
        · exact absurd ht (by simp)
        · exact ⟨t, ht ▸ hmem, hfold⟩
      · rintro ⟨t, hmem, hfold⟩
        exact ⟨_, .inr hmem, t, rfl, hfold⟩
    | _ => simp [Datum.withItems, Datum.Names]

/-- **An equality at a plain key** holds where the member names the text. -/
theorem Predicate.eval_key_eq {key : String} (hkey : Text.split '.' key = [key])
    {c : Option Collation} {r : Record} {s : String} :
    ((Predicate.field key (.eq (.string s))).eval c r).1 = .ok true ↔
      ∃ d, r.lookup key = some d ∧ d.Names c s := by
  rw [Predicate.eval, Condition.holds, Record.values_key hkey]
  simp only [Except.ok.injEq]
  exact Condition.equalsAny_string

/-- **A choice of texts at a plain key** holds where the member names one of them. -/
theorem Predicate.eval_key_isIn {key : String} (hkey : Text.split '.' key = [key])
    {c : Option Collation} {r : Record} {names : List String} :
    ((Predicate.field key (.isIn (names.map .string))).eval c r).1 = .ok true ↔
      ∃ d, r.lookup key = some d ∧ ∃ s ∈ names, d.Names c s := by
  rw [Predicate.eval, Condition.holds, Record.values_key hkey]
  simp only [Except.ok.injEq, List.any_eq_true, List.mem_map]
  constructor
  · rintro ⟨_, ⟨s, hs, rfl⟩, h⟩
    obtain ⟨d, hd, hnames⟩ := Condition.equalsAny_string.1 h
    exact ⟨d, hd, s, hs, hnames⟩
  · rintro ⟨d, hd, s, hs, hnames⟩
    exact ⟨_, ⟨s, hs, rfl⟩, Condition.equalsAny_string.2 ⟨d, hd, hnames⟩⟩

/-! ### Queries -/

namespace Store

theorem mem_filterRecords {c : Option Collation} {p : Predicate} {records out : List Record}
    (h : (filterRecords c p records).1 = .ok out) {r : Record} (hr : r ∈ out) :
    r ∈ records ∧ (p.eval c r).1 = .ok true := by
  induction records generalizing out with
  | nil =>
    obtain rfl : [] = out := by simpa [filterRecords] using h
    exact absurd hr List.not_mem_nil
  | cons first rest ih =>
    rw [filterRecords] at h
    rcases hp : p.eval c first with ⟨_ | b, delay⟩
    · simp [hp] at h
    · cases hrest : (filterRecords c p rest).1 with
      | error e => simp [hp, hrest, Except.map] at h
      | ok found =>
        have hout : (if b then first :: found else found) = out := by
          simpa [hp, hrest, Except.map] using h
        cases b with
        | false =>
          obtain rfl : found = out := hout
          exact (ih hrest hr).imp_left (List.mem_cons_of_mem _)
        | true =>
          obtain rfl : first :: found = out := hout
          rcases List.mem_cons.1 hr with rfl | hr
          · exact ⟨List.mem_cons_self, by rw [hp]⟩
          · exact (ih hrest hr).imp_left (List.mem_cons_of_mem _)

theorem perm_insertSorted (before : Record → Record → Bool) (r : Record) (rs : List Record) :
    (Record.insertSorted before r rs).Perm (r :: rs) := by
  induction rs with
  | nil => exact .refl _
  | cons last rest ih =>
    rw [Record.insertSorted]
    split
    · exact (ih.cons last).trans (.swap r last rest)
    · exact .refl _

theorem perm_foldl_insertSorted (before : Record → Record → Bool) (rs acc : List Record) :
    (rs.foldl (fun acc r => Record.insertSorted before r acc) acc).Perm (rs ++ acc) := by
  induction rs generalizing acc with
  | nil => exact .refl _
  | cons r rest ih =>
    refine (ih _).trans ?_
    exact ((perm_insertSorted before r acc).append_left rest).trans List.perm_middle

/-- **Sorting** loses no record. -/
theorem perm_sort (c : Option Collation) (keys : List (String × Int32)) (rs : List Record) :
    (Record.sort c keys rs).Perm rs := by
  unfold Record.sort
  split
  · exact .refl _
  split
  · refine (List.reverse_perm _).trans ?_
    simpa using perm_foldl_insertSorted (fun a b => Record.orderBy c a b keys == .lt) rs []
  · exact List.mergeSort_perm _ _

/-- The part of a record that a query answers. -/
def shown (sel : Selection) (r : Record) : Record :=
  match sel.projection with
  | some keys => r.project keys
  | none => r

/-- What a projection leaves of some records. -/
theorem map_shown (sel : Selection) (found : List Record) :
    found.map (shown sel) = match sel.projection with
      | some keys => found.map (Record.project keys)
      | none => found := by
  unfold shown
  cases sel.projection with
  | none => exact List.map_id' found
  | some keys => rfl

/-- **A query finds records of its collection that satisfy its predicate**, and answers what
its projection leaves of them. -/
theorem exists_found {s : Store} {name : String} {sel : Selection} {rs : List Record}
    (h : (s.query name sel).1 = .ok rs) :
    ∃ found : List Record, rs = found.map (shown sel) ∧
      ∀ r ∈ found, r ∈ Members.values (s.collection name).records ∧
        (sel.filter.eval sel.collation r).1 = .ok true := by
  unfold query at h
  cases hfiltered : (filterRecords sel.collation sel.filter
      (Members.values (s.collection name).records)).1 with
  | error e => simp [hfiltered, Except.map] at h
  | ok all =>
    -- sorting, skipping and limiting add no record
    have hmem {r : Record} {n : Nat}
        (hr : r ∈ (Record.sort sel.collation sel.sort all).drop n) :
        r ∈ Members.values (s.collection name).records ∧
          (sel.filter.eval sel.collation r).1 = .ok true :=
      mem_filterRecords hfiltered ((perm_sort _ _ _).mem_iff.1 (List.mem_of_mem_drop hr))
    simp only [hfiltered, Except.map, Except.ok.injEq] at h
    cases hlimit : sel.limit with
    | none =>
      rw [hlimit] at h
      exact ⟨_, h.symm.trans (map_shown sel _).symm, fun r hr => hmem hr⟩
    | some n =>
      rw [hlimit] at h
      exact ⟨_, h.symm.trans (map_shown sel _).symm, fun r hr => hmem (List.mem_of_mem_take hr)⟩

/-- A projection keeps the id of a record. -/
theorem id?_shown (sel : Selection) (r : Record) : (shown sel r).id? = r.id? := by
  unfold shown
  cases sel.projection with
  | none => rfl
  | some keys =>
    have hkept : (r.project keys).lookup Record.idKey = r.lookup Record.idKey := by
      rw [Record.lookup_project, if_pos (.inl rfl)]
    simp [Record.id?, Record.string?, hkept]

/-- A call that does nothing to the content. -/
theorem sameContent_of_done {s t : Store} {call : Call} {a : call.Answer} (h : Done s call a t)
    (hcollection : ∀ n, s.collectionAfter call n = s.collection n)
    (hsessions : s.sessionsAfter call = s.sessions)
    (hnext : s.nextSessionAfter call = s.nextSession) : SameContent s t :=
  ⟨fun n => (h.collection n).trans (hcollection n), h.sessions.trans hsessions,
    h.nextSession.trans hnext⟩

/-- **A query changes nothing.** -/
theorem sameContent_find (s : Store) (name : String) (sel : Selection)
    (session : Option SessionId) : SameContent s (s.run (.find name sel session)).store := by
  cases h : (s.run (.find name sel session)).outcome with
  | error e => exact run_error h
  | ok a =>
    exact sameContent_of_done (run_ok h) (fun n => ite_changed_nil _ (s.collection n)) rfl rfl

/-- A count changes nothing. -/
theorem sameContent_count (s : Store) (name : String) (p : Predicate) (limit : Option Nat)
    (session : Option SessionId) :
    SameContent s (s.run (.count name p limit session)).store := by
  cases h : (s.run (.count name p limit session)).outcome with
  | error e => exact run_error h
  | ok a =>
    exact sameContent_of_done (run_ok h) (fun n => ite_changed_nil _ (s.collection n)) rfl rfl

end Store

/-! ### Outcomes side by side -/

/-- **Outcomes alike**: the same error, or related results. -/
inductive Outcome.Related {α β : Type} (R : α → β → Prop) : Outcome α → Outcome β → Prop
  | ok {a : α} {b : β} (h : R a b) : Related R (.ok a) (.ok b)
  | error (e : EngineError) : Related R (.error e) (.error e)

theorem Outcome.Related.map {α β γ δ : Type} {R : α → β → Prop} {S : γ → δ → Prop}
    {x : Outcome α} {y : Outcome β} (h : Outcome.Related R x y) {f : α → γ} {g : β → δ}
    (hfg : ∀ a b, R a b → S (f a) (g b)) : Outcome.Related S (x.map f) (y.map g) := by
  cases h with
  | ok h => exact .ok (hfg _ _ h)
  | error e => exact .error e

theorem Outcome.Related.refl {α : Type} {R : α → α → Prop} (h : ∀ a, R a a) (x : Outcome α) :
    Outcome.Related R x x := by
  cases x with
  | error e => exact .error e
  | ok a => exact .ok (h a)

/-- Works in sequence are alike if their parts are. -/
theorem Outcome.Related.bind {α β γ δ : Type} {R : α → β → Prop} {S : γ → δ → Prop}
    {x : Outcome α} {y : Outcome β} (h : Outcome.Related R x y) {f : α → Outcome γ}
    {g : β → Outcome δ} (hfg : ∀ a b, R a b → Outcome.Related S (f a) (g b)) :
    Outcome.Related S (x >>= f) (y >>= g) := by
  cases h with
  | ok h => exact hfg _ _ h
  | error e => exact .error e

/-! ### Records that agree -/

namespace Record

/-- **Records that agree** on the members under some keys. -/
def AgreeOn (K : String → Prop) (r r' : Record) : Prop :=
  ∀ key, K key → r.lookup key = r'.lookup key

namespace AgreeOn

variable {K : String → Prop} {c : Option Collation} {r r' s s' : Record}

theorem values (h : AgreeOn K r r') {path : String} (hpath : K (Text.root path)) :
    r.values path = r'.values path := by
  obtain ⟨rest, hsplit⟩ := List.head?_eq_some_iff.1 (Text.head?_split path)
  rw [Record.values, Record.values, hsplit, Datum.along, Datum.along, h _ hpath]

theorem orderBy (hr : AgreeOn K r r') (hs : AgreeOn K s s') {keys : List (String × Int32)}
    (hkeys : ∀ key ∈ keys, K (Text.root key.1)) :
    Record.orderBy c r s keys = Record.orderBy c r' s' keys := by
  induction keys with
  | nil => rfl
  | cons key rest ih =>
    obtain ⟨hfirst, hrest⟩ := List.forall_mem_cons.1 hkeys
    rw [Record.orderBy, Record.orderBy, sortValue, sortValue, sortValue, sortValue,
      hr.values hfirst, hs.values hfirst, ih hrest]

/-- **Projections of records that agree** on what is projected agree on everything. -/
theorem project (h : AgreeOn K r r') {keys : List String} (hid : K idKey)
    (hkeys : ∀ key ∈ keys, K (Text.root key)) (k : String) :
    (r.project keys).lookup k = (r'.project keys).lookup k := by
  rw [lookup_project, lookup_project]
  split
  case isTrue hk =>
    refine h k ?_
    rcases hk with rfl | hk
    · exact hid
    · obtain ⟨key, hkey, hroot⟩ := List.any_eq_true.1 hk
      exact of_decide_eq_true hroot ▸ hkeys key hkey
  case isFalse => rfl

end AgreeOn

end Record

/-! ### Predicates -/

namespace Predicate

mutual

/-- **A predicate over paths** of some kind: it has no other, and no script, at any depth. -/
def Over (P : String → Prop) : Predicate → Prop
  | .all => True
  | .and parts | .or parts | .nor parts => OverAll P parts
  | .field path _ => P path
  | .script _ => False

/-- Predicates over paths of some kind. -/
def OverAll (P : String → Prop) : List Predicate → Prop
  | [] => True
  | p :: rest => p.Over P ∧ OverAll P rest

end

variable {P Q : String → Prop}

theorem overAll_iff {parts : List Predicate} : OverAll P parts ↔ ∀ p ∈ parts, p.Over P := by
  induction parts with
  | nil => simp [OverAll]
  | cons p rest ih => rw [OverAll, ih, List.forall_mem_cons]

theorem overAll_append {left right : List Predicate} :
    OverAll P (left ++ right) ↔ OverAll P left ∧ OverAll P right := by
  simp only [overAll_iff, List.forall_mem_append]

/-- **Both predicates at once** are over paths of a kind if both are. -/
theorem over_both {p q : Predicate} : (p.both q).Over P ↔ p.Over P ∧ q.Over P := by
  unfold both
  split <;> simp [Over, OverAll, overAll_append]

mutual

theorem Over.mono (hPQ : ∀ path, P path → Q path) {p : Predicate} (h : p.Over P) : p.Over Q := by
  cases p with
  | all => trivial
  | and parts | or parts | nor parts => exact OverAll.mono hPQ h
  | field path c => exact hPQ path h
  | script text => exact h

theorem OverAll.mono (hPQ : ∀ path, P path → Q path) {parts : List Predicate}
    (h : OverAll P parts) : OverAll Q parts := by
  cases parts with
  | nil => trivial
  | cons p rest => exact ⟨Over.mono hPQ h.1, OverAll.mono hPQ h.2⟩

end

variable {K : String → Prop} {c : Option Collation} {r r' : Record}

mutual

/-- **Records that agree on what a predicate reads** are the same to it. -/
theorem Over.eval_congr (hr : Record.AgreeOn K r r') {p : Predicate}
    (h : p.Over fun path => K (Text.root path)) : p.eval c r = p.eval c r' := by
  cases p with
  | all => rfl
  | and parts | or parts => exact OverAll.evalUntil_congr hr h _
  | nor parts => rw [eval, eval, OverAll.evalUntil_congr hr h]
  | field path cond => rw [eval, eval, hr.values h]
  | script text => exact absurd h id

theorem OverAll.evalUntil_congr (hr : Record.AgreeOn K r r') {parts : List Predicate}
    (h : OverAll (fun path => K (Text.root path)) parts) (stop : Bool) :
    evalUntil c r stop parts = evalUntil c r' stop parts := by
  cases parts with
  | nil => rfl
  | cons p rest =>
    rw [evalUntil, evalUntil, Over.eval_congr hr h.1, OverAll.evalUntil_congr hr h.2]

end

end Predicate

/-! ### Lists of records -/

namespace Store

variable {K : String → Prop} {R : Record → Record → Prop} {c : Option Collation}
  {rs rs' : List Record}

/-- **Filtering** finds the one record where it finds the other. -/
theorem filterRecords_related (hR : ∀ r r', R r r' → Record.AgreeOn K r r') {p : Predicate}
    (hp : p.Over fun path => K (Text.root path)) (h : List.Forall₂ R rs rs') :
    (filterRecords c p rs).2 = (filterRecords c p rs').2 ∧
      Outcome.Related (List.Forall₂ R) (filterRecords c p rs).1 (filterRecords c p rs').1 := by
  induction h with
  | nil => exact ⟨rfl, .ok .nil⟩
  | @cons r r' rest rest' hr _ ih =>
    obtain ⟨hdelay, hrest⟩ := ih
    rw [filterRecords, filterRecords, hp.eval_congr (hR r r' hr)]
    rcases p.eval c r' with ⟨e | b, delay⟩
    · exact ⟨rfl, .error e⟩
    · refine ⟨congrArg (delay + ·) hdelay, hrest.map fun out out' hout => ?_⟩
      cases b with
      | false => exact hout
      | true => exact .cons hr hout

theorem forall₂_insertSorted {before : Record → Record → Bool}
    (hbefore : ∀ a a' b b', R a a' → R b b' → before a b = before a' b') {r r' : Record}
    (hr : R r r') (h : List.Forall₂ R rs rs') :
    List.Forall₂ R (Record.insertSorted before r rs) (Record.insertSorted before r' rs') := by
  induction h with
  | nil => exact .cons hr .nil
  | @cons last last' rest rest' hlast hrest ih =>
    rw [Record.insertSorted, Record.insertSorted, hbefore r r' last last' hr hlast]
    split
    · exact .cons hlast ih
    · exact .cons hr (.cons hlast hrest)

theorem forall₂_foldl_insertSorted {before : Record → Record → Bool}
    (hbefore : ∀ a a' b b', R a a' → R b b' → before a b = before a' b')
    (h : List.Forall₂ R rs rs') {acc acc' : List Record} (hacc : List.Forall₂ R acc acc') :
    List.Forall₂ R (rs.foldl (fun acc r => Record.insertSorted before r acc) acc)
      (rs'.foldl (fun acc r => Record.insertSorted before r acc) acc') := by
  induction h generalizing acc acc' with
  | nil => exact hacc
  | cons hr _ ih => exact ih (forall₂_insertSorted hbefore hr hacc)

/-- Merging puts two lists in the same order if it decides on them in the same way. -/
theorem forall₂_mergeSort {le : Record → Record → Bool}
    (hle : ∀ a a' b b', R a a' → R b b' → le a b = le a' b') (h : List.Forall₂ R rs rs') :
    List.Forall₂ R (rs.mergeSort le) (rs'.mergeSort le) := by
  -- both are the sides of one list of pairs
  have hpairs : ∀ m ∈ rs.zip rs', R m.1 m.2 := fun m hm => (List.forall₂_iff_zip.1 h).2 hm
  have hfst : ((rs.zip rs').mergeSort fun m n => le m.1 n.1).map Prod.fst = rs.mergeSort le := by
    rw [List.map_mergeSort (s := le) fun _ _ _ _ => rfl,
      List.map_fst_zip (Nat.le_of_eq h.length_eq)]
  have hsnd : ((rs.zip rs').mergeSort fun m n => le m.1 n.1).map Prod.snd = rs'.mergeSort le := by
    rw [List.map_mergeSort (s := le) fun m hm n hn => hle _ _ _ _ (hpairs m hm) (hpairs n hn),
      List.map_snd_zip (Nat.le_of_eq h.length_eq.symm)]
  rw [← hfst, ← hsnd, List.forall₂_map_left_iff, List.forall₂_map_right_iff, List.forall₂_same]
  exact fun m hm => hpairs m ((List.mergeSort_perm _ _).mem_iff.1 hm)

/-- **Sorting** puts records that agree on what it reads in the same order. -/
theorem forall₂_sort (hR : ∀ r r', R r r' → Record.AgreeOn K r r') {keys : List (String × Int32)}
    (hkeys : ∀ key ∈ keys, K (Text.root key.1)) (h : List.Forall₂ R rs rs') :
    List.Forall₂ R (Record.sort c keys rs) (Record.sort c keys rs') := by
  have horder (a a' b b' : Record) (ha : R a a') (hb : R b b') :
      Record.orderBy c a b keys = Record.orderBy c a' b' keys :=
    (hR a a' ha).orderBy (hR b b' hb) hkeys
  unfold Record.sort
  rw [h.length_eq]
  split
  · exact h
  split
  · refine List.forall₂_reverse_iff.2
      (forall₂_foldl_insertSorted (fun a a' b b' ha hb => ?_) h .nil)
    rw [horder a a' b b' ha hb]
  · refine forall₂_mergeSort (fun a a' b b' ha hb => ?_) h
    rw [horder a a' b b' ha hb]

/-- **A query does not tell apart** stores whose records agree on what it reads: it takes the same
time, and fails alike or finds, in the same order, records that correspond. -/
theorem query_related (hR : ∀ r r', R r r' → Record.AgreeOn K r r') {sel : Selection}
    (hfilter : sel.filter.Over fun path => K (Text.root path))
    (hsort : ∀ key ∈ sel.sort, K (Text.root key.1)) {s t : Store} {name : String}
    (h : List.Forall₂ R (Members.values (s.collection name).records)
      (Members.values (t.collection name).records)) :
    (s.query name sel).2 = (t.query name sel).2 ∧
      Outcome.Related (List.Forall₂ fun a b => ∃ r r', R r r' ∧ shown sel r = a ∧ shown sel r' = b)
        (s.query name sel).1 (t.query name sel).1 := by
  obtain ⟨hdelay, hfound⟩ := filterRecords_related (c := sel.collation) hR hfilter h
  refine ⟨hdelay, hfound.map fun found found' hfound => ?_⟩
  have hsorted := List.forall₂_drop sel.skip (forall₂_sort (c := sel.collation) hR hsort hfound)
  have hshown {rs rs' : List Record} (hrs : List.Forall₂ R rs rs') :
      List.Forall₂ (fun a b => ∃ r r', R r r' ∧ shown sel r = a ∧ shown sel r' = b)
        (rs.map (shown sel)) (rs'.map (shown sel)) :=
    List.forall₂_map_left_iff.2 (List.forall₂_map_right_iff.2
      (hrs.imp fun r r' hr => ⟨r, r', hr, rfl, rfl⟩))
  simp only [map_shown] at hshown
  cases sel.limit with
  | none => exact hshown hsorted
  | some n => exact hshown (List.forall₂_take n hsorted)

end Store

end ObjectEngine
