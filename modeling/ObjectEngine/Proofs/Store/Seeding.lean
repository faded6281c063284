import ObjectEngine.Proofs.Store.Applying
import ObjectEngine.Proofs.Store.Query
import ObjectEngine.Proofs.Store.Single

/-!
# Insertions by a predicate

A predicate that is a conjunction of equalities at plain keys (`Predicate.Equates`) describes the
record that an insertion by it starts from: the seed has each of the values
(`Predicate.lookup_seed`), and every record that has them satisfies the predicate
(`Predicate.eval_of_lookup`), unless a value is not equal to itself.

So an upsert by such a predicate inserts a record that the next one finds, and updates it from then
on (`Store.Quiet.run_upsert_insert`, `Store.Quiet.run_upsert_one`).
-/

namespace ObjectEngine

namespace Predicate

variable {p q : Predicate} {m : String × Datum} {r : Record} {c : Option Collation}

/-! ### Equalities -/

theorem mem_equalities_and {parts : List Predicate} :
    m ∈ equalities (.and parts) ↔ ∃ p ∈ parts, m ∈ p.equalities := by
  rw [equalities]
  induction parts with
  | nil => simp [equalitiesOf]
  | cons p rest ih => simp [equalitiesOf, ih, or_comm]

theorem mem_equalities_both :
    m ∈ (p.both q).equalities ↔ m ∈ p.equalities ∨ m ∈ q.equalities := by
  unfold both
  split
  · simp [equalities]
  · simp [equalities]
  · simp [mem_equalities_and, or_and_right, exists_or]
  · simp [mem_equalities_and, or_and_right, exists_or]
  · simp [mem_equalities_and]

theorem mem_equalities_field {path : String} {c : Condition} :
    m ∈ equalities (.field path c) ↔ '.' ∉ path.toList ∧ path = m.1 ∧ c = .eq m.2 := by
  cases c with
  | eq d =>
    rw [equalities]
    split <;> rename_i hdot
    · exact iff_of_false List.not_mem_nil fun h => h.1 (List.contains_iff_mem.1 hdot)
    · rw [List.mem_singleton, Prod.ext_iff, Condition.eq.injEq, @eq_comm _ m.1, @eq_comm _ m.2]
      exact (and_iff_right (mt List.contains_iff_mem.2 hdot)).symm
  | _ => simp [equalities]

/-- **The record that an insertion starts from** has the members that the predicate has
equalities on. -/
theorem isSome_lookup_seed {key : String} :
    (p.seed.lookup key).isSome = true ↔ ∃ d, (key, d) ∈ p.equalities := by
  rw [seed, Members.lookup_ofList, Option.isSome_iff_exists]
  constructor
  · rintro ⟨d, hd⟩
    exact ⟨d, List.mem_reverse.1 (Members.mem_of_lookup hd)⟩
  · rintro ⟨d, hd⟩
    refine Option.ne_none_iff_exists'.1 fun hnone => ?_
    exact bne_iff_ne.1 (List.lookup_eq_none_iff.1 hnone _ (List.mem_reverse.2 hd)) rfl

/-! ### Conjunctions of equalities -/

/-- **A conjunction of equalities** at plain keys. -/
inductive Equates : Predicate → Prop
  | all : Equates .all
  | and {parts : List Predicate} (h : ∀ p ∈ parts, Equates p) : Equates (.and parts)
  | field {key : String} (hkey : '.' ∉ key.toList) (d : Datum) : Equates (.field key (.eq d))

theorem equates_and {parts : List Predicate} :
    (Predicate.and parts).Equates ↔ ∀ p ∈ parts, p.Equates :=
  ⟨fun | .and h => h, .and⟩

theorem Equates.both (hp : p.Equates) (hq : q.Equates) : (p.both q).Equates := by
  unfold Predicate.both
  split
  · exact hq
  · exact hp
  · exact .and (List.forall_mem_append.2 ⟨equates_and.1 hp, equates_and.1 hq⟩)
  · exact .and (List.forall_mem_append.2 ⟨equates_and.1 hp, List.forall_mem_singleton.2 hq⟩)
  · exact .and (List.forall_mem_cons.2 ⟨hp, List.forall_mem_singleton.2 hq⟩)

/-- Such a predicate can always be evaluated. -/
theorem Equates.exists_eval (h : p.Equates) (c : Option Collation) (r : Record) :
    ∃ b, (p.eval c r).1 = .ok b := by
  induction h with
  | all => exact ⟨true, by rw [eval]⟩
  | @and parts h ih =>
    rw [eval]
    clear h
    induction parts with
    | nil => exact ⟨_, rfl⟩
    | cons p rest ihRest =>
      obtain ⟨⟨b, hb⟩, hrest⟩ := List.forall_mem_cons.1 ih
      rw [evalUntil]
      rcases hp : p.eval c r with ⟨outcome, delay⟩
      rw [hp] at hb
      obtain rfl : outcome = .ok b := hb
      cases b with
      | false => exact ⟨_, rfl⟩
      | true => exact ihRest hrest
  | field hkey d => exact ⟨_, by rw [eval]; rfl⟩

theorem eval_of_lookup (h : p.Equates)
    (hr : ∀ m ∈ p.equalities, r.lookup m.1 = some m.2 ∧ m.2.equalUnder c m.2 = true) :
    (p.eval c r).1 = .ok true := by
  induction h with
  | all => exact eval_all
  | and h ih =>
    refine eval_and.2 fun p hp => ih p hp fun m hm => ?_
    exact hr m (mem_equalities_and.2 ⟨p, hp, hm⟩)
  | @field key hkey d =>
    obtain ⟨hlookup, hself⟩ := hr (key, d) (mem_equalities_field.2 ⟨hkey, rfl, rfl⟩)
    rw [eval, Condition.holds, Record.values_key (Text.split_of_not_mem hkey), hlookup]
    refine congrArg Except.ok ?_
    simp only [Condition.equalsAny, Option.toList_some, Bool.or_eq_true]
    refine .inr (List.any_eq_true.2 ⟨d, ?_, hself⟩)
    cases d <;> exact List.mem_cons_self

/-- **The seed has the values** that the predicate requires, if it requires no two at one key. -/
theorem lookup_seed
    (hunique : ∀ key d d', (key, d) ∈ p.equalities → (key, d') ∈ p.equalities → d = d')
    (hm : m ∈ p.equalities) : p.seed.lookup m.1 = some m.2 :=
  (Members.sorted_ofList _).lookup_of_mem ((Members.mem_ofList_iff hunique).2 hm)

/-- And no others. -/
theorem lookup_seed_eq_none {key : String} (h : ∀ m ∈ p.equalities, m.1 ≠ key) :
    p.seed.lookup key = none := by
  by_contra hsome
  obtain ⟨d, hd⟩ := isSome_lookup_seed.1 (Option.isSome_iff_ne_none.2 hsome)
  exact h _ hd rfl

end Predicate

namespace Store

variable {s : Store} {name id : String} {r : Record} {p : Predicate} {edit : Edit}
  {records : Members Record}

/-! ### Matches -/

/-- Nothing matches. -/
theorem matchingIds_eq_nil (h : ∀ m ∈ records, (p.eval none m.2).1 = .ok false) :
    matchingIds true p records = .ok [] := by
  induction records with
  | nil => rfl
  | cons m rest ih =>
    obtain ⟨hfirst, hrest⟩ := List.forall_mem_cons.1 h
    rw [matchingIds, hfirst]
    exact ih hrest

/-- One record matches. -/
theorem matchingIds_eq_singleton (hid : records.lookup id = some r)
    (hr : (p.eval none r).1 = .ok true)
    (hothers : ∀ m ∈ records, m.1 ≠ id → (p.eval none m.2).1 = .ok false) :
    matchingIds true p records = .ok [id] := by
  induction records with
  | nil => exact absurd hid (by simp)
  | cons m rest ih =>
    obtain ⟨key, x⟩ := m
    rw [Members.lookup_cons] at hid
    by_cases hkey : id = key
    · subst hkey
      rw [if_pos rfl] at hid
      obtain rfl := Option.some.inj hid
      rw [matchingIds, hr]
      rfl
    · rw [if_neg hkey] at hid
      rw [matchingIds, hothers (key, x) List.mem_cons_self (Ne.symm hkey)]
      exact ih hid fun m hm => hothers m (List.mem_cons_of_mem _ hm)

/-! ### Upserts -/

/-- A record is inserted as a predicate and an update describe it. -/
theorem run_insertSeed_free (hs : Unrestricted (s.collection name))
    (hedit : edit.apply true p.seed = .ok r) (hid : r.id? = some id)
    (hfree : s.record? name id = none) :
    ∃ t, (insertSeed name p edit none).run s =
        (.ok { matched := 0, id := some id, record := r }, t) ∧ Touches name id s (some r) t := by
  obtain ⟨t, hrun, htouches⟩ := run_insertRecord_free hs hfree "upsert" r
  refine ⟨t, ?_, htouches⟩
  simp only [insertSeed, run_bind, run_finish, hedit, hid, run_pure, hrun]

/-- The work of an upsert: an insertion if nothing matches, and else an update of the match. -/
theorem perform_upsert {ids : List String}
    (hids : matchingIds true p (s.collection name).records = .ok ids) :
    (perform (.upsert name p edit none)).run s =
      (if ids.isEmpty then insertSeed name p edit none
        else do
          let records ← updateIds "upsert" name edit none ids
          return { matched := 1, id := none, record := records.head?.getD [] } :
        Work Upserted).run s := by
  dsimp only [perform, Call.Answer]
  rw [run_bind, checkSession]
  simp only [run_pure, run_bind, run_get, run_finish, hids]

/-- **An upsert that finds nothing** inserts the record that it describes. -/
theorem Quiet.run_upsert_insert (h : s.Quiet) (hs : Unrestricted (s.collection name))
    (hids : matchingIds true p (s.collection name).records = .ok [])
    (hedit : edit.apply true p.seed = .ok r) (hid : r.id? = some id)
    (hfree : s.record? name id = none) :
    (s.run (.upsert name p edit none)).outcome =
        .ok { matched := 0, id := some id, record := r } ∧
      Touches name id s (some r) (s.run (.upsert name p edit none)).store := by
  obtain ⟨t, hrun, htouches⟩ : ∃ t,
      (insertSeed name p edit none).run (s.noted "upsert" name none) =
          (.ok { matched := 0, id := some id, record := r }, t) ∧
        Touches name id (s.noted "upsert" name none) (some r) t :=
    run_insertSeed_free (s := s.noted "upsert" name none) hs hedit hid hfree
  refine h.run_touches (c := .upsert name p edit none) ⟨t, ?_, htouches⟩
  exact (perform_upsert (s := s.noted "upsert" name none) hids).trans hrun

/-- **An upsert that finds a record** updates it. -/
theorem Quiet.run_upsert_one (h : s.Quiet) (hs : Unrestricted (s.collection name))
    (hids : matchingIds true p (s.collection name).records = .ok [id])
    (hrecord : s.record? name id = some r) {r' : Record} (hedit : edit.apply false r = .ok r') :
    (s.run (.upsert name p edit none)).outcome =
        .ok { matched := 1, id := none, record := r' } ∧
      Touches name id s (some r') (s.run (.upsert name p edit none)).store := by
  obtain ⟨t, hrun, htouches⟩ : ∃ t,
      (updateIds "upsert" name edit none [id]).run (s.noted "upsert" name none) = (.ok [r'], t) ∧
        Touches name id (s.noted "upsert" name none) (some r') t :=
    run_updateIds_one (s := s.noted "upsert" name none) hs hrecord "upsert" hedit
  refine h.run_touches (c := .upsert name p edit none) ⟨t, ?_, htouches⟩
  refine (perform_upsert (s := s.noted "upsert" name none) hids).trans ?_
  rw [List.isEmpty_cons, if_neg Bool.false_ne_true, run_bind, hrun]
  rfl

end Store

end ObjectEngine
