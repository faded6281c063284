import Mathlib.Data.List.Forall2
import ObjectEngine.Error

/-!
# Outcomes of work in sequence

Work in sequence succeeds if and only if all of its parts do (`Outcome.bind_eq_ok`). Of a list
worked on item by item this gives one result for each item (`Outcome.forall₂_of_mapM`), and of
a fold what its steps keep (`Outcome.foldlM_induction`).
-/

namespace ObjectEngine

namespace Outcome

variable {α β : Type}

theorem bind_eq_ok {x : Outcome α} {f : α → Outcome β} {b : β} :
    x >>= f = .ok b ↔ ∃ a, x = .ok a ∧ f a = .ok b := by
  cases x with
  | error e => simp [bind, Except.bind]
  | ok a => simp [bind, Except.bind]

/-- Something is made of the results of two works in sequence. -/
theorem bind₂_eq_ok {γ : Type} {x : Outcome α} {y : Outcome β} {f : α → β → γ} {c : γ} :
    (x >>= fun a => y >>= fun b => pure (f a b)) = .ok c ↔
      ∃ a b, x = .ok a ∧ y = .ok b ∧ f a b = c := by
  cases x with
  | error e => simp [bind, Except.bind]
  | ok a => cases y <;> simp [bind, Except.bind, pure, Except.pure]

/-- One more step turns the result into another. -/
theorem exists_map_iff {x : Outcome α} {f : α → β} :
    (∃ b, (do return f (← x) : Outcome β) = .ok b) ↔ ∃ a, x = .ok a := by
  cases x with
  | error e => exact ⟨fun ⟨b, h⟩ => absurd h (by simp [bind, Except.bind]), by simp⟩
  | ok a => exact ⟨fun _ => ⟨a, rfl⟩, fun _ => ⟨f a, rfl⟩⟩

/-- Two results are put together if there are two. -/
theorem exists_map₂_iff {γ : Type} {x : Outcome α} {y : Outcome β} {f : α → β → γ} :
    (∃ c, (do let a ← x; return f a (← y) : Outcome γ) = .ok c) ↔
      (∃ a, x = .ok a) ∧ ∃ b, y = .ok b := by
  cases x with
  | error e => exact ⟨fun ⟨c, h⟩ => absurd h (by simp [bind, Except.bind]), by simp⟩
  | ok a =>
    refine Iff.trans (exists_map_iff (x := y) (f := f a)) ⟨fun h => ⟨⟨a, rfl⟩, h⟩, And.right⟩

theorem ofOption_eq_ok {e : EngineError} {x : Option α} {a : α} :
    Outcome.ofOption e x = .ok a ↔ x = some a := by
  cases x <;> simp [ofOption]

/-- Naming the field of an error changes no result. -/
theorem inField_eq_ok {x : Outcome α} {field : String} {a : α} :
    x.inField field = .ok a ↔ x = .ok a := by
  cases x <;> simp [inField]

/-- A check succeeds if there is nothing to refuse. -/
theorem guard_eq_ok {p : Prop} [Decidable p] {e : EngineError} {f : α → Outcome β}
    {x : Outcome β} {b : β} :
    (if p then (throw e : Outcome α) >>= f else x) = .ok b ↔ ¬p ∧ x = .ok b := by
  by_cases h : p <;> simp [h, bind, Except.bind, throw, throwThe, MonadExceptOf.throw]

theorem refuse_eq_ok {p : Prop} [Decidable p] {e : EngineError} {x : Outcome α} {a : α} :
    (if p then .error e else x) = .ok a ↔ ¬p ∧ x = .ok a := by
  by_cases h : p <;> simp [h]

theorem map_eq_ok {x : Outcome α} {f : α → β} {b : β} :
    x.map f = .ok b ↔ ∃ a, x = .ok a ∧ f a = b := by
  cases x <;> simp [Except.map]

theorem mapError_eq_ok {x : Outcome α} {f : EngineError → EngineError} {a : α} :
    x.mapError f = .ok a ↔ x = .ok a := by
  cases x <;> simp [Except.mapError]

theorem toOption_eq_some {x : Outcome α} {a : α} : x.toOption = some a ↔ x = .ok a := by
  cases x <;> simp [Except.toOption]

/-- Checks that are made one after another succeed if each of them does. -/
theorem forM_eq_ok {check : α → Outcome Unit} {xs : List α} :
    xs.forM check = .ok () ↔ ∀ a ∈ xs, check a = .ok () := by
  induction xs with
  | nil => exact ⟨fun _ => List.forall_mem_nil _, fun _ => rfl⟩
  | cons a rest ih =>
    change (check a >>= fun _ => rest.forM check) = .ok () ↔ _
    rw [bind_eq_ok, List.forall_mem_cons, ← ih]
    constructor
    · rintro ⟨_, ha, hrest⟩
      exact ⟨ha, hrest⟩
    · rintro ⟨ha, hrest⟩
      exact ⟨(), ha, hrest⟩

/-- **Item by item**: the results are those of the items, in their order. -/
theorem forall₂_of_mapM {f : α → Outcome β} {xs : List α} {ys : List β}
    (h : xs.mapM f = .ok ys) : List.Forall₂ (fun x y => f x = .ok y) xs ys := by
  induction xs generalizing ys with
  | nil =>
    obtain rfl : [] = ys := Except.ok.inj h
    exact .nil
  | cons x rest ih =>
    rw [List.mapM_cons] at h
    obtain ⟨y, ys', hy, hys, rfl⟩ := bind₂_eq_ok.1 h
    exact .cons hy (ih hys)

/-- Working on a list succeeds if the work on each item does. -/
theorem exists_mapM {f : α → Outcome β} {xs : List α}
    (h : ∀ x ∈ xs, ∃ y, f x = .ok y) : ∃ ys, xs.mapM f = .ok ys := by
  induction xs with
  | nil => exact ⟨[], rfl⟩
  | cons x rest ih =>
    obtain ⟨⟨y, hy⟩, hrest⟩ := List.forall_mem_cons.1 h
    obtain ⟨ys, hys⟩ := ih hrest
    refine ⟨y :: ys, ?_⟩
    rw [List.mapM_cons, hy]
    change (rest.mapM f >>= _) = _
    rw [hys]
    rfl

/-- Two relations item by item make one. -/
theorem forall₂_trans {γ : Type} {R : α → β → Prop} {S : β → γ → Prop} {T : α → γ → Prop}
    (h : ∀ a b c, R a b → S b c → T a c) {xs : List α} {ys : List β} {zs : List γ}
    (hxs : List.Forall₂ R xs ys) (hys : List.Forall₂ S ys zs) : List.Forall₂ T xs zs := by
  induction hxs generalizing zs with
  | nil =>
    cases hys
    exact .nil
  | cons hfirst _ ih =>
    obtain ⟨⟩ | ⟨hfirst', hrest'⟩ := hys
    exact .cons (h _ _ _ hfirst hfirst') (ih hrest')

/-- Each item on the right has one on the left. -/
theorem exists_of_forall₂ {R : α → β → Prop} {xs : List α} {ys : List β}
    (h : List.Forall₂ R xs ys) {y : β} (hy : y ∈ ys) : ∃ x ∈ xs, R x y := by
  induction h with
  | nil => exact absurd hy List.not_mem_nil
  | cons hfirst _ ih =>
    rcases List.mem_cons.1 hy with rfl | hy
    · exact ⟨_, List.mem_cons_self, hfirst⟩
    · obtain ⟨x, hx, hR⟩ := ih hy
      exact ⟨x, List.mem_cons_of_mem _ hx, hR⟩

/-- Steps each of which gives a result give one after another. -/
theorem exists_foldlM {f : β → α → Outcome β} {xs : List α} {b : β}
    (h : ∀ x ∈ xs, ∀ b, ∃ b', f b x = .ok b') : ∃ b', xs.foldlM f b = .ok b' := by
  induction xs generalizing b with
  | nil => exact ⟨b, rfl⟩
  | cons x rest ih =>
    obtain ⟨next, hnext⟩ := h x List.mem_cons_self b
    obtain ⟨b', hb'⟩ := ih (b := next) fun y hy => h y (List.mem_cons_of_mem _ hy)
    exact ⟨b', bind_eq_ok.2 ⟨next, hnext, hb'⟩⟩

/-- **A fold keeps what its steps keep.** -/
theorem foldlM_induction {f : β → α → Outcome β} {P : β → Prop} {xs : List α} {b b' : β}
    (h : xs.foldlM f b = .ok b') (hb : P b)
    (hstep : ∀ b, P b → ∀ a ∈ xs, ∀ b', f b a = .ok b' → P b') : P b' := by
  induction xs generalizing b with
  | nil =>
    obtain rfl : b = b' := Except.ok.inj h
    exact hb
  | cons a rest ih =>
    rw [List.foldlM_cons] at h
    obtain ⟨b₁, hb₁, h⟩ := bind_eq_ok.1 h
    exact ih h (hstep b hb a List.mem_cons_self b₁ hb₁) fun b hb a ha =>
      hstep b hb a (List.mem_cons_of_mem _ ha)

end Outcome

end ObjectEngine
