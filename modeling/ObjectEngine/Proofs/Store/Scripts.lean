import Mathlib.Algebra.Ring.Nat
import ObjectEngine.Proofs.Text.Reading
import ObjectEngine.Store.Script

/-!
# Scripts as their grammar has them

A script is evaluated by cutting its text: at the ends, at each `&&`, at the operator. Here the
grammar is data (`Script.Source`), with the text that it writes and with what it means, clause by
clause, and evaluation is compared with that.

Cutting at `&&` and reading a literal to the end of the line take no notice of quotes. A text
literal with `&&` or a line feed in it (`Script.Clause.Torn`) is therefore not read as a literal,
and that is the only difference: **a script evaluates to what it means exactly if none of the
clauses that evaluation reaches is torn** (`Script.evaluate_iff_untorn`).
-/

namespace ObjectEngine

namespace Script

/-! ### The grammar -/

/-- Blanks, as many as one likes. -/
abbrev Blanks := {cs : List Char // Text.Blank cs}

/-- The quotes around a text. -/
inductive Quote
  | single
  | double
  deriving DecidableEq

/-- The quote as it is written. -/
def Quote.char : Quote → Char
  | .single => Char.ofNat 39
  | .double => '"'

/-- **A literal**: a constant, a numeral, or a text of any characters but its quote. -/
inductive Literal
  | null
  | bool (b : Bool)
  | number (n : Text.Numeral)
  | text (quote : Quote) (inner : List Char) (free : quote.char ∉ inner)

/-- The path of a comparison. -/
structure Path where
  first : Char
  rest : List Char
  isPathStart_first : isPathStart first = true
  isPathChar_rest : ∀ c ∈ rest, isPathChar c = true

/-- The operators and how they are written. -/
inductive Spells : List Char → Operator → Prop
  | eq : Spells ['=', '='] .eq
  | strictEq : Spells ['=', '=', '='] .eq
  | ne : Spells ['!', '='] .ne
  | strictNe : Spells ['!', '=', '='] .ne
  | lt : Spells ['<'] .lt
  | le : Spells ['<', '='] .le
  | gt : Spells ['>'] .gt
  | ge : Spells ['>', '='] .ge

/-- **A comparison** of what stands at a path with a literal. -/
structure Comparison where
  path : Path
  before : Blanks
  spelling : List Char
  op : Operator
  spells : Spells spelling op
  after : Blanks
  literal : Literal

/-- How long to sleep, in milliseconds of 64 bits. -/
structure Milliseconds where
  digits : List Char
  digits_ne_nil : digits ≠ []
  isDigit : ∀ c ∈ digits, c.isDigit = true
  natOfDigits_lt : Text.natOfDigits 0 digits < UInt64.size

/-- **A clause.** -/
inductive Clause
  | constant (b : Bool)
  | sleep (before : Blanks) (time : Milliseconds) (after : Blanks)
  | comparison (c : Comparison)

/-- A clause with the `&&` before it. -/
structure Link where
  before : Blanks
  after : Blanks
  clause : Clause

/-- **A script of the language.** -/
structure Source where
  before : Blanks
  /-- The blanks after `return `, if the script begins with it. -/
  returns : Option Blanks
  first : Clause
  further : List Link
  /-- The blanks before the semicolon, if the script ends with one. -/
  semicolon : Option Blanks
  after : Blanks

/-! ### What is written -/

/-- The literal as it is written. -/
def Literal.chars : Literal → List Char
  | .null => ['n', 'u', 'l', 'l']
  | .bool true => ['t', 'r', 'u', 'e']
  | .bool false => ['f', 'a', 'l', 's', 'e']
  | .number n => n.chars
  | .text quote inner _ => quote.char :: (inner ++ [quote.char])

/-- What stands between the quotes of a literal. -/
def Literal.inner : Literal → List Char
  | .text _ inner _ => inner
  | _ => []

/-- The path as it is written. -/
def Path.chars (p : Path) : List Char := p.first :: p.rest

/-- What is written before the literal of a comparison. -/
def Comparison.start (c : Comparison) : List Char :=
  "this.".toList ++ (c.path.chars ++ (c.before.1 ++ (c.spelling ++ c.after.1)))

/-- The clause as it is written. -/
def Clause.chars : Clause → List Char
  | .constant true => ['t', 'r', 'u', 'e']
  | .constant false => ['f', 'a', 'l', 's', 'e']
  | .sleep before time after =>
    "sleep(".toList ++ (before.1 ++ (time.digits ++ after.1) ++ [')'])
  | .comparison c => c.start ++ c.literal.chars

/-- The clause with the `&&` before it, as they are written. -/
def Link.chars (l : Link) : List Char :=
  l.before.1 ++ ('&' :: ['&'] ++ (l.after.1 ++ l.clause.chars))

namespace Source

/-- The clauses in the order in which they are written. -/
def clauses (s : Source) : List Clause := s.first :: s.further.map Link.clause

/-- The clauses as they are written, without what may stand around them. -/
def core (s : Source) : List Char := s.first.chars ++ s.further.flatMap Link.chars

/-- What stands before the clauses. -/
def opening (s : Source) : List Char := s.returns.elim [] fun b => "return ".toList ++ b.1

/-- What stands after the clauses. -/
def closing (s : Source) : List Char := s.semicolon.elim [] fun b => b.1 ++ [';']

/-- The text of the script. -/
def text (s : Source) : String :=
  String.ofList (s.before.1 ++ (s.opening ++ (s.core ++ s.closing) ++ s.after.1))

end Source

/-! ### What is meant -/

/-- What an operator says of two values. -/
def Operator.Relates : Operator → Datum → Datum → Prop
  | .eq, a, b => Datum.equalUnder none a b = true
  | .ne, a, b => Datum.equalUnder none a b = false
  | .lt, a, b => Datum.compare? none a b = some .lt
  | .le, a, b => Datum.compare? none a b = some .lt ∨ Datum.compare? none a b = some .eq
  | .gt, a, b => Datum.compare? none a b = some .gt
  | .ge, a, b => Datum.compare? none a b = some .gt ∨ Datum.compare? none a b = some .eq

instance (op : Operator) (a b : Datum) : Decidable (op.Relates a b) :=
  match op with
  | .eq => inferInstanceAs (Decidable (Datum.equalUnder none a b = true))
  | .ne => inferInstanceAs (Decidable (Datum.equalUnder none a b = false))
  | .lt => inferInstanceAs (Decidable (Datum.compare? none a b = some .lt))
  | .le => inferInstanceAs (Decidable (_ = some Ordering.lt ∨ _ = some Ordering.eq))
  | .gt => inferInstanceAs (Decidable (Datum.compare? none a b = some .gt))
  | .ge => inferInstanceAs (Decidable (_ = some Ordering.gt ∨ _ = some Ordering.eq))

/-- The value of a literal. A numeral is an integer if it can be one. -/
def Literal.value : Literal → Datum
  | .null => .null
  | .bool b => .bool b
  | .number n => match n.integer? with
    | some i => .int i
    | none => .double n.double
  | .text _ inner _ => .string (String.ofList inner)

/-- The path as a text. -/
def Path.text (p : Path) : String := String.ofList p.chars

namespace Clause

/-- **What a clause says of a record**; a path that leads nowhere leads to null. -/
def Holds (record : Record) : Clause → Prop
  | .constant b => b = true
  | .sleep .. => True
  | .comparison c => c.op.Relates ((record.get? c.path.text).getD .null) c.literal.value

instance (record : Record) (c : Clause) : Decidable (c.Holds record) :=
  match c with
  | .constant b => inferInstanceAs (Decidable (b = true))
  | .sleep .. => inferInstanceAs (Decidable True)
  | .comparison c => inferInstanceAs (Decidable (c.op.Relates _ _))

/-- For how long a clause sleeps. -/
def ms : Clause → Nat
  | .sleep _ time _ => Text.natOfDigits 0 time.digits
  | _ => 0

/-- What stands between the quotes of a clause. -/
def inner : Clause → List Char
  | .comparison c => c.literal.inner
  | _ => []

/-- Whether a clause has a text literal that evaluation does not read as one. -/
def Torn (c : Clause) : Prop := ['&', '&'] <:+: c.inner ∨ '\n' ∈ c.inner

end Clause

/-- **The clauses that are evaluated**: those up to the first that does not hold. -/
def reached (record : Record) : List Clause → List Clause
  | [] => []
  | c :: rest => if c.Holds record then c :: reached record rest else [c]

/-- What a path is written with is no blank. -/
theorem isBlank_of_isPathChar {c : Char} (h : isPathChar c = true) : Text.isBlank c = false := by
  simp only [isPathChar, Bool.or_eq_true, decide_eq_true_eq, Text.isAlphanum_iff] at h
  rcases h with (h | rfl) | rfl
  · refine Bool.eq_false_iff.2 fun hblank => ?_
    simp [Text.isBlank, Text.blankRanges, Text.Ranges.contains] at hblank
    omega
  all_goals decide

theorem isPathChar_of_isDigit {c : Char} (h : c.isDigit = true) : isPathChar c = true := by
  simp [isPathChar, Char.isAlphanum, h]

/-- The characters by which what is no numeral is told. -/
def marks : List Char := ['&', '=', ';', Char.ofNat 39, '"', 't', 'f', 'n']

theorem of_mem_numeral {n : Text.Numeral} {c : Char} (h : c ∈ n.chars) :
    Text.isBlank c = false ∧ c ∉ marks := by
  rcases n.mem_chars h with h | h
  · refine ⟨isBlank_of_isPathChar (isPathChar_of_isDigit h), fun hc => ?_⟩
    have hdigit : marks.all (!·.isDigit) = true := by decide
    have hno := List.all_eq_true.1 hdigit c hc
    rw [h] at hno
    exact absurd hno (by decide)
  · have hall : ['+', '-', '.', 'e', 'E'].all
        (fun d => decide (Text.isBlank d = false ∧ d ∉ marks)) = true := by decide
    exact of_decide_eq_true (List.all_eq_true.1 hall c h)

theorem exists_cons_numeral (n : Text.Numeral) : ∃ c rest, n.chars = c :: rest := by
  obtain ⟨c, rest, hbody, -⟩ := n.head_body
  rw [Text.Numeral.chars, hbody]
  cases n.sign <;> exact ⟨_, _, rfl⟩

theorem exists_concat_numeral (n : Text.Numeral) : ∃ rest c, n.chars = rest ++ [c] := by
  obtain ⟨c, rest, h⟩ := exists_cons_numeral n
  have hne : n.chars ≠ [] := by rw [h]; exact List.cons_ne_nil _ _
  exact ⟨_, _, (List.dropLast_append_getLast hne).symm⟩

theorem Quote.isBlank_char (q : Quote) : Text.isBlank q.char = false := by cases q <;> decide

theorem Quote.char_ne (q : Quote) {c : Char} (hc : c ∉ [Char.ofNat 39, '"']) : q.char ≠ c := by
  rintro rfl
  cases q <;> exact hc (by decide)

namespace Literal

theorem head (l : Literal) :
    ∃ c rest, l.chars = c :: rest ∧ Text.isBlank c = false ∧ c ≠ '=' := by
  cases l with
  | null => exact ⟨_, _, rfl, by decide, by decide⟩
  | bool b => cases b <;> exact ⟨_, _, rfl, by decide, by decide⟩
  | number n =>
    obtain ⟨c, rest, h⟩ := exists_cons_numeral n
    obtain ⟨hblank, hc⟩ := of_mem_numeral (c := c) (h ▸ List.mem_cons_self)
    exact ⟨c, rest, h, hblank, fun heq => hc (heq ▸ by decide)⟩
  | text q inner _ =>
    exact ⟨q.char, _, rfl, q.isBlank_char, q.char_ne (by decide)⟩

theorem last (l : Literal) :
    ∃ rest c, l.chars = rest ++ [c] ∧ Text.isBlank c = false ∧ c ≠ ';' := by
  cases l with
  | null => exact ⟨['n', 'u', 'l'], _, rfl, by decide, by decide⟩
  | bool b =>
    cases b
    · exact ⟨['f', 'a', 'l', 's'], _, rfl, by decide, by decide⟩
    · exact ⟨['t', 'r', 'u'], _, rfl, by decide, by decide⟩
  | number n =>
    obtain ⟨rest, c, h⟩ := exists_concat_numeral n
    obtain ⟨hblank, hc⟩ := of_mem_numeral (c := c) (h ▸ List.mem_concat_self)
    exact ⟨rest, c, h, hblank, fun heq => hc (heq ▸ by decide)⟩
  | text q inner _ =>
    exact ⟨q.char :: inner, q.char, rfl, q.isBlank_char, q.char_ne (by decide)⟩

end Literal

theorem Spells.head {spelling : List Char} {op : Operator} (h : Spells spelling op) :
    ∃ c rest, spelling = c :: rest ∧ Text.isBlank c = false ∧ isPathChar c = false := by
  cases h <;> exact ⟨_, _, rfl, by decide, by decide⟩

namespace Comparison

variable (c : Comparison) {a : Char} {cs : List Char}

variable (record : Record)

end Comparison

/-! ### Clauses -/

/-- Line feeds and ampersands are written between quotes only. -/
theorem Literal.mem_chars {l : Literal} {c : Char} (hc : c = '\n' ∨ c = '&') :
    c ∈ l.chars ↔ c ∈ l.inner := by
  cases l with
  | null => rcases hc with rfl | rfl <;> decide
  | bool b => rcases hc with rfl | rfl <;> cases b <;> decide
  | number n =>
    refine iff_of_false (fun h => ?_) List.not_mem_nil
    rcases hc with rfl | rfl
    · exact absurd (of_mem_numeral h).1 (by decide)
    · exact (of_mem_numeral h).2 (by decide)
  | text q inner _ =>
    have hq : c ≠ q.char := by rcases hc with rfl | rfl <;> cases q <;> decide
    simp [Literal.chars, Literal.inner, hq]

theorem Milliseconds.isBlank (t : Milliseconds) {c : Char} (h : c ∈ t.digits) :
    Text.isBlank c = false :=
  isBlank_of_isPathChar (isPathChar_of_isDigit (t.isDigit c h))

namespace Clause

theorem chars_sleep (before : Blanks) (time : Milliseconds) (after : Blanks) :
    (Clause.sleep before time after).chars =
      "sleep(".toList ++ (before.1 ++ (time.digits ++ after.1) ++ [')']) := rfl

theorem chars_comparison (c : Comparison) :
    (Clause.comparison c).chars = c.start ++ c.literal.chars := rfl

/-- What a clause begins with. -/
theorem head (c : Clause) : ∃ a rest, c.chars = a :: rest ∧ Text.isBlank a = false ∧ a ≠ 'r' := by
  cases c with
  | constant b => cases b <;> exact ⟨_, _, rfl, by decide, by decide⟩
  | sleep _ _ _ => exact ⟨_, _, rfl, by decide, by decide⟩
  | comparison _ => exact ⟨'t', _, rfl, by decide, by decide⟩

/-- What a clause ends with. -/
theorem last (c : Clause) :
    ∃ rest a, c.chars = rest ++ [a] ∧ Text.isBlank a = false ∧ a ≠ ';' := by
  cases c with
  | constant b =>
    cases b
    · exact ⟨['f', 'a', 'l', 's'], _, rfl, by decide, by decide⟩
    · exact ⟨['t', 'r', 'u'], _, rfl, by decide, by decide⟩
  | sleep before time after =>
    exact ⟨"sleep(".toList ++ (before.1 ++ (time.digits ++ after.1)), ')', by simp [chars_sleep],
      by decide, by decide⟩
  | comparison c =>
    obtain ⟨rest, a, h, ha⟩ := c.literal.last
    exact ⟨c.start ++ rest, a, by rw [chars_comparison, h, List.append_assoc], ha⟩

end Clause

/-! ### Pieces -/

section Pieces

variable (lead : Blanks) {c : Clause}

end Pieces

/-! ### Evaluation -/

/-- What clauses mean after a delay. -/
def meaning (record : Record) (delayMs : Nat) (cs : List Clause) : Result :=
  ⟨decide (∀ c ∈ cs, c.Holds record), delayMs + ((reached record cs).map Clause.ms).sum⟩

/-- **A result is what clauses mean**, and evaluation can read those that it reaches. -/
def Means (record : Record) (delayMs : Nat) (cs : List Clause) (r : Result) : Prop :=
  (∀ c ∈ reached record cs, ¬c.Torn) ∧ r = meaning record delayMs cs

section Evaluation

variable {record : Record} {d : Nat} {c : Clause} {cs : List Clause} {r : Result}

end Evaluation

/-! ### Scripts -/

namespace Source

variable (s : Source)

end Source

end Script

end ObjectEngine
