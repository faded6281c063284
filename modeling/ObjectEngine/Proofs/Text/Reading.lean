import Mathlib.Data.List.Basic
import Mathlib.Data.List.TakeWhile
import Mathlib.Data.Option.Basic
import ObjectEngine.Schema
import ObjectEngine.Text.Blank
import ObjectEngine.Text.Bytes
import ObjectEngine.Text.Numeral
import ObjectEngine.Text.Split

/-!
# Texts that are known from what they are read as

A base-64 text is known from its bytes (`Base64.encode_of_decode?`), because reading is strict,
and bytes are read back from their text (`Base64.decode?_encode`). A text put together with a
separator comes apart again where the separator stands for the first time
(`Text.append_first_inj`) or for the last (`Text.append_last_inj`), as long as the part before
it, or after it, has no separator of its own. Names that a schema declares have none
(`mem_of_isIdentifier`). A separator of several characters may overlap the piece before it, which
`Text.splitAtText_append` rules out. A decimal numeral (`Text.Numeral`) is read as the number it
writes (`Text.Numeral.int64?_eq`, `Text.Numeral.double?_eq`).
-/

namespace ObjectEngine

/-! ### Base-64 texts -/

namespace Base64

/-- A character that has a value is the digit of that value. -/
theorem digit_of_value? {c : Char} {n : Nat} (h : value? c = some n) : n < 64 ∧ digit n = c := by
  have hback {k : Nat} (hk : k = c.toNat) : Char.ofNat k = c := hk ▸ Char.ofNat_toNat c
  have hrange {a b : Char} (hc : a ≤ c ∧ c ≤ b) : a.toNat ≤ c.toNat ∧ c.toNat ≤ b.toNat := hc
  unfold value? at h
  split at h
  case isTrue hc =>
    obtain ⟨hlow, hhigh⟩ : 65 ≤ c.toNat ∧ c.toNat ≤ 90 := hrange hc
    obtain rfl := Option.some.inj h
    exact ⟨by omega, by rw [digit, if_pos (by omega), hback (by omega)]⟩
  split at h
  case isTrue hc =>
    obtain ⟨hlow, hhigh⟩ : 97 ≤ c.toNat ∧ c.toNat ≤ 122 := hrange hc
    obtain rfl := Option.some.inj h
    refine ⟨by omega, ?_⟩
    rw [digit, if_neg (by omega), if_pos (by omega), hback (by omega)]
  split at h
  case isTrue hc =>
    obtain ⟨hlow, hhigh⟩ : 48 ≤ c.toNat ∧ c.toNat ≤ 57 := hrange hc
    obtain rfl := Option.some.inj h
    refine ⟨by omega, ?_⟩
    rw [digit, if_neg (by omega), if_neg (by omega), if_pos (by omega), hback (by omega)]
  split at h
  case isTrue hc =>
    obtain rfl := Option.some.inj h
    exact ⟨by omega, hc.symm⟩
  split at h
  case isTrue hc =>
    obtain rfl := Option.some.inj h
    exact ⟨by omega, hc.symm⟩
  exact absurd h (by simp)

/-- What is read as bytes is their text: three bytes and four digits hold the same number, and
the bits that padding leaves over are zero. -/
theorem encodeChars_of_decodeChars {cs : List Char} {bytes : List UInt8}
    (h : decodeChars cs = some bytes) : encodeChars bytes = cs := by
  fun_induction decodeChars cs generalizing bytes with
  | case1 =>
    obtain rfl := Option.some.inj h
    rfl
  | case2 a b =>
    obtain ⟨x, hx, h⟩ := Option.bind_eq_some_iff.1 h
    obtain ⟨y, hy, h⟩ := Option.bind_eq_some_iff.1 h
    obtain ⟨hrest, h⟩ : (x * 64 + y) % 16 = 0 ∧ _ := Option.ite_none_right_eq_some.1 h
    obtain rfl := Option.some.inj h
    obtain ⟨hx64, rfl⟩ := digit_of_value? hx
    obtain ⟨hy64, rfl⟩ := digit_of_value? hy
    have hbyte : (x * 64 + y) / 16 % 256 * 16 = x * 64 + y := by omega
    rw [encodeChars]
    simp only [UInt8.toNat_ofNat', Nat.reducePow, hbyte]
    rw [show (x * 64 + y) / 64 = x by omega, show (x * 64 + y) % 64 = y by omega]
  | case3 a b c =>
    obtain ⟨x, hx, h⟩ := Option.bind_eq_some_iff.1 h
    obtain ⟨y, hy, h⟩ := Option.bind_eq_some_iff.1 h
    obtain ⟨z, hz, h⟩ := Option.bind_eq_some_iff.1 h
    obtain ⟨hrest, h⟩ : ((x * 64 + y) * 64 + z) % 4 = 0 ∧ _ := Option.ite_none_right_eq_some.1 h
    obtain rfl := Option.some.inj h
    obtain ⟨hx64, rfl⟩ := digit_of_value? hx
    obtain ⟨hy64, rfl⟩ := digit_of_value? hy
    obtain ⟨hz64, rfl⟩ := digit_of_value? hz
    have hbytes : (((x * 64 + y) * 64 + z) / 1024 % 256 * 256 +
        ((x * 64 + y) * 64 + z) / 4 % 256) * 4 = (x * 64 + y) * 64 + z := by omega
    rw [encodeChars]
    simp only [UInt8.toNat_ofNat', Nat.reducePow, hbytes]
    rw [show ((x * 64 + y) * 64 + z) / 4096 = x by omega,
      show ((x * 64 + y) * 64 + z) / 64 % 64 = y by omega,
      show ((x * 64 + y) * 64 + z) % 64 = z by omega]
  | case4 a b c d rest _ _ ih =>
    obtain ⟨x, hx, h⟩ := Option.bind_eq_some_iff.1 h
    obtain ⟨y, hy, h⟩ := Option.bind_eq_some_iff.1 h
    obtain ⟨z, hz, h⟩ := Option.bind_eq_some_iff.1 h
    obtain ⟨w, hw, h⟩ := Option.bind_eq_some_iff.1 h
    obtain ⟨bytes', hbytes', h⟩ := Option.bind_eq_some_iff.1 h
    obtain rfl := Option.some.inj h
    obtain ⟨hx64, rfl⟩ := digit_of_value? hx
    obtain ⟨hy64, rfl⟩ := digit_of_value? hy
    obtain ⟨hz64, rfl⟩ := digit_of_value? hz
    obtain ⟨hw64, rfl⟩ := digit_of_value? hw
    obtain ⟨n, hn⟩ : ∃ n, ((x * 64 + y) * 64 + z) * 64 + w = n := ⟨_, rfl⟩
    have hbytes : (n / 65536 % 256 * 256 + n / 256 % 256) * 256 + n % 256 = n := by omega
    rw [hn, encodeChars, ih hbytes']
    simp only [UInt8.toNat_ofNat', Nat.reducePow, hbytes]
    rw [show n / 262144 = x by omega, show n / 4096 % 64 = y by omega,
      show n / 64 % 64 = z by omega, show n % 64 = w by omega]
  | case5 => exact absurd h (by simp)

/-- **A base-64 text** is the text of the bytes that it is read as. -/
theorem encode_of_decode? {text : String} {bytes : List UInt8} (h : decode? text = some bytes) :
    encode bytes = text := by
  rw [encode, encodeChars_of_decodeChars h, String.ofList_toList]

/-- The digit of a six-bit group has that value, and it is no padding. -/
theorem value?_digit {n : Nat} (h : n < 64) : value? (digit n) = some n ∧ digit n ≠ '=' := by
  have hall : ∀ m : Fin 64, value? (digit m) = some m.val ∧ digit m ≠ '=' := by decide
  exact hall ⟨n, h⟩

/-- A byte is what its number leaves below 256. -/
theorem ofNat_eq_of_mod {n : Nat} {b : UInt8} (h : n % 256 = b.toNat) : UInt8.ofNat n = b :=
  UInt8.toNat_inj.1 ((UInt8.toNat_ofNat' ..).trans h)

/-- The text of bytes is read as them. -/
theorem decodeChars_encodeChars (bytes : List UInt8) :
    decodeChars (encodeChars bytes) = some bytes := by
  fun_induction encodeChars bytes with
  | case1 => rfl
  | case2 a n =>
    have ha : a.toNat < 256 := a.toNat_lt
    obtain ⟨x, hx⟩ : ∃ x, n / 64 = x := ⟨_, rfl⟩
    obtain ⟨y, hy⟩ : ∃ y, n % 64 = y := ⟨_, rfl⟩
    have hn : x * 64 + y = a.toNat * 16 := by omega
    rw [hx, hy, decodeChars, (value?_digit (show x < 64 by omega)).1,
      (value?_digit (show y < 64 by omega)).1]
    change (if (x * 64 + y) % 16 = 0 then some [UInt8.ofNat ((x * 64 + y) / 16)] else none) = _
    rw [if_pos (by omega), ofNat_eq_of_mod (b := a) (by omega)]
  | case3 a b n =>
    have ha : a.toNat < 256 := a.toNat_lt
    have hb : b.toNat < 256 := b.toNat_lt
    obtain ⟨x, hx⟩ : ∃ x, n / 4096 = x := ⟨_, rfl⟩
    obtain ⟨y, hy⟩ : ∃ y, n / 64 % 64 = y := ⟨_, rfl⟩
    obtain ⟨z, hz⟩ : ∃ z, n % 64 = z := ⟨_, rfl⟩
    have hn : (x * 64 + y) * 64 + z = (a.toNat * 256 + b.toNat) * 4 := by omega
    rw [hx, hy, hz, decodeChars, (value?_digit (show x < 64 by omega)).1,
      (value?_digit (show y < 64 by omega)).1, (value?_digit (show z < 64 by omega)).1]
    · change (if ((x * 64 + y) * 64 + z) % 4 = 0 then
        some [UInt8.ofNat _, UInt8.ofNat _] else none) = _
      rw [if_pos (by omega), hn, ofNat_eq_of_mod (b := a) (by omega),
        ofNat_eq_of_mod (b := b) (by omega)]
    · exact (value?_digit (by omega)).2
  | case4 a b c rest n ih =>
    have ha : a.toNat < 256 := a.toNat_lt
    have hb : b.toNat < 256 := b.toNat_lt
    have hc : c.toNat < 256 := c.toNat_lt
    obtain ⟨x, hx⟩ : ∃ x, n / 262144 = x := ⟨_, rfl⟩
    obtain ⟨y, hy⟩ : ∃ y, n / 4096 % 64 = y := ⟨_, rfl⟩
    obtain ⟨z, hz⟩ : ∃ z, n / 64 % 64 = z := ⟨_, rfl⟩
    obtain ⟨w, hw⟩ : ∃ w, n % 64 = w := ⟨_, rfl⟩
    have hn : ((x * 64 + y) * 64 + z) * 64 + w = (a.toNat * 256 + b.toNat) * 256 + c.toNat := by
      omega
    rw [hx, hy, hz, hw, decodeChars, (value?_digit (show x < 64 by omega)).1,
      (value?_digit (show y < 64 by omega)).1, (value?_digit (show z < 64 by omega)).1,
      (value?_digit (show w < 64 by omega)).1, ih]
    · change some (UInt8.ofNat _ :: UInt8.ofNat _ :: UInt8.ofNat _ :: rest) = _
      rw [hn, ofNat_eq_of_mod (b := a) (by omega), ofNat_eq_of_mod (b := b) (by omega),
        ofNat_eq_of_mod (b := c) (by omega)]
    · intro hz' hw'
      exact absurd hw' (value?_digit (by omega)).2
    · intro hw'
      exact absurd hw' (value?_digit (by omega)).2

/-- **Bytes** are read back from their base-64 text. -/
theorem decode?_encode (bytes : List UInt8) : decode? (encode bytes) = some bytes := by
  rw [decode?, encode, String.toList_ofList, decodeChars_encodeChars]

end Base64

/-! ### Separators -/

namespace Text

variable {sep : Char} {a b c d : List Char}

/-- What stands before the first separator has none, and what follows is the rest. -/
theorem splitFirstChars_eq_some {cs : List Char} :
    splitFirstChars sep cs = some (a, b) ↔ sep ∉ a ∧ cs = a ++ sep :: b := by
  induction cs generalizing a with
  | nil => simp [splitFirstChars]
  | cons x rest ih =>
    rw [splitFirstChars]
    by_cases hx : x = sep
    · subst hx
      rw [if_pos rfl, Option.some.injEq, Prod.mk.injEq]
      cases a with
      | nil => simp
      | cons y a => simp +contextual [eq_comm]
    · rw [if_neg hx, Option.map_eq_some_iff]
      constructor
      · rintro ⟨⟨a', b'⟩, h, heq⟩
        obtain ⟨rfl, rfl⟩ := Prod.mk.inj heq
        obtain ⟨hsep, rfl⟩ := ih.1 h
        exact ⟨List.not_mem_cons_of_ne_of_not_mem (Ne.symm hx) hsep, rfl⟩
      · rintro ⟨hsep, h⟩
        cases a with
        | nil => exact absurd (List.cons.inj h).1 hx
        | cons y a =>
          obtain ⟨rfl, rfl⟩ := List.cons.inj h
          exact ⟨(a, b), ih.2 ⟨fun h => hsep (List.mem_cons_of_mem _ h), rfl⟩, rfl⟩

theorem splitFirstChars_eq_none {cs : List Char} : splitFirstChars sep cs = none ↔ sep ∉ cs := by
  induction cs with
  | nil => simp [splitFirstChars]
  | cons x rest ih =>
    rw [splitFirstChars, List.mem_cons, not_or]
    by_cases hx : x = sep
    · simp [hx]
    · rw [if_neg hx, Option.map_eq_none_iff, ih]
      exact (and_iff_right (Ne.symm hx)).symm

theorem splitFirst_eq_none {s : String} (h : sep ∉ s.toList) : splitFirst sep s = none :=
  Option.map_eq_none_iff.2 (splitFirstChars_eq_none.2 h)

/-- **A text comes apart** at its first separator in one way only. -/
theorem append_first_inj (h : a ++ sep :: b = c ++ sep :: d) (ha : sep ∉ a) (hc : sep ∉ c) :
    a = c ∧ b = d := by
  have hsplit := splitFirstChars_eq_some.2 ⟨hc, h⟩
  rw [splitFirstChars_eq_some.2 ⟨ha, rfl⟩] at hsplit
  exact Prod.mk.inj (Option.some.inj hsplit)

/-- A text comes apart at its last separator in one way only. -/
theorem append_last_inj (h : a ++ sep :: b = c ++ sep :: d) (hb : sep ∉ b) (hd : sep ∉ d) :
    a = c ∧ b = d := by
  have hreverse : b.reverse ++ sep :: a.reverse = d.reverse ++ sep :: c.reverse := by
    simpa using congrArg List.reverse h
  obtain ⟨hbd, hac⟩ := append_first_inj hreverse (by simpa using hb) (by simpa using hd)
  exact ⟨List.reverse_injective hac, List.reverse_injective hbd⟩

theorem splitLastChars_eq_none {cs : List Char} : splitLastChars sep cs = none ↔ sep ∉ cs := by
  induction cs with
  | nil => simp [splitLastChars]
  | cons x rest ih =>
    rw [splitLastChars, List.mem_cons, not_or, ← ih]
    cases splitLastChars sep rest with
    | some split => simp
    | none => simp [eq_comm]

theorem of_splitLastChars {cs : List Char} (h : splitLastChars sep cs = some (a, b)) :
    sep ∉ b ∧ cs = a ++ sep :: b := by
  induction cs generalizing a with
  | nil => exact absurd h (by simp [splitLastChars])
  | cons x rest ih =>
    rw [splitLastChars] at h
    split at h
    · rename_i a' b' hsplit
      obtain ⟨rfl, rfl⟩ := Prod.mk.inj (Option.some.inj h)
      obtain ⟨hb, rfl⟩ := ih hsplit
      exact ⟨hb, rfl⟩
    · rename_i hsplit
      obtain ⟨hx, hparts⟩ := Option.ite_none_right_eq_some.1 h
      obtain ⟨rfl, rfl⟩ := Prod.mk.inj (Option.some.inj hparts)
      exact ⟨splitLastChars_eq_none.1 hsplit, hx ▸ rfl⟩

/-- What stands behind the last separator has none, and what precedes it is the rest. -/
theorem splitLastChars_eq_some {cs : List Char} :
    splitLastChars sep cs = some (a, b) ↔ sep ∉ b ∧ cs = a ++ sep :: b := by
  refine ⟨of_splitLastChars, ?_⟩
  rintro ⟨hb, rfl⟩
  cases hsplit : splitLastChars sep (a ++ sep :: b) with
  | none =>
    have hsep : sep ∈ a ++ sep :: b := List.mem_append_right _ List.mem_cons_self
    exact absurd hsep (splitLastChars_eq_none.1 hsplit)
  | some parts =>
    obtain ⟨hb', heq⟩ := of_splitLastChars (a := parts.1) (b := parts.2) hsplit
    obtain ⟨rfl, rfl⟩ := append_last_inj heq hb hb'
    rfl

/-- The pieces of a text have no separator. -/
theorem not_mem_of_mem_splitChars {cs piece : List Char} (h : piece ∈ splitChars sep cs) :
    sep ∉ piece := by
  induction cs generalizing piece with
  | nil =>
    obtain rfl := List.mem_singleton.1 h
    exact List.not_mem_nil
  | cons x rest ih =>
    rw [splitChars] at h
    split at h
    · rcases List.mem_cons.1 h with rfl | h
      · exact List.not_mem_nil
      · exact ih h
    · rename_i hx
      have hfirst {piece : List Char} (hpiece : sep ∉ piece) : sep ∉ x :: piece :=
        List.not_mem_cons_of_ne_of_not_mem (Ne.symm hx) hpiece
      split at h
      · obtain rfl := List.mem_singleton.1 h
        exact hfirst List.not_mem_nil
      · rename_i first pieces hpieces
        rw [hpieces] at ih
        rcases List.mem_cons.1 h with rfl | h
        · exact hfirst (ih List.mem_cons_self)
        · exact ih (List.mem_cons_of_mem _ h)

theorem not_mem_of_mem_split {s piece : String} (h : piece ∈ split sep s) :
    sep ∉ piece.toList := by
  obtain ⟨cs, hcs, rfl⟩ := List.mem_map.1 h
  rw [String.toList_ofList]
  exact not_mem_of_mem_splitChars hcs

/-- What a text begins with can be taken off. -/
theorem dropStart?_append (start cs : List Char) : dropStart? start (start ++ cs) = some cs := by
  induction start with
  | nil => rfl
  | cons x start ih => rw [List.cons_append, dropStart?, if_pos rfl, ih]

theorem afterStart?_append (start s : String) : afterStart? start (start ++ s) = some s := by
  rw [afterStart?, String.toList_append, dropStart?_append, Option.map_some, String.ofList_toList]

section Pieces

variable {a : Char} {sep pre rest start cs : List Char}

theorem dropStart?_eq_some : dropStart? start cs = some rest ↔ cs = start ++ rest := by
  refine ⟨fun h => ?_, fun h => h ▸ dropStart?_append start rest⟩
  induction start generalizing cs with
  | nil => exact Option.some.inj h
  | cons x start ih =>
    cases cs with
    | nil => exact absurd h (by simp [dropStart?])
    | cons y cs =>
      rw [dropStart?] at h
      split at h
      case isTrue hxy => rw [ih h, hxy, List.cons_append]
      case isFalse => exact absurd h (by simp)

/-- A text begins with what can be taken off its start. -/
theorem eq_append_of_afterStart? {start s rest : String} (h : afterStart? start s = some rest) :
    s = start ++ rest := by
  obtain ⟨cs, hcs, rfl⟩ := Option.map_eq_some_iff.1 h
  rw [← String.toList_inj, String.toList_append, String.toList_ofList]
  exact dropStart?_eq_some.1 hcs

/-- A text ends with what can be taken off its end. -/
theorem eq_append_of_beforeEnding? {ending s rest : String}
    (h : beforeEnding? ending s = some rest) : s = rest ++ ending := by
  obtain ⟨cs, hcs, rfl⟩ := Option.map_eq_some_iff.1 h
  obtain ⟨reversed, hreversed, rfl⟩ := Option.map_eq_some_iff.1 hcs
  rw [← String.toList_inj, String.toList_append, String.toList_ofList, ← List.reverse_inj,
    dropStart?_eq_some.1 hreversed, List.reverse_append, List.reverse_reverse]

/-- Blanks alone. -/
def Blank (cs : List Char) : Prop := ∀ c ∈ cs, isBlank c = true

instance : DecidablePred Blank := fun _ => decidable_of_iff _ List.all_eq_true

/-- **A text without blanks at its ends.** -/
structure Tight (cs : List Char) : Prop where
  head : ∃ c rest, cs = c :: rest ∧ isBlank c = false
  last : ∃ rest c, cs = rest ++ [c] ∧ isBlank c = false

theorem dropWhile_append_cons {α : Type} {p : α → Bool} {a : α} (h : p a = false)
    (as bs : List α) : (as ++ a :: bs).dropWhile p = as.dropWhile p ++ a :: bs := by
  induction as with
  | nil => simp [h]
  | cons x as ih =>
    rw [List.cons_append, List.dropWhile_cons, List.dropWhile_cons, ih]
    split <;> rfl

theorem trimStart_eq {b : List Char} (hb : Blank b)
    (h : ∃ c rest, cs = c :: rest ∧ isBlank c = false) : trimStart (b ++ cs) = cs := by
  obtain ⟨c, rest, rfl, hc⟩ := h
  rw [trimStart, List.dropWhile_append_of_pos hb, List.dropWhile_cons, if_neg (by simp [hc])]

/-- Nothing before the last character that is no blank is trimmed. -/
theorem trimEnd_append_cons {c : Char} (hc : isBlank c = false) (cs rest : List Char) :
    trimEnd (cs ++ c :: rest) = cs ++ c :: trimEnd rest := by
  rw [trimEnd, List.reverse_append, List.reverse_cons, List.append_assoc, List.singleton_append,
    dropWhile_append_cons hc]
  simp [trimEnd]

theorem trimEnd_blank {b : List Char} (hb : Blank b) : trimEnd b = [] := by
  have hall : b.reverse.dropWhile isBlank = [] :=
    List.dropWhile_eq_nil_iff.2 fun c hc => hb c (List.mem_reverse.1 hc)
  rw [trimEnd, hall, List.reverse_nil]

/-- **Trimming** takes off the blanks at both ends. -/
theorem trim_eq {b b' : List Char} (hb : Blank b) (h : Tight cs) (hb' : Blank b') :
    trim (b ++ (cs ++ b')) = cs := by
  obtain ⟨c, rest, rfl, hc⟩ := h.head
  obtain ⟨rest', c', hlast, hc'⟩ := h.last
  have hstart : trimStart (b ++ (c :: rest ++ b')) = c :: rest ++ b' :=
    trimStart_eq hb ⟨c, rest ++ b', rfl, hc⟩
  rw [trim, hstart, hlast, List.append_assoc, List.singleton_append, trimEnd_append_cons hc',
    trimEnd_blank hb']

theorem Tight.trim (h : Tight cs) : trim cs = cs := by
  have hnil : Blank [] := nofun
  simpa using trim_eq hnil h hnil

theorem Tight.append {as bs : List Char} (ha : Tight as) (hb : Tight bs) (m : List Char) :
    Tight (as ++ (m ++ bs)) := by
  obtain ⟨c, rest, rfl, hc⟩ := ha.head
  obtain ⟨rest', c', rfl, hc'⟩ := hb.last
  exact ⟨⟨c, _, rfl, hc⟩, ⟨c :: rest ++ (m ++ rest'), c', by simp, hc'⟩⟩

end Pieces

/-! ### Numerals -/

/-- The sign before a numeral, if there is one. -/
inductive Sign
  | none
  | plus
  | minus
  deriving DecidableEq

namespace Sign

/-- The sign as it is written. -/
def chars : Sign → List Char
  | .none => []
  | .plus => ['+']
  | .minus => ['-']

/-- Whether the sign makes a number negative. -/
def isMinus : Sign → Bool
  | .minus => true
  | _ => false

/-- The number with a sign and a magnitude. -/
def apply (s : Sign) (n : Nat) : Int := if s.isMinus then -(n : Int) else n

end Sign

/-- The exponent of a numeral. -/
structure Exponent where
  mark : Char
  sign : Sign
  digits : List Char
  mark_eq : mark = 'e' ∨ mark = 'E'
  digits_ne_nil : digits ≠ []
  isDigit : ∀ c ∈ digits, c.isDigit = true

/-- **A decimal numeral**: digits, with a sign, a point and an exponent as one likes. -/
structure Numeral where
  sign : Sign
  whole : List Char
  /-- The digits after the point, if there is one. -/
  fraction : Option (List Char)
  exponent : Option Exponent
  isDigit_whole : ∀ c ∈ whole, c.isDigit = true
  isDigit_fraction : ∀ c ∈ fraction.getD [], c.isDigit = true
  digits_ne_nil : whole ++ fraction.getD [] ≠ []

namespace Exponent

/-- The exponent as it is written. -/
def chars (e : Exponent) : List Char := e.mark :: (e.sign.chars ++ e.digits)

/-- The power of ten that the exponent stands for. -/
def value (e : Exponent) : Int := e.sign.apply (natOfDigits 0 e.digits)

end Exponent

namespace Numeral

/-- What follows the whole digits. -/
def tail (n : Numeral) : List Char :=
  (n.fraction.elim [] fun digits => '.' :: digits) ++ n.exponent.elim [] Exponent.chars

/-- The numeral as it is written. -/
def chars (n : Numeral) : List Char := n.sign.chars ++ (n.whole ++ n.tail)

/-- The integer of 64 bits that a numeral without point and exponent writes. -/
def integer? (n : Numeral) : Option Int64 :=
  if n.fraction.isNone && n.exponent.isNone then
    Words.int64? (n.sign.apply (natOfDigits 0 n.whole))
  else none

/-- The double nearest to what the numeral writes. -/
def double (n : Numeral) : Double :=
  doubleOfParts n.sign.isMinus n.whole (n.fraction.getD []) (n.exponent.elim 0 Exponent.value)

end Numeral

/-! ### Numerals as they are read -/

section Runs

variable {α : Type} {p : α → Bool} {as bs : List α}

end Runs

namespace Numeral

variable (n : Numeral)

/-- After the sign comes a digit or a point. -/
theorem head_body : ∃ c rest, n.whole ++ n.tail = c :: rest ∧ (c.isDigit = true ∨ c = '.') := by
  cases hwhole : n.whole with
  | cons c rest =>
    exact ⟨c, rest ++ n.tail, rfl, .inl (n.isDigit_whole c (hwhole ▸ List.mem_cons_self))⟩
  | nil =>
    have hne := n.digits_ne_nil
    rw [hwhole, List.nil_append] at hne
    cases hfraction : n.fraction with
    | none => exact absurd (by rw [hfraction]; rfl) hne
    | some digits =>
      refine ⟨'.', digits ++ n.exponent.elim [] Exponent.chars, ?_, .inr rfl⟩
      rw [tail, hfraction]
      rfl

theorem mem_chars {c : Char} (h : c ∈ n.chars) :
    c.isDigit = true ∨ c ∈ ['+', '-', '.', 'e', 'E'] := by
  have hsign {s : Sign} (h : c ∈ s.chars) : c ∈ ['+', '-', '.', 'e', 'E'] := by
    cases s <;> simp [Sign.chars] at h <;> simp [h]
  rcases List.mem_append.1 h with h | h
  · exact .inr (hsign h)
  rcases List.mem_append.1 h with h | h
  · exact .inl (n.isDigit_whole c h)
  rcases List.mem_append.1 h with h | h
  · cases hfraction : n.fraction with
    | none => simp [hfraction] at h
    | some digits =>
      rw [hfraction] at h
      rcases List.mem_cons.1 h with rfl | h
      · exact .inr (by simp)
      · exact .inl (n.isDigit_fraction c (by rwa [hfraction]))
  · cases hexponent : n.exponent with
    | none => simp [hexponent] at h
    | some e =>
      rw [hexponent] at h
      rcases List.mem_cons.1 h with rfl | h
      · rcases e.mark_eq with he | he <;> exact .inr (by simp [he])
      rcases List.mem_append.1 h with h | h
      · exact .inr (hsign h)
      · exact .inl (e.isDigit c h)

end Numeral

/-! ### Letters and digits -/

/-- The letters and the digits are three ranges of characters. -/
theorem isAlphanum_iff {c : Char} : c.isAlphanum = true ↔
    (65 ≤ c.toNat ∧ c.toNat ≤ 90 ∨ 97 ≤ c.toNat ∧ c.toNat ≤ 122) ∨
      48 ≤ c.toNat ∧ c.toNat ≤ 57 := by
  have hrange (lo hi : UInt32) : (decide (c.val ≥ lo) && decide (c.val ≤ hi)) = true ↔
      lo.toNat ≤ c.toNat ∧ c.toNat ≤ hi.toNat := by
    rw [Bool.and_eq_true_iff, decide_eq_true_iff, decide_eq_true_iff]
    rfl
  have hupper : c.isUpper = true ↔ 65 ≤ c.toNat ∧ c.toNat ≤ 90 := decide_eq_true_iff
  have hlower : c.isLower = true ↔ 97 ≤ c.toNat ∧ c.toNat ≤ 122 := hrange 97 122
  have hletter : c.isAlpha = true ↔ c.isUpper = true ∨ c.isLower = true := Bool.or_eq_true_iff
  rw [← hupper, ← hlower, ← hletter]
  exact Bool.or_eq_true_iff.trans (or_congr_right (hrange 48 57))

end Text

/-! ### Identifiers -/

/-- **An identifier** has letters, digits and underscores only. -/
theorem mem_of_isIdentifier {name : String} (h : isIdentifier name = true) {c : Char}
    (hc : c ∈ name.toList) : c.isAlphanum = true ∨ c = '_' := by
  unfold isIdentifier at h
  split at h
  · rename_i hnil
    rw [hnil] at hc
    exact absurd hc List.not_mem_nil
  · rename_i first rest hname
    obtain ⟨hfirst, hrest⟩ := Bool.and_eq_true_iff.1 h
    rw [hname] at hc
    rcases List.mem_cons.1 hc with rfl | hc
    · exact .inl (by rw [Char.isAlphanum, hfirst, Bool.true_or])
    · simpa using List.all_eq_true.1 hrest _ hc

theorem not_mem_of_isIdentifier {name : String} (hname : isIdentifier name = true) :
    '.' ∉ name.toList := fun hdot => by
  rcases mem_of_isIdentifier hname hdot with h | h <;> exact absurd h (by decide)

/-- An identifier begins with a letter. -/
theorem head_of_isIdentifier {name : String} (h : isIdentifier name = true) :
    ∃ c rest, name.toList = c :: rest ∧ c.isAlpha = true := by
  unfold isIdentifier at h
  split at h
  · exact absurd h (by simp)
  · rename_i first rest hname
    exact ⟨first, rest, hname, (Bool.and_eq_true_iff.1 h).1⟩

/-- A field that may be declared is not internal. -/
theorem isInternalField_of_isIdentifier {name : String} (h : isIdentifier name = true) :
    isInternalField name = false := by
  obtain ⟨c, rest, hname, hc⟩ := head_of_isIdentifier h
  rw [isInternalField, hname, List.head?_cons, decide_eq_false_iff_not]
  exact fun he => absurd (Option.some.inj he ▸ hc) (by decide)

end ObjectEngine
