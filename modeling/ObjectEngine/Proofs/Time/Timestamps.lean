import Mathlib.Data.List.TakeWhile
import Mathlib.Tactic.IntervalCases
import ObjectEngine.Time.Instant
import ObjectEngine.Time.Iso

/-!
# Timestamps are read back

An instant of a clock (`Instant.Valid`) whose year has four digits is read back from its timestamp
in whole milliseconds (`Instant.parse?_iso`). The timestamp of another year begins with a sign and
is not read (`Instant.parse?_iso_eq_none`). What any timestamp names is an instant of a clock, be it
at an offset or in a leap second (`Instant.valid_of_parse?`).

Reading goes from number to number: a number of a fixed width is read back from its digits
(`Instant.digits?_padded`), and the date of a day is one that the calendar has
(`Instant.civil_valid`), from which the day is found again (`Instant.daysOfCivil_civil`). Both are
seen from the place of the day in its era: an era has 146097 days and 400 years that begin in March,
so that the day that a leap year has more is the last of its year.
-/

namespace ObjectEngine

section

namespace Instant

/-! ### The years of an era -/

/-- The days of an era before one of its years. -/
def startOfYear (year : Nat) : Nat := year * 365 + year / 4 - year / 100

/-- The year of an era that a day of the era is in. -/
def yearOfEra (day : Nat) : Nat :=
  (day - day / 1460 + day / 36524 - day / 146096) / 365

/-- **A day of an era** is in one of its 400 years, and it is the 366th day of the year only if
the year ends in the February of a leap year. -/
theorem yearOfEra_spec {day : Nat} (h : day < 146097) :
    yearOfEra day < 400 ∧ startOfYear (yearOfEra day) ≤ day ∧
      day - startOfYear (yearOfEra day) ≤ 365 ∧
      (day - startOfYear (yearOfEra day) = 365 → (yearOfEra day + 1) % 4 = 0 ∧
        ((yearOfEra day + 1) % 100 ≠ 0 ∨ yearOfEra day = 399)) := by
  obtain ⟨year, hyear⟩ : ∃ year, yearOfEra day = year := ⟨_, rfl⟩
  rw [hyear]
  unfold yearOfEra at hyear
  unfold startOfYear
  -- the last day of the era is the only one in its fifth century
  by_cases hlast : day = 146096
  · subst hlast
    omega
  obtain ⟨leaps, hleaps⟩ : ∃ leaps, day / 1460 = leaps := ⟨_, rfl⟩
  obtain ⟨century, hcentury⟩ : ∃ century, day / 36524 = century := ⟨_, rfl⟩
  rw [hleaps, hcentury, show day / 146096 = 0 by omega] at hyear
  have hfirst : 365 * year + leaps ≤ day + century := by omega
  have hend : day + century < 365 * year + leaps + 365 := by omega
  clear hyear
  -- leap days and centuries before the year, told from those before the day
  have hcenturies : year / 100 = century := by omega
  have hbefore : year / 4 ≤ leaps := by omega
  have hafter : leaps ≤ (year + 1) / 4 := by omega
  refine ⟨by omega, by omega, by omega, fun heq => ⟨by omega, ?_⟩⟩
  by_contra hcommon
  omega

/-! ### The date of a day -/

/-- Every day is in an era. -/
theorem exists_era (day : Int) :
    ∃ (era : Int) (place : Nat), place < 146097 ∧ day = era * 146097 + place - 719468 :=
  ⟨(day + 719468) / 146097, ((day + 719468) % 146097).toNat, by omega, by omega⟩

/-- The days of a year before one of its months, the months counted from March. -/
def startOfMonth (month : Nat) : Nat := (153 * month + 2) / 5

/-- **The date of a day**, from the year of its era and the month of that year that it is in:
years begin in March, and the last month has 29 days only before the end of a leap year. -/
theorem exists_civil_eq (day : Int) : ∃ (era : Int) (year month date : Nat),
    civil day = (year + era * 400 + (if month < 10 then 0 else 1),
      if month < 10 then month + 3 else month - 9, date) ∧
    day = era * 146097 + (startOfYear year + (startOfMonth month + date - 1) : Nat) - 719468 ∧
    year < 400 ∧ month < 12 ∧ 1 ≤ date ∧
    (month < 11 → startOfMonth month + date ≤ startOfMonth (month + 1)) ∧
    (month = 11 → date ≤ 29 ∧
      (date = 29 → (year + 1) % 4 = 0 ∧ ((year + 1) % 100 ≠ 0 ∨ year = 399))) := by
  obtain ⟨era, place, hplace, rfl⟩ := exists_era day
  obtain ⟨hyear, hstart, hlast, hleap⟩ := yearOfEra_spec hplace
  obtain ⟨year, hyear'⟩ : ∃ year, yearOfEra place = year := ⟨_, rfl⟩
  obtain ⟨dayOfYear, hday⟩ : ∃ n, place - startOfYear year = n := ⟨_, rfl⟩
  obtain ⟨month, hmonth⟩ : ∃ n, (5 * dayOfYear + 2) / 153 = n := ⟨_, rfl⟩
  rw [hyear'] at hyear hstart hlast hleap
  rw [hday] at hlast hleap
  have hera : (era * 146097 + place - 719468 + 719468).fdiv 146097 = era := by
    rw [Int.fdiv_eq_ediv_of_nonneg _ (by decide)]
    omega
  have hplace' : (era * 146097 + place - 719468 + 719468 - era * 146097).toNat = place := by
    omega
  have hstart' : 365 * year + year / 4 - year / 100 = startOfYear year := by
    rw [startOfYear, Nat.mul_comm]
  refine ⟨era, year, month, dayOfYear - startOfMonth month + 1, ?_, ?_, hyear, ?_⟩
  · unfold civil
    simp only [hera, hplace']
    rw [← yearOfEra, hyear', hstart', hday, hmonth]
    split
    · rw [if_neg (by omega), startOfMonth]
    · rw [if_pos (by omega), startOfMonth]
  · unfold startOfMonth
    omega
  · unfold startOfMonth
    refine ⟨by omega, by omega, by omega, fun hfebruary => ⟨by omega, fun h29 => hleap (by omega)⟩⟩

/-- **The day of a date** is found again. -/
theorem daysOfCivil_civil (day : Int) :
    daysOfCivil (civil day).1 (civil day).2.1 (civil day).2.2 = day := by
  obtain ⟨era, year, month, date, hcivil, hday, hyear, hmonth, -⟩ := exists_civil_eq day
  have hera : ((year : Int) + era * 400).fdiv 400 = era := by
    rw [Int.fdiv_eq_ediv_of_nonneg _ (by decide)]
    omega
  have hplace : ((year : Int) + era * 400 - era * 400).toNat = year := by omega
  rw [hcivil, hday, startOfYear, startOfMonth]
  unfold daysOfCivil
  dsimp only
  split
  · rw [if_neg (by omega), add_zero, hera, hplace, if_pos (by omega), Nat.add_sub_cancel]
  · rw [if_pos (by omega), add_sub_cancel_right, hera, hplace, if_neg (by omega),
      Nat.sub_add_cancel (by omega)]

/-- Whether a year is a leap year is seen from its place in the era. -/
theorem isLeapYear_of_era (era : Int) {year : Nat} (h4 : (year + 1) % 4 = 0)
    (h100 : (year + 1) % 100 ≠ 0 ∨ year = 399) : isLeapYear (year + era * 400 + 1) = true := by
  simp only [isLeapYear, Bool.and_eq_true, Bool.or_eq_true, decide_eq_true_eq]
  omega

/-- **The date of a day** is one of the calendar. -/
theorem civil_valid (day : Int) :
    1 ≤ (civil day).2.1 ∧ (civil day).2.1 ≤ 12 ∧ 1 ≤ (civil day).2.2 ∧
      (civil day).2.2 ≤ daysInMonth (civil day).1 (civil day).2.1 := by
  obtain ⟨era, year, month, date, hcivil, -, -, hmonth, hfirst, hlast, hfebruary⟩ :=
    exists_civil_eq day
  rw [hcivil]
  dsimp only
  refine ⟨by split <;> omega, by split <;> omega, hfirst, ?_⟩
  by_cases h11 : month = 11
  · subst h11
    obtain ⟨h29, hleap⟩ := hfebruary rfl
    change date ≤ if isLeapYear (year + era * 400 + 1) then 29 else 28
    split
    · exact h29
    · rename_i hcommon
      by_contra hlong
      obtain ⟨h4, h100⟩ := hleap (by omega)
      exact hcommon (isLeapYear_of_era era h4 h100)
  · have hlength : startOfMonth month + date ≤ startOfMonth (month + 1) := hlast (by omega)
    unfold startOfMonth at hlength
    unfold daysInMonth
    interval_cases month <;> simp <;> omega

end Instant

end

/-! ### Digits -/

namespace Text

theorem natOfDigits_eq (acc : Nat) (cs : List Char) :
    natOfDigits acc cs = Nat.ofDigitChars 10 cs acc := by
  rw [natOfDigits, Nat.ofDigitChars_eq_foldl]
  simp only [Nat.mul_comm]
  rfl

/-- Digits write a number below the power of ten that has one digit more. -/
theorem natOfDigits_lt {cs : List Char} (h : ∀ c ∈ cs, c.isDigit = true) (acc : Nat) :
    natOfDigits acc cs < (acc + 1) * 10 ^ cs.length := by
  induction cs generalizing acc with
  | nil => simp [natOfDigits]
  | cons c rest ih =>
    obtain ⟨hc, hrest⟩ := List.forall_mem_cons.1 h
    have hdigit : c.toNat ≤ 57 := (Char.isDigit_iff_toNat.1 hc).2
    have hstep : natOfDigits acc (c :: rest) = natOfDigits (acc * 10 + (c.toNat - 48)) rest := rfl
    calc natOfDigits acc (c :: rest)
        < (acc * 10 + (c.toNat - 48) + 1) * 10 ^ rest.length := hstep ▸ ih hrest _
      _ ≤ ((acc + 1) * 10) * 10 ^ rest.length := Nat.mul_le_mul_right _ (by omega)
      _ = (acc + 1) * 10 ^ (c :: rest).length := by
        rw [List.length_cons, Nat.pow_succ, Nat.mul_assoc, Nat.mul_comm 10]

end Text

namespace Instant

/-- A number as wide as it is asked for. -/
theorem length_padded {width n : Nat} (hwidth : 0 < width) (h : n < 10 ^ width) :
    (padded width n).length = width := by
  have hdigits : (Nat.toDigits 10 n).length ≤ width :=
    (Nat.length_toDigits_le_iff (by decide) hwidth).2 h
  rw [padded, List.length_append, List.length_replicate, Nat.sub_add_cancel hdigits]

theorem isDigit_of_mem_padded {width n : Nat} {c : Char} (h : c ∈ padded width n) :
    c.isDigit = true := by
  rcases List.mem_append.1 h with h | h
  · rw [List.eq_of_mem_replicate h]
    rfl
  · exact Nat.isDigit_of_mem_toDigits (by decide) (by decide) h

theorem natOfDigits_padded (width n : Nat) : Text.natOfDigits 0 (padded width n) = n := by
  rw [padded, Text.natOfDigits_eq, Nat.ofDigitChars_append, Nat.ofDigitChars_replicate_zero,
    Nat.mul_zero, Nat.ofDigitChars_ten_toDigits]

/-- **A number of a fixed width** is read back. -/
theorem digits?_padded {width n : Nat} (hwidth : 0 < width) (h : n < 10 ^ width)
    (cs : List Char) : digits? width (padded width n ++ cs) = some (n, cs) := by
  have hlength := length_padded hwidth h
  have hall : (padded width n).all Char.isDigit = true :=
    List.all_eq_true.2 fun c hc => isDigit_of_mem_padded hc
  rw [digits?]
  simp only [List.take_left' hlength, List.drop_left' hlength, hall, hlength, decide_true,
    Bool.and_self, if_true, natOfDigits_padded]

/-- Reading goes on after a number of a fixed width. -/
theorem bind_digits?_padded {α : Type} {width n : Nat} (hwidth : 0 < width) (h : n < 10 ^ width)
    (cs : List Char) (f : Nat × List Char → Option α) :
    (digits? width (padded width n ++ cs) >>= f) = f (n, cs) := by
  rw [digits?_padded hwidth h]
  rfl

/-- Reading goes on after a character that must stand there. -/
theorem bind_char? {α : Type} (c : Char) (cs : List Char) (f : List Char → Option α) :
    (char? c (c :: cs) >>= f) = f cs := by
  rw [char?, if_pos rfl]
  rfl

/-- **Milliseconds** are read back as nanoseconds. -/
theorem fraction?_padded {millis : Nat} (h : millis < 1000) :
    fraction? ('.' :: padded 3 millis ++ ['Z']) = some (millis * 1000000, ['Z']) := by
  have hlength : (padded 3 millis).length = 3 := length_padded (by decide) h
  have hdigits : ∀ c ∈ padded 3 millis, c.isDigit = true := fun c hc => isDigit_of_mem_padded hc
  have htake : (padded 3 millis ++ ['Z']).takeWhile Char.isDigit = padded 3 millis := by
    rw [List.takeWhile_append_of_pos hdigits]
    exact List.append_nil _
  have hdrop : (padded 3 millis ++ ['Z']).dropWhile Char.isDigit = ['Z'] := by
    rw [List.dropWhile_append_of_pos hdigits]
    rfl
  have hkept : (padded 3 millis).take 9 ++ List.replicate (9 - (padded 3 millis).length) '0' =
      padded 3 millis ++ List.replicate 6 '0' := by
    rw [hlength, List.take_of_length_le (by omega)]
  have hnonempty : (padded 3 millis).isEmpty = false := by
    rw [List.isEmpty_eq_false_iff_exists_mem]
    exact List.exists_mem_of_length_pos (by omega)
  have hvalue : Text.natOfDigits 0 (padded 3 millis ++ List.replicate 6 '0') =
      millis * 1000000 := by
    rw [Text.natOfDigits_eq, Nat.ofDigitChars_append, ← Text.natOfDigits_eq 0, natOfDigits_padded,
      Nat.ofDigitChars_replicate_zero, Nat.mul_comm]
  simp only [List.cons_append, fraction?, htake, hdrop, hnonempty, hkept, hvalue,
    Bool.false_eq_true, if_false]

/-- A fraction is less than a second. -/
theorem nanos_lt_of_fraction? {cs rest : List Char} {nanos : Nat}
    (h : fraction? cs = some (nanos, rest)) : nanos < 1000000000 := by
  unfold fraction? at h
  split at h
  · rename_i tail
    dsimp only at h
    split at h
    · exact absurd h (by simp)
    · obtain ⟨rfl, -⟩ := Prod.mk.inj (Option.some.inj h)
      refine (Text.natOfDigits_lt (fun c hc => ?_) 0).trans_eq ?_
      · rcases List.mem_append.1 hc with hc | hc
        · exact List.mem_takeWhile_imp (List.mem_of_mem_take hc)
        · rw [List.eq_of_mem_replicate hc]
          rfl
      · rw [List.length_append, List.length_take, List.length_replicate,
          show min 9 _ + (9 - _) = 9 by omega]
        rfl
  · obtain ⟨rfl, -⟩ := Prod.mk.inj (Option.some.inj h)
    decide

/-- An offset is a number of minutes. -/
theorem emod_of_offset? {cs rest : List Char} {offset : Int}
    (h : offset? cs = some (offset, rest)) : offset % 60 = 0 := by
  unfold offset? at h
  split at h
  · exact absurd h (by simp)
  split at h
  · obtain ⟨rfl, -⟩ := Prod.mk.inj (Option.some.inj h)
    rfl
  split at h
  · simp only [bind, Option.bind_eq_some_iff, Option.ite_none_right_eq_some, Option.some.injEq,
      Prod.mk.injEq] at h
    obtain ⟨⟨hours, _⟩, -, _, -, ⟨minutes, _⟩, -, -, rfl, -⟩ := h
    split <;> omega
  · exact absurd h (by simp)

/-! ### Instants of a clock -/

/-- **An instant of a clock**: a leap second is the last of a minute, and it is over after a
second. -/
def Valid (t : Instant) : Prop :=
  t.nanos < 1000000000 ∨ t.nanos < 2000000000 ∧ t.seconds % 60 = 59

instance (t : Instant) : Decidable t.Valid := inferInstanceAs (Decidable (_ ∨ _))

/-- The year that an instant is in. -/
def year (t : Instant) : Int := (civil (t.seconds.fdiv 86400)).1

/-- **An instant that has a timestamp**: its year has four digits. -/
def Dated (t : Instant) : Prop := 0 ≤ t.year ∧ t.year ≤ 9999

instance (t : Instant) : Decidable t.Dated := inferInstanceAs (Decidable (_ ∧ _))

/-- The instant in whole milliseconds. -/
def truncated (t : Instant) : Instant := ⟨t.seconds, t.nanos / 1000000 * 1000000⟩

/-- What is not a whole millisecond is not written. -/
theorem iso_truncated (t : Instant) : t.truncated.iso = t.iso := by
  obtain ⟨seconds, nanos⟩ := t
  have hleap : 1000000000 ≤ nanos / 1000000 * 1000000 ↔ 1000000000 ≤ nanos := by omega
  unfold truncated iso
  simp only [hleap]
  by_cases h : 1000000000 ≤ nanos
  · have hmillis : (nanos / 1000000 * 1000000 - 1000000000) / 1000000 =
        (nanos - 1000000000) / 1000000 := by omega
    simp only [h, if_true, hmillis]
  · simp only [h, if_false, Nat.mul_div_left _ (show 0 < 1000000 by decide)]

/-- **A timestamp** is read as the instant of its parts. -/
theorem parse?_timestamp {year month day hour minute second millis : Nat} (hyear : year < 10000)
    (hmonth : 1 ≤ month ∧ month ≤ 12) (hday : 1 ≤ day ∧ day ≤ daysInMonth year month)
    (hhour : hour < 24) (hminute : minute < 60) (hsecond : second ≤ 60) (hmillis : millis < 1000) :
    parse? (String.ofList (padded 4 year ++ '-' :: padded 2 month ++ '-' :: padded 2 day ++
        'T' :: padded 2 hour ++ ':' :: padded 2 minute ++ ':' :: padded 2 second ++
        '.' :: padded 3 millis ++ ['Z'])) =
      some ⟨daysOfCivil year month day * 86400 +
          (hour * 3600 + minute * 60 + (if second = 60 then 59 else second) : Nat),
        if second = 60 then millis * 1000000 + 1000000000 else millis * 1000000⟩ := by
  have hdate : day < 10 ^ 2 := by
    have : daysInMonth year month ≤ 31 := by
      unfold daysInMonth
      split
      · split <;> omega
      · split <;> omega
    omega
  have hclock := fraction?_padded hmillis
  -- from part to part: the number that stands there, and the character after it
  unfold parse?
  simp only [List.append_assoc, List.cons_append] at hclock ⊢
  rw [String.toList_ofList, bind_digits?_padded (by decide) hyear]
  dsimp only
  rw [bind_char?, bind_digits?_padded (n := month) (by decide) (by omega)]
  dsimp only
  rw [bind_char?, bind_digits?_padded (by decide) hdate]
  dsimp only
  rw [if_pos (by rfl)]
  change (digits? 2 _ >>= _) = _
  rw [bind_digits?_padded (n := hour) (by decide) (by omega)]
  dsimp only
  rw [bind_char?, bind_digits?_padded (n := minute) (by decide) (by omega)]
  dsimp only
  rw [bind_char?, bind_digits?_padded (n := second) (by decide) (by omega), hclock]
  change (if _ then none else some _) = _
  rw [if_neg, sub_zero]
  · rfl
  · simp only [List.isEmpty_nil, Bool.not_true, Bool.false_or, Bool.or_eq_true, decide_eq_true_eq]
    omega

/-- The timestamp of an instant, from the parts of its day. -/
theorem iso_eq {t : Instant} {day year : Int} {second month date : Nat}
    (hday : t.seconds.fdiv 86400 = day) (hsecond : (t.seconds - day * 86400).toNat = second)
    (hcivil : civil day = (year, month, date)) :
    t.iso = String.ofList (yearText year ++ '-' :: padded 2 month ++ '-' :: padded 2 date ++
      'T' :: padded 2 (second / 3600) ++ ':' :: padded 2 (second / 60 % 60) ++
      ':' :: padded 2 (second % 60 + (if 1000000000 ≤ t.nanos then 1 else 0)) ++
      '.' :: padded 3
        ((if 1000000000 ≤ t.nanos then t.nanos - 1000000000 else t.nanos) / 1000000) ++ ['Z']) := by
  unfold iso
  simp only [hday, hsecond, hcivil]

/-- **An instant that has a timestamp** is read back from it in whole milliseconds. -/
theorem parse?_iso {t : Instant} (hvalid : t.Valid) (hdated : t.Dated) :
    parse? t.iso = some t.truncated := by
  obtain ⟨day, hday⟩ : ∃ day, t.seconds.fdiv 86400 = day := ⟨_, rfl⟩
  obtain ⟨second, hsecond⟩ : ∃ n, (t.seconds - day * 86400).toNat = n := ⟨_, rfl⟩
  obtain ⟨⟨year, month, date⟩, hcivil⟩ : ∃ c, civil day = c := ⟨_, rfl⟩
  have hback := daysOfCivil_civil day
  have hdate := civil_valid day
  rw [hcivil] at hback hdate
  obtain ⟨hmonth, hmonth12, hfirst, hlast⟩ := hdate
  obtain ⟨hyear, hyear9999⟩ : 0 ≤ year ∧ year ≤ 9999 := by
    rw [Dated, Instant.year, hday, hcivil] at hdated
    exact hdated
  obtain ⟨n, rfl⟩ := Int.eq_ofNat_of_zero_le hyear
  rw [Int.fdiv_eq_ediv_of_nonneg _ (by decide)] at hday
  have htext : yearText n = padded 4 n := if_pos ⟨hyear, hyear9999⟩
  rw [iso_eq (by rw [Int.fdiv_eq_ediv_of_nonneg _ (by decide), hday]) hsecond hcivil, htext,
    parse?_timestamp (by omega) ⟨hmonth, hmonth12⟩ ⟨hfirst, hlast⟩ (by omega) (by omega)
      (by split <;> omega) (by unfold Valid at hvalid; split <;> omega), hback]
  rw [Option.some.injEq, truncated, Instant.mk.injEq]
  by_cases hleap : 1000000000 ≤ t.nanos
  -- a leap second is written as the sixtieth, which only the last second of a minute becomes
  · have hsixty : second % 60 + 1 = 60 := by
      rcases hvalid with hnanos | ⟨-, hminute⟩ <;> omega
    rw [if_pos hleap, if_pos hleap, if_pos hsixty, if_pos hsixty]
    exact ⟨by omega, by omega⟩
  · have hsixty : second % 60 + 0 ≠ 60 := by omega
    rw [if_neg hleap, if_neg hleap, if_neg hsixty, if_neg hsixty]
    exact ⟨by omega, rfl⟩

/-- What begins with a sign is no timestamp. -/
theorem parse?_eq_none {c : Char} {cs : List Char} (h : c.isDigit = false) :
    parse? (String.ofList (c :: cs)) = none := by
  have hdigits : digits? 4 (c :: cs) = none := by
    rw [digits?, List.take_succ_cons, List.all_cons, h, Bool.false_and, Bool.and_false]
    exact if_neg Bool.false_ne_true
  unfold parse?
  rw [String.toList_ofList, hdigits]
  rfl

/-- **An instant of another year** is not read back: its timestamp begins with a sign. -/
theorem parse?_iso_eq_none {t : Instant} (h : ¬t.Dated) : parse? t.iso = none := by
  obtain ⟨⟨year, month, date⟩, hcivil⟩ : ∃ c, civil (t.seconds.fdiv 86400) = c := ⟨_, rfl⟩
  have hyear : ¬(0 ≤ year ∧ year ≤ 9999) := by
    rwa [Dated, Instant.year, hcivil] at h
  rw [iso_eq rfl rfl hcivil, yearText, if_neg hyear]
  split
  · exact parse?_eq_none rfl
  · exact parse?_eq_none rfl

/-- **What a timestamp names** is an instant of a clock. -/
theorem valid_of_parse? {text : String} {t : Instant} (h : parse? text = some t) : t.Valid := by
  unfold parse? at h
  obtain ⟨⟨year, cs⟩, -, h⟩ := Option.bind_eq_some_iff.1 h
  obtain ⟨cs, -, h⟩ := Option.bind_eq_some_iff.1 h
  obtain ⟨⟨month, cs⟩, -, h⟩ := Option.bind_eq_some_iff.1 h
  obtain ⟨cs, -, h⟩ := Option.bind_eq_some_iff.1 h
  obtain ⟨⟨day, cs⟩, -, h⟩ := Option.bind_eq_some_iff.1 h
  dsimp only at h
  split at h
  case h_2 => exact absurd h (by simp [bind])
  split at h
  case isFalse => exact absurd h (by simp [bind])
  obtain ⟨cs, -, h⟩ := Option.bind_eq_some_iff.1 h
  obtain ⟨⟨hour, cs⟩, -, h⟩ := Option.bind_eq_some_iff.1 h
  obtain ⟨cs, -, h⟩ := Option.bind_eq_some_iff.1 h
  obtain ⟨⟨minute, cs⟩, -, h⟩ := Option.bind_eq_some_iff.1 h
  obtain ⟨cs, -, h⟩ := Option.bind_eq_some_iff.1 h
  obtain ⟨⟨second, cs⟩, -, h⟩ := Option.bind_eq_some_iff.1 h
  obtain ⟨⟨nanos, cs⟩, hnanos, h⟩ := Option.bind_eq_some_iff.1 h
  obtain ⟨⟨offset, cs⟩, hoffset, h⟩ := Option.bind_eq_some_iff.1 h
  obtain ⟨-, h⟩ := Option.ite_none_left_eq_some.1 h
  obtain rfl := Option.some.inj h
  -- minutes and offsets are whole, so a sixtieth second is still the last of its minute
  have hfraction : nanos < 1000000000 := nanos_lt_of_fraction? hnanos
  have hminutes : offset % 60 = 0 := emod_of_offset? hoffset
  dsimp only [Valid]
  split
  · exact .inr ⟨by omega, by omega⟩
  · exact .inl hfraction

end Instant

end ObjectEngine
