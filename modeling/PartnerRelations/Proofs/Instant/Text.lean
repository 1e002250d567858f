/-
# `Proofs.Instant.Text` — an instant can be read back from its text

The text of an instant is made of numbers of a fixed width with marks between them, and
each part is read as it was written:

    fixed 10 width n      `number?` finds `n`, if it has no more digits than that
    fractionChars nano    `fraction?` finds `nano`, whichever width was chosen
    :60                   the leap second that it was written for

What is read is a date of the calendar and a second of the day, and these are the parts of
the instant again (`ofText?_text`).  The year has to be one of 0 to 9999: any other is
written with a sign and in as many digits as it needs.
-/
import Mathlib.Algebra.Ring.Nat
import PartnerRelations.Instant.Printer
import PartnerRelations.Instant.Reader
import PartnerRelations.Proofs.Instant.Calendar

namespace PartnerRelations

namespace Text

/-! ## Numbers of a fixed width -/

/-- The last `width` decimal digits of a number. -/
def digits : Nat → Nat → List Nat
  | 0, _ => []
  | width + 1, n => digits width (n / 10) ++ [n % 10]

variable {width n : Nat} {rest : List Char}

theorem fixed_eq_map (width n : Nat) : fixed 10 width n = (digits width n).map digit := by
  induction width generalizing n with
  | zero => rfl
  | succ width ih => rw [fixed, digits, List.map_append, ih]; rfl

theorem length_digits (width n : Nat) : (digits width n).length = width := by
  rw [← List.length_map digit, ← fixed_eq_map, length_fixed]

theorem lt_of_mem_digits {d : Nat} (h : d ∈ digits width n) : d < 10 := by
  induction width generalizing n with
  | zero => cases h
  | succ width ih =>
    rcases List.mem_append.1 h with h | h
    · exact ih h
    · rw [List.mem_singleton.1 h]
      exact Nat.mod_lt _ (by decide)

theorem ofDigits_digits (width n : Nat) : ofDigits 10 (digits width n) = n % 10 ^ width := by
  induction width generalizing n with
  | zero => rw [Nat.pow_zero, Nat.mod_one]; rfl
  | succ width ih =>
    have hfold : ofDigits 10 (digits (width + 1) n) =
        10 * ofDigits 10 (digits width (n / 10)) + n % 10 := by
      rw [digits, ofDigits, List.foldl_append]
      rfl
    rw [hfold, ih, Nat.pow_succ', Nat.mod_mul, Nat.add_comm]

/-- Digits are cut off the front as far as they go. -/
theorem span_map_digit {ds : List Nat} (hds : ∀ d ∈ ds, d < 10) (hlength : ds.length ≤ width)
    (hrest : ds.length = width ∨ ∀ c ∈ rest.head?, decimalValue? c = none) :
    span width (ds.map digit ++ rest) = (ds, rest) := by
  induction ds generalizing width with
  | nil =>
    cases width with
    | zero => rfl
    | succ width =>
      cases rest with
      | nil => rfl
      | cons c rest =>
        have hc : decimalValue? c = none := (hrest.resolve_left (by simp)) c rfl
        simp only [List.map_nil, List.nil_append, span, hc]
  | cons d ds ih =>
    obtain ⟨hd, hds⟩ := List.forall_mem_cons.1 hds
    cases width with
    | zero => cases hlength
    | succ width =>
      have hspan := ih hds (Nat.le_of_succ_le_succ hlength) (hrest.imp_left Nat.succ.inj)
      simp only [List.map_cons, List.cons_append, span, decimalValue?_digit hd, hspan]

theorem span_fixed {bound : Nat} (hbound : width ≤ bound)
    (hrest : width = bound ∨ ∀ c ∈ rest.head?, decimalValue? c = none) :
    span bound (fixed 10 width n ++ rest) = (digits width n, rest) := by
  rw [fixed_eq_map]
  refine span_map_digit (fun _ => lt_of_mem_digits) ?_ ?_
  · rwa [length_digits]
  · rwa [length_digits]

theorem digits_ne_nil (hwidth : 0 < width) : digits width n ≠ [] := by
  intro h
  have hlength := length_digits width n
  rw [h] at hlength
  exact Nat.ne_of_lt hwidth hlength

/-- A written number is read, its width being all that is read. -/
theorem number?_fixed (hwidth : 0 < width) (hn : n < 10 ^ width) :
    number? width (fixed 10 width n ++ rest) = some (n, rest) := by
  have hne : digits width n ≠ [] := digits_ne_nil hwidth
  rw [number?, span_fixed (Nat.le_refl _) (.inl rfl)]
  split
  · next h => exact absurd (Prod.mk.inj h).1 hne
  · next h =>
    cases h
    rw [ofDigits_digits, Nat.mod_eq_of_lt hn]

/-- A text that begins with a digit. -/
def BeginsWithDigit (cs : List Char) : Prop :=
  ∃ d rest, d < 10 ∧ cs = digit d :: rest

theorem beginsWithDigit_fixed (hwidth : 0 < width) : BeginsWithDigit (fixed 10 width n ++ rest) := by
  rw [fixed_eq_map]
  cases hdigits : digits width n with
  | nil => exact absurd hdigits (digits_ne_nil hwidth)
  | cons d ds =>
    have hd : d < 10 := lt_of_mem_digits (hdigits ▸ List.mem_cons_self)
    exact ⟨d, ds.map digit ++ rest, hd, rfl⟩

theorem isBlank_digit {d : Nat} (h : d < 10) : isBlank (digit d) = false := by
  have all : ∀ d < 10, isBlank (digit d) = false := by decide
  exact all d h

end Text

/-! ## The parts of a text -/

namespace Instant.Reader

variable {n width : Nat} {rest : List Char}

theorem skip_eq_self {cs : List Char} (h : Text.BeginsWithDigit cs) : skip cs = cs := by
  obtain ⟨d, rest, hd, rfl⟩ := h
  exact Text.dropWhile_eq_self fun c hc => Option.some.inj hc ▸ Text.isBlank_digit hd

theorem field?_fixed (hn : n < 100) : field? (Text.fixed 10 2 n ++ rest) = some (n, rest) := by
  rw [field?, skip_eq_self (Text.beginsWithDigit_fixed (by decide))]
  exact Text.number?_fixed (by decide) hn

theorem year?_fixed (hn : n < 10000) :
    year? (Text.fixed 10 4 n ++ rest) = some ((n : Int), rest) := by
  have hnumber : Text.number? 4 (Text.fixed 10 4 n ++ rest) = some (n, rest) :=
    Text.number?_fixed (by decide) hn
  have hdigit : Text.BeginsWithDigit (Text.fixed 10 4 n ++ rest) :=
    Text.beginsWithDigit_fixed (by decide)
  rw [year?, skip_eq_self hdigit]
  split
  · next heq =>
    obtain ⟨d, _, hd, hcs⟩ := hdigit
    rw [hcs] at heq
    exact absurd (List.cons.inj heq).1 (Text.digit_ne_sign hd).1
  · next heq =>
    obtain ⟨d, _, hd, hcs⟩ := hdigit
    rw [hcs] at heq
    exact absurd (List.cons.inj heq).1 (Text.digit_ne_sign hd).2
  · rw [hnumber]
    rfl

theorem date?_chars {year month day : Nat} (hyear : year < 10000) (hmonth : month < 100)
    (hday : day < 100) (h : Date.isValid ⟨year, month, day⟩ = true) :
    date? (Text.fixed 10 4 year ++ '-' :: (Text.fixed 10 2 month ++ '-' ::
      (Text.fixed 10 2 day ++ rest))) = some (⟨year, month, day⟩, rest) := by
  have hmark : ∀ cs, mark? '-' (skip ('-' :: cs)) = some cs := fun _ => rfl
  simp only [date?, year?_fixed hyear, hmark, field?_fixed hmonth, field?_fixed hday,
    Option.bind_eq_bind, Option.bind_some, h, if_true]

/-- A fraction is read as it was written, with as many zeros as are missing. -/
theorem fraction?_fixed (hwidth : 0 < width) (hle : width ≤ 9) (hn : n < 10 ^ width) :
    fraction? (Text.fixed 10 width n ++ ['Z']) = some (n * 10 ^ (9 - width), ['Z']) := by
  have hne : Text.digits width n ≠ [] := Text.digits_ne_nil hwidth
  have hspan : Text.span 9 (Text.fixed 10 width n ++ ['Z']) = (Text.digits width n, ['Z']) :=
    Text.span_fixed hle (.inr fun c hc => by cases hc; rfl)
  rw [fraction?, hspan]
  split
  · next h => exact absurd (Prod.mk.inj h).1 hne
  · next h =>
    cases h
    rw [Text.ofDigits_digits, Nat.mod_eq_of_lt hn, Text.length_digits]
    rfl

/-- Either no fraction is written, or one that is read as it was meant. -/
theorem fractionChars_cases {nano : Nat} (hnano : nano < 1000000000) :
    (nano = 0 ∧ fractionChars nano = []) ∨
      ∃ cs, fractionChars nano = '.' :: cs ∧ fraction? (cs ++ ['Z']) = some (nano, ['Z']) := by
  unfold fractionChars
  split
  · next hnone => exact .inl ⟨hnone, rfl⟩
  · refine .inr ?_
    split
    · next hmillis =>
      refine ⟨_, rfl, ?_⟩
      rw [fraction?_fixed (by decide) (by decide) (by omega)]
      rw [show nano / 1000000 * 10 ^ (9 - 3) = nano by omega]
    · split
      · next hmicros =>
        refine ⟨_, rfl, ?_⟩
        rw [fraction?_fixed (by decide) (by decide) (by omega)]
        rw [show nano / 1000 * 10 ^ (9 - 6) = nano by omega]
      · refine ⟨_, rfl, ?_⟩
        rw [fraction?_fixed (by decide) (by decide) (by omega)]
        rw [show nano * 10 ^ (9 - 9) = nano by omega]

theorem time?_chars {hour minute second nano : Nat} (hhour : hour < 24) (hminute : minute < 60)
    (hsecond : second < 61) (hnano : nano < 1000000000) :
    time? (Text.fixed 10 2 hour ++ ':' :: (Text.fixed 10 2 minute ++ ':' ::
      (Text.fixed 10 2 second ++ (fractionChars nano ++ ['Z'])))) =
    some (hour * 3600 + minute * 60 + (second - second / 60),
      nano + second / 60 * 1000000000, ['Z']) := by
  have hmark : ∀ cs, mark? ':' (skip (':' :: cs)) = some cs := fun _ => rfl
  have hfields : hour < 100 ∧ minute < 100 ∧ second < 100 := by omega
  simp only [time?, hmark, field?_fixed hfields.1, field?_fixed hfields.2.1,
    field?_fixed hfields.2.2, Option.bind_eq_bind, Option.bind_some]
  have hinside : hour < 24 ∧ minute < 60 ∧ second < 61 := ⟨hhour, hminute, hsecond⟩
  rcases fractionChars_cases hnano with ⟨rfl, hchars⟩ | ⟨cs, hchars, hfraction⟩
  · rw [hchars]
    exact if_pos hinside
  · rw [hchars, List.cons_append]
    simp only [hfraction, Option.bind_some, if_pos hinside]

end Instant.Reader

namespace Instant

/-- An instant of one of the years 0 to 9999. -/
def HasPlainYear (i : Instant) : Prop :=
  0 ≤ i.year ∧ i.year ≤ 9999

instance (i : Instant) : Decidable i.HasPlainYear :=
  inferInstanceAs (Decidable (_ ∧ _))

variable {i : Instant}

/-- The parts of an instant, in UTC, are its own. -/
theorem inUtc?_self (h : i.HasPlainYear) :
    Reader.inUtc? (Date.dateOf i.day) i.second i.nano 0 = some i := by
  have hday : isDay i.day = true := isDay_of_year h.1 h.2
  have hsecond : ((i.second : Int) - 0 * 60) / 86400 = 0 ∧
      (((i.second : Int) - 0 * 60) % 86400).toNat = i.second := by
    have := i.second_lt
    omega
  simp only [Reader.inUtc?, Date.dayOf_dateOf, hsecond.1, hsecond.2, Int.add_zero, hday,
    Bool.and_self, if_true]
  exact dif_pos ⟨i.second_lt, i.nano_lt⟩

/-- A second and its nanoseconds are read as they were written, in a leap second too. -/
theorem second_eq : i.second / 3600 * 3600 + i.second / 60 % 60 * 60 +
      (i.second % 60 + i.nano / 1000000000 - (i.second % 60 + i.nano / 1000000000) / 60) =
        i.second ∧
    i.nano % 1000000000 + (i.second % 60 + i.nano / 1000000000) / 60 * 1000000000 = i.nano := by
  have := i.nano_lt
  omega

/-- The text of an instant is read as the instant. -/
theorem ofText?_text (h : i.HasPlainYear) : ofText? i.text = some i := by
  obtain ⟨year, hyear⟩ : ∃ year : Nat, (year : Int) = (Date.dateOf i.day).year :=
    ⟨_, Int.toNat_of_nonneg h.1⟩
  have hvalid := Date.isValid_dateOf i.day
  obtain ⟨hmonth, hday⟩ := Date.lt_of_isValid hvalid
  have hlt : (Date.dateOf i.day).year ≤ 9999 := h.2
  have hyearChars : yearChars (Date.dateOf i.day).year = Text.fixed 10 4 year := by
    rw [yearChars, if_neg (by omega), if_neg (by omega), ← hyear]
    rfl
  have hdateEq : (⟨year, (Date.dateOf i.day).month, (Date.dateOf i.day).day⟩ : Date) =
      Date.dateOf i.day := by rw [hyear]
  have hsecond := i.second_lt
  have hnano := i.nano_lt
  rw [ofText?, text, String.toList_ofList, chars]
  simp only [hyearChars, List.append_assoc, List.cons_append]
  rw [Reader.instant?, Reader.date?_chars (by omega) hmonth hday (hdateEq ▸ hvalid), hdateEq]
  simp only [Option.bind_eq_bind, Option.bind_some]
  rw [Reader.time?_chars (by omega) (by omega) (by omega) (by omega), second_eq.1, second_eq.2]
  exact inUtc?_self h

end Instant

end PartnerRelations
