/-
# `Text.Digits` — numbers as runs of digits

Writing: `fixed base width n` is `n` in exactly `width` digits, the leading
ones dropped when there are more.  Reading: `span` cuts a bounded run of
decimal digits off the front of a text and `value` is the number it denotes.
Only ASCII digits count as digits.
-/

namespace PartnerRelations.Text

/-- The digit for `n`, in lower case from ten on. -/
def digit (n : Nat) : Char :=
  "0123456789abcdef".toList.getD n '0'

/-- The last `width` digits of `n` in the given base. -/
def fixed (base : Nat) : Nat → Nat → List Char
  | 0, _ => []
  | width + 1, n => fixed base width (n / base) ++ [digit (n % base)]

/-- The number in decimal with at least `width` digits. -/
def padded (width n : Nat) : List Char :=
  let digits := (toString n).toList
  List.replicate (width - digits.length) '0' ++ digits

/-- The value of an ASCII decimal digit. -/
def decimalValue? (c : Char) : Option Nat :=
  if '0' ≤ c ∧ c ≤ '9' then some (c.toNat - '0'.toNat) else none

/-- The value of an ASCII hexadecimal digit in either case. -/
def hexValue? (c : Char) : Option Nat :=
  if '0' ≤ c ∧ c ≤ '9' then some (c.toNat - '0'.toNat)
  else if 'a' ≤ c ∧ c ≤ 'f' then some (c.toNat - 'a'.toNat + 10)
  else if 'A' ≤ c ∧ c ≤ 'F' then some (c.toNat - 'A'.toNat + 10)
  else none

/-- The number that a list of digits denotes, the most significant first. -/
def ofDigits (base : Nat) (digits : List Nat) : Nat :=
  digits.foldl (fun n d => base * n + d) 0

/-- The values of at most `width` leading decimal digits, and what follows them. -/
def span : Nat → List Char → List Nat × List Char
  | 0, cs => ([], cs)
  | _ + 1, [] => ([], [])
  | width + 1, c :: cs =>
    match decimalValue? c with
    | some d => let (ds, rest) := span width cs; (d :: ds, rest)
    | none => ([], c :: cs)

/-- A number of one to `width` decimal digits at the front, and what follows it. -/
def number? (width : Nat) (cs : List Char) : Option (Nat × List Char) :=
  match span width cs with
  | ([], _) => none
  | (ds, rest) => some (ofDigits 10 ds, rest)

/-- The number that a nonempty text of hexadecimal digits denotes. -/
def ofHex? (cs : List Char) : Option Nat :=
  (cs.mapM hexValue?).map (ofDigits 16)

/-- A character in a range of code points is found by its place in the range. -/
theorem exists_ofNat_of_range {c : Char} (first count : Nat) (hfirst : first ≤ c.toNat)
    (hlast : c.toNat < first + count) : ∃ n < count, c = Char.ofNat (first + n) := by
  refine ⟨c.toNat - first, by omega, ?_⟩
  rw [Nat.add_sub_cancel' hfirst, Char.ofNat_toNat]

theorem decimalValue?_digit {d : Nat} (h : d < 10) : decimalValue? (digit d) = some d := by
  have all : ∀ d < 10, decimalValue? (digit d) = some d := by decide
  exact all d h

/-- Only the digit for a number has that number as its value. -/
theorem eq_digit_of_decimalValue? {c : Char} {d : Nat} (h : decimalValue? c = some d) :
    d < 10 ∧ c = digit d := by
  unfold decimalValue? at h
  split at h
  · next hc =>
    obtain ⟨n, hn, rfl⟩ := exists_ofNat_of_range 48 10 hc.1 (Nat.lt_succ_of_le hc.2)
    have all : ∀ n < 10, (Char.ofNat (48 + n)).toNat - '0'.toNat = n ∧
        Char.ofNat (48 + n) = digit n := by decide
    rw [(all n hn).1] at h
    cases h
    exact ⟨hn, (all d hn).2⟩
  · cases h

theorem digit_ne_sign {d : Nat} (h : d < 10) : digit d ≠ '-' ∧ digit d ≠ '+' := by
  have all : ∀ d < 10, digit d ≠ '-' ∧ digit d ≠ '+' := by decide
  exact all d h

/-- No digit is a blank character. -/
theorem isSolid_digit (n : Nat) : digit n ∈ "0123456789abcdef".toList := by
  unfold digit
  rw [List.getD_eq_getElem?_getD]
  cases h : "0123456789abcdef".toList[n]? with
  | none => decide
  | some c => exact List.mem_of_getElem? h

theorem mem_fixed {base width n : Nat} {c : Char} (h : c ∈ fixed base width n) :
    c ∈ "0123456789abcdef".toList := by
  induction width generalizing n with
  | zero => simp [fixed] at h
  | succ width ih =>
    rw [fixed, List.mem_append] at h
    rcases h with h | h
    · exact ih h
    · rw [List.mem_singleton.1 h]; exact isSolid_digit _

theorem length_fixed (base width n : Nat) : (fixed base width n).length = width := by
  induction width generalizing n with
  | zero => rfl
  | succ width ih => simp [fixed, ih]

end PartnerRelations.Text
