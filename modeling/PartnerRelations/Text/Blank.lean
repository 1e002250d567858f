/-
# `Text.Blank` — blank characters and trimming

A character is blank when it has the Unicode property White_Space: 25 code
points in ten ranges.  `trim` takes the blank characters off both ends of a
text and leaves the rest alone.  Three facts are proved here because key types
carry them as fields: trimming twice is trimming once (`trim_trim`), a text
without blank characters is its own trim (`trim_eq_self_of_solid`), and so is a
text that has the size of its trim (`trim_eq_self_of_size`).
-/

namespace PartnerRelations.Text

/-- The code points with the property White_Space, as closed ranges. -/
def blankRanges : List (Nat × Nat) :=
  [(0x9, 0xD), (0x20, 0x20), (0x85, 0x85), (0xA0, 0xA0), (0x1680, 0x1680), (0x2000, 0x200A),
   (0x2028, 0x2029), (0x202F, 0x202F), (0x205F, 0x205F), (0x3000, 0x3000)]

/-- A blank character: one of the ranges holds its code point. -/
def isBlank (c : Char) : Bool :=
  blankRanges.any fun (first, last) => decide (first ≤ c.toNat) && decide (c.toNat ≤ last)

/-- The characters from the first to the last one that is not blank. -/
def trimChars (cs : List Char) : List Char :=
  ((cs.dropWhile isBlank).reverse.dropWhile isBlank).reverse

/-- The text without the blank characters at its two ends. -/
def trim (s : String) : String :=
  String.ofList (trimChars s.toList)

/-! ## Trimming is idempotent

Both ends of a trimmed list are solid, and a list with two solid ends is left
alone. -/

theorem dropWhile_eq_self {p : Char → Bool} {cs : List Char} (h : ∀ c ∈ cs.head?, p c = false) :
    cs.dropWhile p = cs := by
  cases cs with
  | nil => rfl
  | cons c r => simp [List.dropWhile, h c (by simp)]

theorem head?_dropWhile {p : Char → Bool} (cs : List Char) :
    ∀ c ∈ (cs.dropWhile p).head?, p c = false := by
  intro c hc
  have := List.head?_dropWhile_not p cs
  rw [Option.mem_def.1 hc] at this
  simpa using this

/-- A trimmed list does not begin with a blank character. -/
theorem head?_trimChars (cs : List Char) : ∀ c ∈ (trimChars cs).head?, isBlank c = false := by
  intro c hc
  have hpre : trimChars cs <+: cs.dropWhile isBlank := by
    have := List.dropWhile_suffix isBlank (l := (cs.dropWhile isBlank).reverse)
    simpa [trimChars] using List.reverse_prefix.2 this
  obtain ⟨t, ht⟩ := hpre
  apply head?_dropWhile cs
  rw [← ht, List.head?_append]
  simp [Option.mem_def.1 hc]

/-- A trimmed list does not end with a blank character. -/
theorem head?_reverse_trimChars (cs : List Char) :
    ∀ c ∈ (trimChars cs).reverse.head?, isBlank c = false := by
  simpa [trimChars] using head?_dropWhile (p := isBlank) (cs.dropWhile isBlank).reverse

theorem trimChars_eq_self {cs : List Char} (first : ∀ c ∈ cs.head?, isBlank c = false)
    (last : ∀ c ∈ cs.reverse.head?, isBlank c = false) : trimChars cs = cs := by
  rw [trimChars, dropWhile_eq_self first, dropWhile_eq_self last, List.reverse_reverse]

theorem trim_trim (s : String) : trim (trim s) = trim s := by
  simp only [trim, String.toList_ofList]
  rw [trimChars_eq_self (head?_trimChars _) (head?_reverse_trimChars _)]

/-- What trimming takes off the two ends is blank. -/
theorem exists_around (cs : List Char) : ∃ lead trail, cs = lead ++ trimChars cs ++ trail ∧
    (∀ c ∈ lead, isBlank c = true) ∧ ∀ c ∈ trail, isBlank c = true := by
  have taken {cs : List Char} : ∀ c ∈ cs.takeWhile isBlank, isBlank c = true :=
    List.all_eq_true.1 List.all_takeWhile
  refine ⟨cs.takeWhile isBlank, ((cs.dropWhile isBlank).reverse.takeWhile isBlank).reverse,
    ?_, taken, fun c hc => taken c (List.mem_reverse.1 hc)⟩
  rw [List.append_assoc, trimChars, ← List.reverse_append, List.takeWhile_append_dropWhile,
    List.reverse_reverse, List.takeWhile_append_dropWhile]

/-- A text that is no larger than its trim had nothing to lose. -/
theorem trim_eq_self_of_size {s : String} (h : (trim s).utf8ByteSize = s.utf8ByteSize) :
    trim s = s := by
  obtain ⟨lead, trail, hs, -, -⟩ := exists_around s.toList
  have hparts : s = String.ofList lead ++ trim s ++ String.ofList trail := by
    rw [trim, ← String.ofList_append, ← String.ofList_append, ← hs, String.ofList_toList]
  have hsize : s.utf8ByteSize = (String.ofList lead).utf8ByteSize + (trim s).utf8ByteSize +
      (String.ofList trail).utf8ByteSize := by
    rw [← String.utf8ByteSize_append, ← String.utf8ByteSize_append, ← hparts]
  have hlead : String.ofList lead = "" := String.utf8ByteSize_eq_zero_iff.1 (by omega)
  have htrail : String.ofList trail = "" := String.utf8ByteSize_eq_zero_iff.1 (by omega)
  rw [hlead, htrail, String.empty_append, String.append_empty] at hparts
  exact hparts.symm

theorem trim_eq_self_of_solid {s : String} (h : ∀ c ∈ s.toList, isBlank c = false) :
    trim s = s := by
  rw [trim, trimChars_eq_self (fun c hc => h c (List.mem_of_head? hc))
    (fun c hc => h c (List.mem_reverse.1 (List.mem_of_head? hc))), String.ofList_toList]

end PartnerRelations.Text
