/-
# `Proofs.Config.Value` — which values can be read

A number is one or more decimal digits, after a plus sign or without (`Text.Numeral`), and it has
to fit a word of 32 bits.  A log format is its name, each letter in either case
(`LogFormat.Spells`).  Any other value is refused for a reason:

    tooLarge            the digits at the front denote 2³² or more
    invalidDigit        they denote less, and something follows them
    unknownLogFormat    with the value, its letters in lower case

A sign that stands alone is no sign but a character that is no digit (`Text.unsigned`).
-/
import Mathlib.Data.List.Forall2
import PartnerRelations.Config
import PartnerRelations.Proofs.Names
import PartnerRelations.Proofs.Text.Blank

namespace PartnerRelations

namespace Text

/-! ## Numerals -/

/-- The text writes a number: one or more decimal digits, after a plus sign or without. -/
def Numeral (s : String) (n : Nat) : Prop :=
  ∃ ds : List Nat, ds ≠ [] ∧ (∀ d ∈ ds, d < 10) ∧ ofDigits 10 ds = n ∧
    (s.toList = ds.map digit ∨ s.toList = '+' :: ds.map digit)

/-- The characters after a plus sign that something follows, or all characters. -/
def unsigned : List Char → List Char
  | '+' :: c :: cs => c :: cs
  | cs => cs

/-- The characters are digits up to `rest`, which does not begin with a digit. -/
structure Run (cs : List Char) (ds : List Nat) (rest : List Char) : Prop where
  eq : cs = ds.map digit ++ rest
  lt : ∀ d ∈ ds, d < 10
  stops : ∀ c ∈ rest.head?, decimalValue? c = none

/-- Why a text does not write a number that fits a word. -/
inductive NumeralFault (s : String) : ValueError → Prop
  | tooLarge {ds rest} : Run (unsigned s.toList) ds rest → UInt32.size ≤ ofDigits 10 ds →
      NumeralFault s .tooLarge
  | invalidDigit {ds c rest} : Run (unsigned s.toList) ds (c :: rest) →
      ofDigits 10 ds < UInt32.size → NumeralFault s .invalidDigit

variable {s : String} {cs rest : List Char} {ds : List Nat} {n : Nat}

theorem exists_run (cs : List Char) : ∃ ds rest, Run cs ds rest := by
  induction cs with
  | nil => exact ⟨[], [], rfl, by simp, by simp⟩
  | cons c cs ih =>
    cases hc : decimalValue? c with
    | none => exact ⟨[], c :: cs, rfl, by simp, by simpa using hc⟩
    | some d =>
      obtain ⟨ds, rest, hrun⟩ := ih
      obtain ⟨hd, rfl⟩ := eq_digit_of_decimalValue? hc
      exact ⟨d :: ds, rest, congrArg _ hrun.eq, List.forall_mem_cons.2 ⟨hd, hrun.lt⟩, hrun.stops⟩

/-- A numeral is digits to the end, once its sign is off. -/
theorem numeral_iff : Numeral s n ↔ ∃ ds, ds ≠ [] ∧ Run (unsigned s.toList) ds [] ∧
    ofDigits 10 ds = n := by
  constructor
  · rintro ⟨ds, hne, hds, hn, hs⟩
    refine ⟨ds, hne, ⟨?_, hds, by simp⟩, hn⟩
    obtain ⟨d, ds, rfl⟩ := List.exists_cons_of_ne_nil hne
    have hd : digit d ≠ '+' := (digit_ne_sign (hds d List.mem_cons_self)).2
    rw [List.append_nil]
    rcases hs with hs | hs
    · rw [hs, List.map_cons, unsigned]
      intro c cs heq
      exact hd (List.cons.inj heq).1
    · rw [hs, List.map_cons, unsigned]
  · rintro ⟨ds, hne, hrun, hn⟩
    refine ⟨ds, hne, hrun.lt, hn, ?_⟩
    have heq := hrun.eq
    rw [List.append_nil] at heq
    unfold unsigned at heq
    split at heq
    · next hs => exact .inr (hs.trans (congrArg _ heq))
    · exact .inl heq

/-- The number that `n` becomes when digits are written after it. -/
def extended (n : Nat) (ds : List Nat) : Nat :=
  ds.foldl (fun n d => 10 * n + d) n

theorem le_extended (n : Nat) (ds : List Nat) : n ≤ extended n ds := by
  induction ds generalizing n with
  | nil => exact Nat.le_refl n
  | cons d ds ih => exact Nat.le_trans (by omega) (ih (10 * n + d))

end Text

open Text

/-- Digits are read as long as the number fits, and nothing may follow them. -/
theorem readDigits_run {cs rest : List Char} {ds : List Nat} {n : Nat} (h : Run cs ds rest)
    (hn : n < UInt32.size) : readDigits n cs =
      if UInt32.size ≤ extended n ds then .error .tooLarge
      else if rest = [] then .ok (.ofNat (extended n ds))
      else .error .invalidDigit := by
  obtain ⟨rfl, hds, hstops⟩ := h
  induction ds generalizing n with
  | nil =>
    rw [List.map_nil, List.nil_append, extended, List.foldl_nil, if_neg (Nat.not_le.2 hn)]
    cases rest with
    | nil => rfl
    | cons c rest => simp only [readDigits, hstops c rfl, reduceCtorEq, if_false]
  | cons d ds ih =>
    obtain ⟨hd, hds⟩ := List.forall_mem_cons.1 hds
    simp only [List.map_cons, List.cons_append, readDigits, decimalValue?_digit hd]
    split
    · next hfits => exact ih hfits hds
    · next hlarge =>
      -- The number only grows, whatever digits are left.
      have hgrown : UInt32.size ≤ extended n (d :: ds) :=
        Nat.le_trans (Nat.not_lt.1 hlarge) (le_extended (10 * n + d) ds)
      rw [if_pos hgrown]

theorem readWord_eq_readDigits {s : String} (h : s ≠ "") :
    readWord s = readDigits 0 (unsigned s.toList) := by
  unfold readWord
  split
  · next hs => exact absurd (String.toList_eq_nil_iff.1 hs) h
  · next hs => rw [hs]; rfl
  · next rest hne hs =>
    rw [hs]
    cases rest with
    | nil => exact absurd rfl hne
    | cons c cs => rfl
  · next hne hplus =>
    rw [unsigned]
    exact fun c cs hs => hplus _ hs

section Word

variable {s : String} {w : UInt32} {e : ValueError}

/-- What reading a number comes to, by the digits that the value begins with. -/
theorem readWord_run {ds : List Nat} {rest : List Char} (h : s ≠ "")
    (hrun : Run (unsigned s.toList) ds rest) : readWord s =
      if UInt32.size ≤ ofDigits 10 ds then .error .tooLarge
      else if rest = [] then .ok (.ofNat (ofDigits 10 ds))
      else .error .invalidDigit := by
  rw [readWord_eq_readDigits h, readDigits_run hrun (by decide)]
  rfl

theorem unsigned_ne_nil (h : s ≠ "") : unsigned s.toList ≠ [] := by
  unfold unsigned
  split
  · exact List.cons_ne_nil _ _
  · exact fun hs => h (String.toList_eq_nil_iff.1 hs)

theorem readWord_eq_ok (h : s ≠ "") : readWord s = .ok w ↔ Numeral s w.toNat := by
  rw [numeral_iff]
  constructor
  · intro hread
    obtain ⟨ds, rest, hrun⟩ := exists_run (unsigned s.toList)
    rw [readWord_run h hrun] at hread
    split at hread
    · cases hread
    · next hfits =>
      split at hread
      · next hrest =>
        subst hrest
        cases hread
        refine ⟨ds, ?_, hrun, (UInt32.toNat_ofNat_of_lt' (Nat.not_le.1 hfits)).symm⟩
        rintro rfl
        exact unsigned_ne_nil h hrun.eq
      · cases hread
  · rintro ⟨ds, -, hrun, hvalue⟩
    have hfits : ¬ UInt32.size ≤ ofDigits 10 ds := Nat.not_le.2 (hvalue ▸ w.toNat_lt_size)
    rw [readWord_run h hrun, if_neg hfits, if_pos rfl, hvalue, UInt32.ofNat_toNat]

theorem readWord_eq_error (h : s ≠ "") : readWord s = .error e ↔ NumeralFault s e := by
  constructor
  · intro hread
    obtain ⟨ds, rest, hrun⟩ := exists_run (unsigned s.toList)
    rw [readWord_run h hrun] at hread
    split at hread
    · next hlarge =>
      cases hread
      exact .tooLarge hrun hlarge
    · next hfits =>
      cases rest with
      | nil => cases hread
      | cons c rest =>
        cases hread
        exact .invalidDigit hrun (Nat.not_le.1 hfits)
  · rintro (⟨hrun, hlarge⟩ | ⟨hrun, hfits⟩)
    · rw [readWord_run h hrun, if_pos hlarge]
    · rw [readWord_run h hrun, if_neg (Nat.not_le.2 hfits), if_neg (List.cons_ne_nil _ _)]

end Word

/-! ## Log formats -/

namespace Text

/-- The text with its ASCII letters in lower case. -/
def lower (s : String) : String :=
  String.ofList (s.toList.map Char.toLower)

theorem toLower_eq_iff {c letter : Char} (h : letter.isLower = true) :
    c.toLower = letter ↔ c = letter ∨ c = letter.toUpper := by
  have raised : ∀ n < 26, (Char.ofNat (65 + n)).toLower.toUpper = Char.ofNat (65 + n) := by decide
  have lowered : ∀ n < 26, (Char.ofNat (97 + n)).toLower = Char.ofNat (97 + n) ∧
      (Char.ofNat (97 + n)).toUpper.toLower = Char.ofNat (97 + n) := by decide
  constructor
  · rintro rfl
    by_cases hupper : c.val ≥ 'A'.val ∧ c.val ≤ 'Z'.val
    · obtain ⟨n, hn, rfl⟩ := exists_ofNat_of_range 65 26 hupper.1 (Nat.lt_succ_of_le hupper.2)
      exact .inr (raised n hn).symm
    · have hkept : c.toLower = c := dif_neg hupper
      exact .inl hkept.symm
  · obtain ⟨hfirst, hlast⟩ := Bool.and_eq_true_iff.1 h
    obtain ⟨n, hn, rfl⟩ := exists_ofNat_of_range 97 26 (of_decide_eq_true hfirst)
      (Nat.lt_succ_of_le (of_decide_eq_true hlast))
    rintro (rfl | rfl)
    · exact (lowered n hn).1
    · exact (lowered n hn).2

theorem map_toLower_eq_iff {cs letters : List Char} (h : ∀ l ∈ letters, l.isLower = true) :
    cs.map Char.toLower = letters ↔
      List.Forall₂ (fun c letter => c = letter ∨ c = letter.toUpper) cs letters := by
  induction letters generalizing cs with
  | nil => rw [List.map_eq_nil_iff, List.forall₂_nil_right_iff]
  | cons letter letters ih =>
    obtain ⟨hletter, hletters⟩ := List.forall_mem_cons.1 h
    cases cs with
    | nil => simp
    | cons c cs =>
      rw [List.map_cons, List.cons.injEq, List.forall₂_cons, toLower_eq_iff hletter, ih hletters]

end Text

namespace LogFormat

variable {format : LogFormat} {s : String}

/-- The text is the name of the format, each of its letters in either case. -/
def Spells (format : LogFormat) (s : String) : Prop :=
  List.Forall₂ (fun c letter => c = letter ∨ c = letter.toUpper) s.toList format.name.toList

theorem spells_iff : format.Spells s ↔ lower s = format.name := by
  have hlower : ∀ l ∈ format.name.toList, l.isLower = true := by
    have all : format.name.toList.all Char.isLower = true := by cases format <;> decide
    exact List.all_eq_true.1 all
  rw [Spells, ← map_toLower_eq_iff hlower, lower, ← String.toList_inj, String.toList_ofList]

theorem normalize_eq (h : trim s = s) : normalize s = lower s := by
  have hchars : trimChars s.toList = s.toList := by
    rw [← String.toList_ofList (l := trimChars s.toList), ← trim, h]
  rw [normalize, hchars, lower]

theorem ofName?_lower : Enumeration.ofName? (lower s) = some format ↔ format.Spells s := by
  rw [Enumeration.ofName?_eq_some, spells_iff]
  rfl

end LogFormat

theorem readLogFormat_eq_ok {s : String} {format : LogFormat} (h : trim s = s) :
    readLogFormat s = .ok format ↔ format.Spells s := by
  rw [← LogFormat.ofName?_lower, readLogFormat, LogFormat.parse, LogFormat.normalize_eq h]
  cases (Enumeration.ofName? (lower s) : Option LogFormat) <;> simp [Except.mapError]

theorem readLogFormat_eq_error {s : String} {e : ValueError} (h : trim s = s) :
    readLogFormat s = .error e ↔
      (¬ ∃ format : LogFormat, format.Spells s) ∧ e = .unknownLogFormat (lower s) := by
  simp only [← LogFormat.ofName?_lower]
  rw [readLogFormat, LogFormat.parse, LogFormat.normalize_eq h]
  cases (Enumeration.ofName? (lower s) : Option LogFormat) <;> simp [Except.mapError, eq_comm]

end PartnerRelations
