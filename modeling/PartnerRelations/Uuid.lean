/-
# `Uuid` — 128-bit identifiers and their text

A `Uuid` is a number below `2 ^ 128`, ordered as a number.  It is written as
32 lower-case hexadecimal digits in groups of 8, 4, 4, 4 and 12 with a hyphen
between groups.  `ofText?` reads that form in either case, and also the digits
without hyphens, the grouped form in curly brackets, and the grouped form after
`urn:uuid:` in any case; nothing else is read, and no blank character is skipped.
-/
import PartnerRelations.Text.Blank
import PartnerRelations.Text.Digits

namespace PartnerRelations

/-- The number of identifiers, `2 ^ 128`. -/
def uuidCount : Nat := 0x100000000000000000000000000000000

/-- A 128-bit identifier. -/
structure Uuid where
  val : Nat
  val_lt : val < uuidCount
deriving DecidableEq, Repr

namespace Uuid

/-- The identifier with the low 128 bits of `n`. -/
def ofNat (n : Nat) : Uuid :=
  ⟨n % uuidCount, Nat.mod_lt _ (by decide)⟩

instance : Inhabited Uuid := ⟨ofNat 0⟩

/-! ## Writing -/

/-- The sizes of the groups of digits. -/
def groupSizes : List Nat := [8, 4, 4, 4, 12]

/-- Cut the digits into groups and put a hyphen before every group but the first. -/
def hyphenate : List Nat → List Char → List Char
  | [], _ => []
  | [n], cs => cs.take n
  | n :: m :: ns, cs => cs.take n ++ '-' :: hyphenate (m :: ns) (cs.drop n)

/-- The canonical text of an identifier, as a list of characters. -/
def chars (u : Uuid) : List Char :=
  hyphenate groupSizes (Text.fixed 16 32 u.val)

/-- The canonical text of an identifier. -/
def text (u : Uuid) : String :=
  String.ofList u.chars

/-! ## Reading -/

/-- Join groups of the given sizes; a hyphen must stand between any two and
nothing may follow the last. -/
def unhyphenate? : List Nat → List Char → Option (List Char)
  | [], cs => if cs.isEmpty then some [] else none
  | [n], cs => if cs.length = n then some cs else none
  | n :: m :: ns, cs =>
    match cs.drop n with
    | '-' :: rest => (unhyphenate? (m :: ns) rest).map (cs.take n ++ ·)
    | _ => none

/-- The identifier that exactly 32 hexadecimal digits denote. -/
def ofDigits? (cs : List Char) : Option Uuid :=
  if cs.length = 32 then (Text.ofHex? cs).map ofNat else none

/-- The identifier in the grouped form. -/
def ofGrouped? (cs : List Char) : Option Uuid :=
  (unhyphenate? groupSizes cs).bind ofDigits?

/-- What stands between curly brackets. -/
def unbrace? (cs : List Char) : Option (List Char) :=
  match cs with
  | '{' :: rest => if rest.getLast? = some '}' then some rest.dropLast else none
  | _ => none

/-- What follows the given lower-case characters at the front; ASCII letters may
stand there in either case. -/
def afterLabel? : List Char → List Char → Option (List Char)
  | [], cs => some cs
  | p :: ps, c :: cs => if p = c.toLower then afterLabel? ps cs else none
  | _ :: _, [] => none

/-- Read an identifier in any of its four forms. -/
def ofText? (s : String) : Option Uuid :=
  let cs := s.toList
  ofDigits? cs
    <|> ofGrouped? cs
    <|> (unbrace? cs).bind ofGrouped?
    <|> (afterLabel? "urn:uuid:".toList cs).bind ofGrouped?

/-! ## The text has no blank characters -/

theorem mem_hyphenate {sizes : List Nat} {cs : List Char} {c : Char} (h : c ∈ hyphenate sizes cs) :
    c = '-' ∨ c ∈ cs := by
  fun_induction hyphenate sizes cs with
  | case1 => simp at h
  | case2 cs n => exact .inr (List.mem_of_mem_take h)
  | case3 cs n m ns ih =>
    rcases List.mem_append.1 h with h | h
    · exact .inr (List.mem_of_mem_take h)
    · rcases List.mem_cons.1 h with h | h
      · exact .inl h
      · exact (ih h).imp_right List.mem_of_mem_drop

theorem isBlank_chars (u : Uuid) : ∀ c ∈ u.text.toList, Text.isBlank c = false := by
  intro c hc
  rw [text, String.toList_ofList] at hc
  have digits : ('-' :: "0123456789abcdef".toList).all (!Text.isBlank ·) = true := by decide
  have solid := List.all_eq_true.1 digits c
    (List.mem_cons.2 ((mem_hyphenate hc).imp_right Text.mem_fixed))
  simpa using solid

theorem text_ne_empty (u : Uuid) : u.text ≠ "" := by
  intro h
  have : u.chars = [] := by
    rw [← String.toList_ofList (l := u.chars), ← text, h]; rfl
  simp [chars, hyphenate, groupSizes] at this

end Uuid

/-- Identifier of a relation. -/
structure RelationId where
  uuid : Uuid
deriving DecidableEq, Repr

/-- Identifier of a business partner's record in the sharing ledger. -/
structure SharingStateId where
  uuid : Uuid
deriving DecidableEq, Repr

/-- The text of a relation's identifier. -/
def RelationId.text (id : RelationId) : String := id.uuid.text

/-- The text of a ledger record's identifier. -/
def SharingStateId.text (id : SharingStateId) : String := id.uuid.text

end PartnerRelations
