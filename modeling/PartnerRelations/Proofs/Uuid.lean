/-
# `Proofs.Uuid` — an identifier can be read back from its text

The text of an identifier is its 32 digits with hyphens between groups.  Taking
the hyphens out gives the digits back (`unhyphenate?_hyphenate`), and the digits
denote the number they were written for (`ofHex?_fixed`), so `ofText?` inverts
`text`.  Different identifiers therefore have different texts, and different keys
made of them.
-/
import Mathlib.Algebra.Ring.Nat
import PartnerRelations.Key

namespace PartnerRelations

namespace Text

theorem hexValue?_digit {d : Nat} (h : d < 16) : hexValue? (digit d) = some d := by
  have all : ∀ d < 16, hexValue? (digit d) = some d := by decide
  exact all d h

theorem ofHex?_append_digit (cs : List Char) {d : Nat} (h : d < 16) :
    ofHex? (cs ++ [digit d]) = (ofHex? cs).map (16 * · + d) := by
  simp only [ofHex?, List.mapM_append, List.mapM_cons, List.mapM_nil, hexValue?_digit h]
  cases cs.mapM hexValue? <;> simp [ofDigits]

/-- Written digits denote the number, the digits that were dropped apart. -/
theorem ofHex?_fixed (width n : Nat) : ofHex? (fixed 16 width n) = some (n % 16 ^ width) := by
  induction width generalizing n with
  | zero => simp [fixed, ofHex?, ofDigits, Nat.mod_one]
  | succ width ih =>
    rw [fixed, ofHex?_append_digit _ (Nat.mod_lt n (by decide)), ih, Option.map_some,
      Nat.pow_succ', Nat.mod_mul, Nat.add_comm]

end Text

namespace Uuid

/-- The groups of a text can be joined again. -/
theorem unhyphenate?_hyphenate {sizes : List Nat} {cs : List Char} (hne : sizes ≠ [])
    (h : cs.length = sizes.sum) : unhyphenate? sizes (hyphenate sizes cs) = some cs := by
  fun_induction hyphenate sizes cs with
  | case1 => exact absurd rfl hne
  | case2 n cs =>
    have hn : cs.length = n := by simpa using h
    simp [unhyphenate?, ← hn]
  | case3 n m ns cs ih =>
    have hn : (cs.take n).length = n := by
      rw [List.length_take, Nat.min_eq_left]
      simp [h]
    have hrest : unhyphenate? (m :: ns) (hyphenate (m :: ns) (cs.drop n)) = some (cs.drop n) := by
      refine ih (by simp) ?_
      rw [List.length_drop, h, List.sum_cons, Nat.add_sub_cancel_left]
    rw [unhyphenate?, List.drop_left' hn]
    simp only [hrest, Option.map_some]
    rw [List.take_left' hn, List.take_append_drop]

theorem ofDigits?_fixed (u : Uuid) : ofDigits? (Text.fixed 16 32 u.val) = some u := by
  have hlt : u.val < 16 ^ 32 := u.val_lt
  rw [ofDigits?, if_pos (Text.length_fixed ..), Text.ofHex?_fixed, Option.map_some,
    Nat.mod_eq_of_lt hlt]
  exact congrArg some (by cases u with | mk val h => simp [ofNat, Nat.mod_eq_of_lt h])

/-- The text of an identifier is read as the identifier. -/
theorem ofText?_text (u : Uuid) : ofText? u.text = some u := by
  have hgrouped : ofGrouped? u.chars = some u := by
    have hlength : (Text.fixed 16 32 u.val).length = groupSizes.sum := Text.length_fixed ..
    rw [ofGrouped?, chars, unhyphenate?_hyphenate (by decide) hlength,
      Option.bind_some, ofDigits?_fixed]
  have hlength : u.chars.length ≠ 32 := by
    have := Text.length_fixed 16 32 u.val
    simp [chars, groupSizes, hyphenate, this]
  have hdigits : ofDigits? u.chars = none := if_neg hlength
  rw [ofText?, text, String.toList_ofList]
  simp only [hdigits, hgrouped]
  rfl

theorem text_injective {u v : Uuid} (h : u.text = v.text) : u = v :=
  Option.some.inj ((ofText?_text u).symm.trans ((congrArg ofText? h).trans (ofText?_text v)))

end Uuid

theorem Key.text_ofUuid (kind : KeyKind) (u : Uuid) : (Key.ofUuid kind u).text = u.text := rfl

/-- Different identifiers make different keys. -/
theorem Key.ofUuid_injective {kind : KeyKind} {u v : Uuid}
    (h : Key.ofUuid kind u = Key.ofUuid kind v) : u = v := by
  apply Uuid.text_injective
  rw [← Key.text_ofUuid kind u, h, Key.text_ofUuid]

end PartnerRelations
