/-
# `Proofs.Page` — a page is a cut of a list

A page of `size` elements shows, of a list `all` (`Page.Cuts`),

    totalElements    how many elements the list has
    totalPages       the least number of pages that hold them all
    content          the elements from position `page * size` up to `page * size + size - 1`
    contentSize      how many these are

`ofSorted` makes such a page for every request whose size is not 0.  Page, size and offset
are words; no product and no count of them overflows (`toNat_offset`, `Cuts.contentSize`).

A page beyond the last one is empty, and the pages in their order are the list
(`Cuts.content_eq_nil`, `flatMap_content`).
-/
import Mathlib.Algebra.Order.Group.Nat
import PartnerRelations.Page

namespace PartnerRelations

namespace PageRequest

theorem toNat_max_one (w : UInt32) : (max 1 w).toNat = max 1 w.toNat := by
  show (if 1 ≤ w then w else 1 : UInt32).toNat = _
  split
  · next h => exact (Nat.max_eq_right (UInt32.le_iff_toNat_le.1 h)).symm
  · next h =>
    rw [UInt32.le_iff_toNat_le] at h
    exact (Nat.max_eq_left (Nat.le_of_not_le h)).symm

/-- A size is brought between 1 and the limit, which counts as 1 if it is 0. -/
theorem toNat_size_clamped (r : PageRequest) (limit : UInt32) :
    (r.clamped limit).size.toNat = max 1 (min r.size.toNat (max 1 limit.toNat)) := by
  have hone : r.size < 1 ↔ r.size.toNat < 1 := UInt32.lt_iff_toNat_lt
  have hlimit : max 1 limit < r.size ↔ max 1 limit.toNat < r.size.toNat := by
    rw [UInt32.lt_iff_toNat_lt, toNat_max_one]
  simp only [clamped, hone, hlimit]
  split
  · show 1 = _
    omega
  · split
    · rw [toNat_max_one]
      omega
    · omega

/-- A size within bounds is left alone. -/
theorem clamped_eq_self {r : PageRequest} {limit : UInt32} (hsize : 1 ≤ r.size)
    (hlimit : r.size ≤ limit) : r.clamped limit = r := by
  have hclamped : (r.clamped limit).size = r.size := by
    rw [UInt32.le_iff_toNat_le] at hsize hlimit
    rw [← UInt32.toNat_inj, toNat_size_clamped]
    have hone : (1 : UInt32).toNat = 1 := rfl
    omega
  cases r
  exact congrArg (mk _) hclamped

theorem size_clamped_le (r : PageRequest) {limit : UInt32} (hlimit : 1 ≤ limit) :
    (r.clamped limit).size ≤ limit := by
  rw [UInt32.le_iff_toNat_le] at hlimit ⊢
  have hone : (1 : UInt32).toNat = 1 := rfl
  rw [toNat_size_clamped]
  omega

theorem size_clamped_pos (r : PageRequest) (limit : UInt32) :
    0 < (r.clamped limit).size.toNat := by
  rw [toNat_size_clamped]
  omega

/-- The product of two words of 32 bits fits a word of 64. -/
theorem toNat_offset (r : PageRequest) : r.offset.toNat = r.page.toNat * r.size.toNat := by
  have hproduct : r.page.toNat * r.size.toNat < 2 ^ 64 :=
    calc r.page.toNat * r.size.toNat
      _ < 2 ^ 32 * 2 ^ 32 := Nat.mul_lt_mul'' r.page.toNat_lt r.size.toNat_lt
      _ = 2 ^ 64 := by decide
  rw [offset, UInt64.toNat_mul, UInt32.toNat_toUInt64, UInt32.toNat_toUInt64,
    Nat.mod_eq_of_lt hproduct]

theorem toNat_limit (r : PageRequest) : r.limit.toNat = r.size.toNat :=
  UInt32.toNat_toUInt64 _

end PageRequest

namespace Page

variable {α : Type} {all : List α} {p : Page α} {number : UInt32} {size : Nat}

/-- So many groups hold the elements if and only if they are not fewer than `ceilDiv`. -/
theorem ceilDiv_le_iff {total n : Nat} (hsize : 0 < size) :
    ceilDiv total size ≤ n ↔ total ≤ n * size := by
  have hdiv := Nat.div_add_mod total size
  have hmod := Nat.mod_lt total hsize
  unfold ceilDiv
  split
  · next h =>
    rw [h, Nat.add_zero, Nat.mul_comm] at hdiv
    constructor
    · intro hle
      exact hdiv ▸ Nat.mul_le_mul_right size hle
    · intro hle
      exact Nat.div_le_of_le_mul (Nat.mul_comm n size ▸ hle)
  · next h =>
    rw [Nat.succ_le_iff]
    constructor
    · intro hlt
      have hle : size * (total / size + 1) ≤ size * n := Nat.mul_le_mul_left size hlt
      rw [Nat.mul_comm n size]
      rw [Nat.mul_add, Nat.mul_one] at hle
      omega
    · intro hle
      by_contra hge
      have hle' : size * n ≤ size * (total / size) := Nat.mul_le_mul_left size (Nat.le_of_not_lt hge)
      rw [Nat.mul_comm n size] at hle
      omega

/-- What a page of a list shows, given its number and its size. -/
structure Cuts (p : Page α) (all : List α) (number : UInt32) (size : Nat) : Prop where
  totalElements : p.totalElements = all.length
  /-- So many pages hold all elements, and no fewer do. -/
  totalPages : ∀ n, p.totalPages ≤ n ↔ all.length ≤ n * size
  /-- Counting pages takes no larger number than counting elements. -/
  bounded : p.totalPages ≤ p.totalElements
  page : p.page = number
  content : ∀ i, p.content[i]? = if i < size then all[number.toNat * size + i]? else none
  contentSize : p.contentSize.toNat = p.content.length

/-- The page of an ordered list is the cut that was asked for. -/
theorem ofSorted_cuts {request : PageRequest} (hsize : 0 < request.size.toNat) (all : List α) :
    (ofSorted request all).Cuts all request.page request.size.toNat := by
  have hmax : (max 1 request.size).toNat = request.size.toNat := by
    rw [PageRequest.toNat_max_one, Nat.max_eq_right hsize]
  have htotal : ∀ n, ceilDiv all.length (max 1 request.size).toNat ≤ n ↔
      all.length ≤ n * request.size.toNat := fun n => by
    rw [hmax]
    exact ceilDiv_le_iff hsize
  refine ⟨rfl, htotal, ?_, rfl, fun i => ?_, ?_⟩
  · exact (htotal _).2 (Nat.le_mul_of_pos_right _ hsize)
  · show ((all.drop request.offset.toNat).take request.limit.toNat)[i]? = _
    rw [PageRequest.toNat_offset, PageRequest.toNat_limit, List.getElem?_take, List.getElem?_drop]
  · have hlength : ((all.drop request.offset.toNat).take request.limit.toNat).length <
        UInt32.size := by
      refine Nat.lt_of_le_of_lt (List.length_take_le _ _) ?_
      rw [PageRequest.toNat_limit]
      exact request.size.toNat_lt
    show (UInt32.ofNat (min _ (UInt32.size - 1))).toNat = _
    rw [Nat.min_eq_left (Nat.le_sub_one_of_lt hlength), UInt32.toNat_ofNat_of_lt' hlength]
    rfl

theorem Cuts.content_eq (h : p.Cuts all number size) :
    p.content = (all.drop (number.toNat * size)).take size :=
  List.ext_getElem? fun i => by rw [h.content, List.getElem?_take, List.getElem?_drop]

/-- Beyond the last page there is nothing. -/
theorem Cuts.content_eq_nil (h : p.Cuts all number size) (hlast : p.totalPages ≤ number.toNat) :
    p.content = [] := by
  rw [h.content_eq, List.drop_of_length_le ((h.totalPages _).1 hlast), List.take_nil]

/-- Page after page, nothing is left out and nothing comes twice. -/
theorem flatMap_content {pages : Nat → Page α} {n : Nat} (hn : n ≤ UInt32.size)
    (h : ∀ i < n, (pages i).Cuts all (.ofNat i) size) :
    (List.range n).flatMap (fun i => (pages i).content) = all.take (n * size) := by
  induction n with
  | zero => rw [Nat.zero_mul, List.take_zero, List.range_zero, List.flatMap_nil]
  | succ n ih =>
    have hprefix := ih (Nat.le_of_succ_le hn) fun i hi => h i (Nat.lt_succ_of_lt hi)
    have hlast := (h n (Nat.lt_succ_self n)).content_eq
    rw [UInt32.toNat_ofNat_of_lt' hn] at hlast
    rw [List.range_succ, List.flatMap_append, hprefix, List.flatMap_singleton, hlast, Nat.succ_mul,
      List.take_add]

end Page

end PartnerRelations
