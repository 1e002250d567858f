/-
# `Page` — offset pagination

A request names a page, counted from 0, and its size in elements; both are
32-bit words.  `ofSorted` cuts the page out of a complete, ordered list.  The
offset is 64 bits wide, so the product of two words always fits.
-/

namespace PartnerRelations

/-- The page asked for and its size. -/
structure PageRequest where
  page : UInt32
  size : UInt32
deriving DecidableEq, Repr

namespace PageRequest

/-- The first page, of 50 elements. -/
def first : PageRequest := ⟨0, 50⟩

/-- The size brought into `1..=max 1 limit`. -/
def clamped (r : PageRequest) (limit : UInt32) : PageRequest :=
  let limit := max 1 limit
  { r with size := if r.size < 1 then 1 else if limit < r.size then limit else r.size }

/-- The number of elements before the page. -/
def offset (r : PageRequest) : UInt64 :=
  r.page.toUInt64 * r.size.toUInt64

/-- The number of elements that the page may hold. -/
def limit (r : PageRequest) : UInt64 :=
  r.size.toUInt64

end PageRequest

/-- One page of a result, with the totals over all pages. -/
structure Page (α : Type) where
  totalElements : Nat
  totalPages : Nat
  page : UInt32
  contentSize : UInt32
  content : List α
deriving DecidableEq, Repr

namespace Page

/-- The least number of groups of `size` that hold `total` elements. -/
def ceilDiv (total size : Nat) : Nat :=
  if total % size = 0 then total / size else total / size + 1

/-- A page with the given content out of `total` elements.  A size of 0 counts
as 1, and the content's size stops at the largest word. -/
def ofContent {α : Type} (request : PageRequest) (total : Nat) (content : List α) : Page α :=
  { totalElements := total
    totalPages := ceilDiv total (max 1 request.size).toNat
    page := request.page
    contentSize := UInt32.ofNat (min content.length (UInt32.size - 1))
    content := content }

/-- The requested page of a complete, ordered list. -/
def ofSorted {α : Type} (request : PageRequest) (all : List α) : Page α :=
  ofContent request all.length ((all.drop request.offset.toNat).take request.limit.toNat)

/-- The page with a function applied to its elements. -/
def map {α β : Type} (f : α → β) (p : Page α) : Page β :=
  { p with content := p.content.map f }

end Page

end PartnerRelations
