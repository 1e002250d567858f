/-
# `Store.Table` — finite tables

A table holds at most one row per key.  Only the answers of `get?` matter to its
users; the order of the rows is no promise.  The small laws say what an insert
and an erase do to every key.
-/

namespace PartnerRelations

/-- A finite map from keys to rows. -/
structure Table (κ ν : Type) where
  rows : List (κ × ν)
deriving Repr

namespace Table

variable {κ ν : Type} [DecidableEq κ]

/-- The table without rows. -/
def empty : Table κ ν := ⟨[]⟩

/-- The row under a key. -/
def get? (t : Table κ ν) (k : κ) : Option ν :=
  (t.rows.find? fun row => row.1 = k).map Prod.snd

/-- The table without the row under a key. -/
def erase (t : Table κ ν) (k : κ) : Table κ ν :=
  ⟨t.rows.filter fun row => row.1 ≠ k⟩

/-- The table with a row put under a key, in place of the one before. -/
def insert (t : Table κ ν) (k : κ) (v : ν) : Table κ ν :=
  ⟨(t.erase k).rows ++ [(k, v)]⟩

/-- All rows, without their keys. -/
def values (t : Table κ ν) : List ν :=
  t.rows.map Prod.snd

@[simp] theorem get?_empty (k : κ) : (empty : Table κ ν).get? k = none := rfl

theorem get?_erase (t : Table κ ν) (k j : κ) :
    (t.erase k).get? j = if j = k then none else t.get? j := by
  simp only [get?, erase, List.find?_filter]
  split
  · next h =>
    subst h
    rw [List.find?_eq_none.2 (by simp)]
    rfl
  · next h =>
    congr 1
    congr 1
    funext row
    by_cases hr : row.1 = j <;> simp [hr, h]

theorem get?_insert (t : Table κ ν) (k j : κ) (v : ν) :
    (t.insert k v).get? j = if j = k then some v else t.get? j := by
  have h := get?_erase t k j
  simp only [get?, insert, List.find?_append] at h ⊢
  split
  · next hj =>
    rw [if_pos hj] at h
    rw [Option.map_eq_none_iff.1 h]
    simp [hj]
  · next hj =>
    rw [if_neg hj] at h
    rw [← h]
    have : List.find? (fun row : κ × ν => decide (row.1 = j)) [(k, v)] = none := by
      simp [Ne.symm hj]
    simp [this]

end Table

end PartnerRelations
