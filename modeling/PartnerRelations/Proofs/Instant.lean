/-
# `Proofs.Instant` — the order of instants

Instants are compared by `rank`.  It gives a total order that tells any two
instants apart: the part of a second stays below the ticks of a second, so day,
second and part can be read off it.
-/
import PartnerRelations.Instant.Basic

namespace PartnerRelations

namespace Instant

variable {a b c : Instant}

theorem le_refl (a : Instant) : a ≤ a := Int.le_refl _

theorem le_trans (hab : a ≤ b) (hbc : b ≤ c) : a ≤ c := Int.le_trans hab hbc

/-- Different instants have different places on the time line. -/
theorem rank_injective (h : a.rank = b.rank) : a = b := by
  obtain ⟨day, second, nano, hsecond, hnano⟩ := a
  obtain ⟨day', second', nano', hsecond', hnano'⟩ := b
  simp only [rank] at h
  -- the place is `day * 86400 + second` in units of 2·10^9 ticks, and `nano` is less than one
  have hday : day = day' := by omega
  have hsec : second = second' := by omega
  have hnan : nano = nano' := by omega
  subst hday hsec hnan
  rfl

end Instant

end PartnerRelations
