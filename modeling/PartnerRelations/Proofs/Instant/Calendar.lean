/-
# `Proofs.Instant.Calendar` — days and dates name each other

`dateOf` counts years from the first of March, so that the leap day is the last day of its
year.  It splits a day into three parts and makes a date of them:

    era        400 years, 146097 days
    year       of the era, from 0 to 399; it begins `yearStart year` days into the era
    day        of the year, from 0 to 364, or to 365 if the year ends in a leap day

The year is found by a division that allows for leap days only on the average.
`yearOfEra_spec` says that it is the right one all the same.  From there on the date is
one that the calendar holds (`isValid_dateOf`), and `dayOf` leads back to the day
(`dayOf_dateOf`).
-/
import PartnerRelations.Instant.Basic

namespace PartnerRelations

namespace Date

/-! ## Years that begin in March -/

/-- Days from the first of March of year 0 to the first of March of a year. -/
def yearStart (year : Int) : Int :=
  365 * year + year / 4 - year / 100 + year / 400

theorem yearStart_succ (year : Int) :
    yearStart (year + 1) = yearStart year + if isLeap (year + 1) then 366 else 365 := by
  unfold yearStart isLeap
  split
  · next h =>
    simp only [ne_eq, Bool.and_eq_true, Bool.or_eq_true, decide_eq_true_eq] at h
    omega
  · next h =>
    simp only [ne_eq, Bool.and_eq_true, Bool.or_eq_true, decide_eq_true_eq] at h
    omega

/-- The year of a day of an era. -/
def yearOfEra (day : Int) : Int :=
  (day - day / 1460 + day / 36524 - day / 146096) / 365

variable {day era year month : Int}

theorem yearOfEra_bounds (h : 0 ≤ day) (hlt : day < 146097) :
    0 ≤ yearOfEra day ∧ yearOfEra day < 400 := by
  unfold yearOfEra
  omega

/-- A day of an era is neither before its year nor after it. -/
theorem yearOfEra_spec (h : 0 ≤ day) (hlt : day < 146097) :
    yearStart (yearOfEra day) ≤ day ∧ day < yearStart (yearOfEra day + 1) := by
  obtain ⟨cycle, hcycle⟩ : ∃ cycle, cycle = day / 1460 := ⟨_, rfl⟩
  obtain ⟨century, hcentury⟩ : ∃ century, century = day / 36524 := ⟨_, rfl⟩
  obtain ⟨last, hlast⟩ : ∃ last, last = day / 146096 := ⟨_, rfl⟩
  obtain ⟨year, hyear⟩ : ∃ year, year = yearOfEra day := ⟨_, rfl⟩
  rw [← hyear]
  rw [yearOfEra, ← hcycle, ← hcentury, ← hlast] at hyear
  -- a fifth century has only the last day of the era, which belongs to the fourth
  have hcenturies : century = 0 ∨ century = 1 ∨ century = 2 ∨ century = 3 ∨ century = 4 := by omega
  have hyears : year / 100 = century - last := by
    rcases hcenturies with rfl | rfl | rfl | rfl | rfl <;> omega
  have hlate : century - last ≤ 3 := by omega
  -- a cycle of 1460 days falls behind four years by a day, so the year may be off by one
  obtain ⟨off, rfl⟩ : ∃ off, year = 4 * cycle + off := ⟨year - 4 * cycle, by omega⟩
  have hoff : off = -1 ∨ off = 0 ∨ off = 1 ∨ off = 2 ∨ off = 3 ∨ off = 4 := by omega
  unfold yearStart
  constructor
  · rcases hoff with rfl | rfl | rfl | rfl | rfl | rfl <;> omega
  · rcases hoff with rfl | rfl | rfl | rfl | rfl | rfl <;> omega

/-! ## Months from March on -/

/-- The date of a day of a month, years and months counted from the first of March. -/
def ofMarch (year month day : Int) : Date :=
  let month := if month < 10 then month + 3 else month - 9
  { year := if month ≤ 2 then year + 1 else year
    month := month.toNat
    day := day.toNat }

theorem dayOf_ofMarch (hmonth : 0 ≤ month) (hmonth' : month < 12) (hday : 1 ≤ day) :
    (ofMarch year month day).dayOf = year / 400 * 146097 +
      (year % 400 * 365 + year % 400 / 4 - year % 400 / 100 + ((153 * month + 2) / 5 + day - 1)) -
      epochShift := by
  unfold ofMarch dayOf
  by_cases hlate : month < 10
  · have hmod : ((month + 3).toNat + 9 : Int) % 12 = month := by omega
    simp only [if_pos hlate, if_neg (show ¬month + 3 ≤ 2 by omega),
      if_neg (show ¬(month + 3).toNat ≤ 2 by omega), hmod, Int.toNat_of_nonneg (show 0 ≤ day by omega)]
  · have hmod : ((month - 9).toNat + 9 : Int) % 12 = month := by omega
    simp only [if_neg hlate, if_pos (show month - 9 ≤ 2 by omega),
      if_pos (show (month - 9).toNat ≤ 2 by omega), hmod,
      Int.toNat_of_nonneg (show 0 ≤ day by omega), Int.add_sub_cancel]

theorem year_ofMarch (year month day : Int) :
    year ≤ (ofMarch year month day).year ∧ (ofMarch year month day).year ≤ year + 1 := by
  show year ≤ ite _ (year + 1) year ∧ ite _ (year + 1) year ≤ year + 1
  split <;> omega

/-- The month of a day of a year. -/
def monthOfYear (day : Int) : Int := (5 * day + 2) / 153

/-- The day of the month of a day of a year. -/
def dayOfMonth (day : Int) : Int := day - (153 * monthOfYear day + 2) / 5 + 1

theorem isValid_ofMarch (hday : 0 ≤ day)
    (hday' : day < if isLeap (year + 1) then 366 else 365) :
    (ofMarch year (monthOfYear day) (dayOfMonth day)).isValid = true := by
  obtain ⟨month, hmonth⟩ : ∃ month, month = monthOfYear day := ⟨_, rfl⟩
  rw [dayOfMonth, ← hmonth]
  unfold monthOfYear at hmonth
  have hcases : month = 0 ∨ month = 1 ∨ month = 2 ∨ month = 3 ∨ month = 4 ∨ month = 5 ∨
      month = 6 ∨ month = 7 ∨ month = 8 ∨ month = 9 ∨ month = 10 ∨ month = 11 := by
    split at hday' <;> omega
  -- only the length of the last month, February, depends on the year
  cases hleap : isLeap (year + 1) <;> simp only [hleap, Bool.false_eq_true, if_true, if_false] at hday' <;>
    rcases hcases with rfl | rfl | rfl | rfl | rfl | rfl | rfl | rfl | rfl | rfl | rfl | rfl <;>
    simp [ofMarch, isValid, monthLength, hleap] <;> omega

/-! ## Days and their dates -/

/-- The day of its year that a day is, and where that year lies. -/
theorem exists_dateOf_eq (day : Int) : ∃ era year dayOfYear,
    dateOf day =
      ofMarch (era * 400 + year) (monthOfYear dayOfYear) (dayOfMonth dayOfYear) ∧
    (0 ≤ year ∧ year < 400) ∧
    (0 ≤ dayOfYear ∧ dayOfYear < if isLeap (era * 400 + year + 1) then 366 else 365) ∧
    era * 146097 + (year * 365 + year / 4 - year / 100 + dayOfYear) - epochShift = day := by
  obtain ⟨era, hera⟩ : ∃ era, era = (day + epochShift) / 146097 := ⟨_, rfl⟩
  obtain ⟨dayOfEra, hday⟩ : ∃ dayOfEra, dayOfEra = (day + epochShift) % 146097 := ⟨_, rfl⟩
  have hnonneg : 0 ≤ dayOfEra := by omega
  have hlt : dayOfEra < 146097 := by omega
  obtain ⟨year, hyear⟩ : ∃ year, year = yearOfEra dayOfEra := ⟨_, rfl⟩
  have hbounds := yearOfEra_bounds hnonneg hlt
  obtain ⟨hstart, hend⟩ := yearOfEra_spec hnonneg hlt
  rw [← hyear] at hbounds hstart hend
  have hleap : isLeap (era * 400 + year + 1) = isLeap (year + 1) := by
    unfold isLeap
    rw [show (era * 400 + year + 1) % 4 = (year + 1) % 4 by omega,
      show (era * 400 + year + 1) % 100 = (year + 1) % 100 by omega,
      show (era * 400 + year + 1) % 400 = (year + 1) % 400 by omega]
  have hyearStart : yearStart year = year * 365 + year / 4 - year / 100 := by
    unfold yearStart
    omega
  refine ⟨era, year, dayOfEra - yearStart year, ?_, hbounds, ⟨by omega, ?_⟩, by omega⟩
  · rw [hyearStart, hera, hyear, hday, Int.mul_comm (yearOfEra _) 365]
    rfl
  · rw [yearStart_succ, ← hleap] at hend
    omega

/-- The day of the date of a day is that day. -/
theorem dayOf_dateOf (day : Int) : (dateOf day).dayOf = day := by
  obtain ⟨era, year, dayOfYear, hdate, hyear, hday, hsum⟩ := exists_dateOf_eq day
  have hlast : dayOfYear ≤ 365 := by split at hday <;> omega
  have hmonth : 0 ≤ monthOfYear dayOfYear ∧ monthOfYear dayOfYear < 12 := by
    unfold monthOfYear
    omega
  have hfirst : 1 ≤ dayOfMonth dayOfYear := by
    unfold dayOfMonth monthOfYear
    omega
  rw [hdate, dayOf_ofMarch hmonth.1 hmonth.2 hfirst, dayOfMonth]
  omega

/-- The date of a day is one that the calendar holds. -/
theorem isValid_dateOf (day : Int) : (dateOf day).isValid = true := by
  obtain ⟨era, year, dayOfYear, hdate, -, hday, -⟩ := exists_dateOf_eq day
  rw [hdate]
  exact isValid_ofMarch hday.1 hday.2

/-- A date that the calendar holds has a month and a day of two digits. -/
theorem lt_of_isValid {d : Date} (h : d.isValid = true) : d.month < 100 ∧ d.day < 100 := by
  obtain ⟨hfirst, hlast⟩ := Bool.and_eq_true_iff.1 h
  have hsome : 1 ≤ monthLength d.year d.month :=
    Nat.le_trans (of_decide_eq_true hfirst) (of_decide_eq_true hlast)
  have hmonth : d.month ≤ 12 ∧ monthLength d.year d.month ≤ 31 := by
    unfold monthLength at hsome ⊢
    split at hsome <;> first | omega | (split <;> omega)
  have hday := of_decide_eq_true hlast
  omega

end Date

namespace Instant

open Date

/-- An instant may lie on any day of a year of at most four digits. -/
theorem isDay_of_year {day : Int} (h : 0 ≤ (dateOf day).year) (h' : (dateOf day).year ≤ 9999) :
    isDay day = true := by
  obtain ⟨era, year, dayOfYear, hdate, hyear, hday, hsum⟩ := exists_dateOf_eq day
  have hlast : dayOfYear ≤ 365 := by split at hday <;> omega
  have hera : -1 ≤ era ∧ era ≤ 24 := by
    have hbounds := year_ofMarch (era * 400 + year) (monthOfYear dayOfYear) (dayOfMonth dayOfYear)
    rw [← hdate] at hbounds
    omega
  have hrange : dayRange = (-96465292, 95026236) := by decide
  have hshift : epochShift = 719468 := rfl
  rw [isDay, hrange, Bool.and_eq_true, decide_eq_true_eq, decide_eq_true_eq]
  omega

end Instant

end PartnerRelations
