/-
# `Proofs.Text.Blank` — the core of a text

    blank …  |  first solid character  …  last solid character  |  … blank

The part in the middle is the core of the text (`Core`), and it is what `trim` leaves of it.  A
text has a core if and only if some character of it is not blank, and then just one
(`trim_eq_iff_core`).  Texts with the same trim are those that differ in nothing but the blank
characters at their ends (`trim_eq_trim_iff`).
-/
import PartnerRelations.Text.Blank

namespace PartnerRelations.Text

/-- Nothing but blank characters. -/
def Blank (s : String) : Prop :=
  ∀ c ∈ s.toList, isBlank c = true

/-- `s` is `t` with blank characters at its ends, or with none. -/
def Pads (s t : String) : Prop :=
  ∃ lead trail, Blank lead ∧ Blank trail ∧ s = lead ++ t ++ trail

/-- `t` is the part of `s` from the first character that is not blank to the last one. -/
structure Core (s t : String) : Prop where
  pads : Pads s t
  first : ∃ c, t.toList.head? = some c ∧ isBlank c = false
  last : ∃ c, t.toList.getLast? = some c ∧ isBlank c = false

/-- The texts differ at most in the blank characters at their ends. -/
def AlikeWithin (s t : String) : Prop :=
  ∃ part, Pads s part ∧ Pads t part

variable {s t : String} {cs : List Char}

/-! ## Blanks at the ends are trimmed away -/

theorem trimChars_append_of_blank {lead : List Char} (h : ∀ c ∈ lead, isBlank c = true) :
    trimChars (lead ++ cs) = trimChars cs := by
  rw [trimChars, List.dropWhile_append_of_pos h, trimChars]

theorem trimChars_of_append_blank {trail : List Char} (h : ∀ c ∈ trail, isBlank c = true) :
    trimChars (cs ++ trail) = trimChars cs := by
  have htrail : trail.dropWhile isBlank = [] := by
    rw [← List.append_nil trail, List.dropWhile_append_of_pos h, List.dropWhile_nil]
  rw [trimChars, trimChars, List.dropWhile_append]
  split
  · next hempty => rw [htrail, List.isEmpty_iff.1 hempty]
  · rw [List.reverse_append,
      List.dropWhile_append_of_pos fun c hc => h c (List.mem_reverse.1 hc)]

theorem Pads.trim_eq (h : Pads s t) : trim s = trim t := by
  obtain ⟨lead, trail, hlead, htrail, rfl⟩ := h
  rw [trim, trim, String.toList_append, String.toList_append, trimChars_of_append_blank htrail,
    trimChars_append_of_blank hlead]

theorem pads_trim (s : String) : Pads s (trim s) := by
  obtain ⟨lead, trail, hs, hlead, htrail⟩ := exists_around s.toList
  refine ⟨.ofList lead, .ofList trail, ?_, ?_, ?_⟩
  · rwa [Blank, String.toList_ofList]
  · rwa [Blank, String.toList_ofList]
  · rw [trim, ← String.ofList_append, ← String.ofList_append, ← hs, String.ofList_toList]

theorem trim_eq_trim_iff : trim s = trim t ↔ AlikeWithin s t := by
  constructor
  · intro h
    exact ⟨trim s, pads_trim s, h ▸ pads_trim t⟩
  · rintro ⟨part, hs, ht⟩
    rw [hs.trim_eq, ht.trim_eq]

/-! ## What is left is the core -/

theorem trim_eq_empty_iff : trim s = "" ↔ Blank s := by
  constructor
  · intro h
    obtain ⟨lead, trail, hlead, htrail, hs⟩ := pads_trim s
    rw [h, String.append_empty] at hs
    intro c hc
    rw [hs, String.toList_append] at hc
    exact (List.mem_append.1 hc).elim (hlead c) (htrail c)
  · intro h
    have hpads : Pads s "" := ⟨s, "", h, fun _ hc => (List.not_mem_nil hc).elim, by simp⟩
    rw [hpads.trim_eq]
    rfl

theorem not_blank_iff : ¬ Blank s ↔ ∃ c ∈ s.toList, isBlank c = false := by
  simp [Blank]

theorem Core.trim_eq (h : Core s t) : trim s = t := by
  obtain ⟨first, hfirst, hsolid⟩ := h.first
  obtain ⟨last, hlast, hsolid'⟩ := h.last
  have hself : trimChars t.toList = t.toList := by
    refine trimChars_eq_self (fun c hc => ?_) fun c hc => ?_
    · cases hfirst.symm.trans (Option.mem_def.1 hc)
      exact hsolid
    · rw [List.head?_reverse] at hc
      cases hlast.symm.trans (Option.mem_def.1 hc)
      exact hsolid'
  rw [h.pads.trim_eq, trim, hself, String.ofList_toList]

theorem Core.ne_empty (h : Core s t) : t ≠ "" := by
  rintro rfl
  obtain ⟨c, hc, -⟩ := h.first
  cases hc

/-- A text that is not blank has a core. -/
theorem core_trim (h : trim s ≠ "") : Core s (trim s) := by
  have hne : trimChars s.toList ≠ [] := fun hnil => h (congrArg String.ofList hnil)
  refine ⟨pads_trim s, ?_, ?_⟩
  · rw [trim, String.toList_ofList]
    have hfirst := List.head?_eq_some_head hne
    exact ⟨_, hfirst, head?_trimChars _ _ hfirst⟩
  · rw [trim, String.toList_ofList]
    have hlast := List.getLast?_eq_some_getLast hne
    exact ⟨_, hlast, head?_reverse_trimChars _ _ (List.head?_reverse.trans hlast)⟩

/-- Trimming finds the core, and leaves nothing of a text without one. -/
theorem trim_eq_iff_core : trim s = t ∧ t ≠ "" ↔ Core s t := by
  constructor
  · rintro ⟨rfl, hne⟩
    exact core_trim hne
  · intro h
    exact ⟨h.trim_eq, h.ne_empty⟩

end PartnerRelations.Text
