/-
  Which assumptions a line may use.

  An assumption is in force at a line that stands in its subproof; the premises
  of the proof are in force everywhere below them. What is in force at a cited
  line is in force at the citing one, and for a conclusion of a cited subproof
  the only exception is the assumption of that subproof.
-/

import NaturalDeduction.Proofs.Layout.Nesting

namespace NaturalDeduction.Layout

variable {layout : Layout} {a i k : Nat}

/-- The assumption at `a` is in force at the row `i`. -/
structure InForce (layout : Layout) (a i : Nat) : Prop where
  isAssumption : layout.isAssumption a = true
  le : a ≤ i
  within : layout.within (layout.home? a) i = true

theorem opens_or_levelAt_eq_zero (h : layout.isAssumption a = true) :
    layout.opens a = true ∨ layout.levelAt a = 0 := by
  rcases Nat.eq_zero_or_pos (layout.levelAt a) with hzero | hpos
  · exact .inr hzero
  · exact .inl (opens_iff.2 ⟨h, hpos⟩)

/-- The premises of the proof stand in no subproof. -/
theorem home?_eq_none_of_levelAt (h : layout.levelAt a = 0) : layout.home? a = none := by
  rw [home?_eq_none_iff]
  intro b hb
  have := hb.level_le
  have := (opens_iff.1 hb.opens).2
  omega

/-- An assumption in force is a premise of the proof, or opens a subproof that holds the row. -/
theorem inForce_iff : layout.InForce a i ↔ layout.isAssumption a = true ∧ a ≤ i ∧
    (layout.levelAt a = 0 ∧ i < layout.length ∨ layout.Contains a i) := by
  constructor
  · rintro ⟨hassumption, hle, hwithin⟩
    refine ⟨hassumption, hle, ?_⟩
    -- The subproof of an assumption is its own, and a premise's is the whole proof.
    rcases opens_or_levelAt_eq_zero hassumption with hopens | hzero
    · rw [home?, if_pos hopens] at hwithin
      simp only [Layout.within, Bool.and_eq_true, decide_eq_true_eq] at hwithin
      exact .inr ⟨hopens, hwithin.1, hwithin.2⟩
    · rw [home?_eq_none_of_levelAt hzero] at hwithin
      exact .inl ⟨hzero, by simpa [Layout.within] using hwithin⟩
  · rintro ⟨hassumption, hle, ⟨hzero, hlt⟩ | hcontains⟩
    · refine ⟨hassumption, hle, ?_⟩
      rw [home?_eq_none_of_levelAt hzero]
      simpa [Layout.within] using hlt
    · refine ⟨hassumption, hle, ?_⟩
      rw [home?, if_pos hcontains.opens]
      simp [Layout.within, hle, hcontains.lt_end]

/-- An assumption may use itself. -/
theorem InForce.self (h : layout.isAssumption a = true) : layout.InForce a a := by
  refine inForce_iff.2 ⟨h, Nat.le_refl a, ?_⟩
  rcases opens_or_levelAt_eq_zero h with hopens | hzero
  · exact .inr (.self hopens)
  · exact .inl ⟨hzero, lt_length_of_isAssumption h⟩

/-- What is in force at a row is in force at the lines of its innermost subproof. -/
theorem InForce.of_within (h : layout.InForce a k) (hki : k ≤ i) (hi : i < layout.length)
    (hwithin : layout.within (layout.home? k) i = true) : layout.InForce a i := by
  obtain ⟨hassumption, hle, ⟨hzero, -⟩ | hcontains⟩ := inForce_iff.1 h
  · exact inForce_iff.2 ⟨hassumption, Nat.le_trans hle hki, .inl ⟨hzero, hi⟩⟩
  · exact inForce_iff.2
      ⟨hassumption, Nat.le_trans hle hki, .inr (contains_of_within hwithin hcontains)⟩

theorem mem_subproofRange {position : Nat} (h : layout.opens k = true) :
    position ∈ layout.subproofRange k ↔ layout.Contains k position := by
  have hend : k < layout.subproofEnd k := lt_subproofEnd_self
  rw [subproofRange, if_pos h, List.mem_range'_1]
  refine ⟨fun ⟨hle, hlt⟩ => ⟨h, hle, by omega⟩, fun hcontains => ⟨hcontains.le, ?_⟩⟩
  have := hcontains.lt_end
  omega

/-- The conclusions of a subproof are its rows at the level of the opener that are no
assumptions. -/
theorem mem_subproofConclusions {position : Nat} (h : layout.opens k = true) :
    position ∈ layout.subproofConclusions k ↔ layout.Contains k position ∧
      layout.isAssumption position = false ∧ layout.levelAt position = layout.levelAt k := by
  have hend : k < layout.subproofEnd k := lt_subproofEnd_self
  rw [subproofConclusions, List.mem_filter, Bool.and_eq_true, beq_iff_eq, Bool.not_eq_true',
    subproofRange, if_pos h, List.drop_range', List.mem_range'_1]
  constructor
  · rintro ⟨⟨hle, hlt⟩, hassumption, hlevel⟩
    exact ⟨⟨h, by omega, by omega⟩, hassumption, hlevel⟩
  · rintro ⟨hcontains, hassumption, hlevel⟩
    have hne : k ≠ position := by
      rintro rfl
      rw [(opens_iff.1 h).1] at hassumption
      cases hassumption
    have := hcontains.le
    have := hcontains.lt_end
    exact ⟨⟨by omega, by omega⟩, hassumption, hlevel⟩

/-- A conclusion of a subproof knows which subproof it concludes. -/
theorem concludedSubproof?_eq_some {position : Nat} (hvalid : layout.validate = .ok ())
    (hopens : layout.opens k = true) (h : position ∈ layout.subproofConclusions k) :
    layout.concludedSubproof? position = some k := by
  obtain ⟨hcontains, hplain, hlevel⟩ := (mem_subproofConclusions hopens).1 h
  obtain ⟨b, hhome, hb, hkb⟩ := hcontains.exists_home?
  have hsame := levelAt_home? hvalid hhome
  have heq : k = b := by
    by_contra hne
    -- An opener inside the subproof is deeper than its conclusions.
    have := hkb.level_lt hne (opens_iff.1 hb.opens).1
    omega
  subst heq
  simp [concludedSubproof?, hplain, hhome, hlevel]

/-- A row has a subproof that it concludes just when it is among the conclusions of that one. -/
theorem concludedSubproof?_eq_some_iff {position : Nat} (hvalid : layout.validate = .ok ()) :
    layout.concludedSubproof? position = some k ↔
      layout.opens k = true ∧ position ∈ layout.subproofConclusions k := by
  refine ⟨fun h => ?_, fun ⟨hopens, h⟩ => concludedSubproof?_eq_some hvalid hopens h⟩
  unfold concludedSubproof? at h
  split at h
  · cases h
  · rename_i hplain
    obtain ⟨hhome, hlevel⟩ := Option.filter_eq_some_iff.1 h
    have hcontains := (home?_eq_some_iff.1 hhome).1
    refine ⟨hcontains.opens, (mem_subproofConclusions hcontains.opens).2 ⟨hcontains, ?_, ?_⟩⟩
    · simpa using hplain
    · exact (beq_iff_eq.1 hlevel).symm

/-- What is in force at a conclusion of a finished subproof beside a line is in force at that line,
the assumption of the subproof excepted. -/
theorem InForce.of_isFinishedBeside {position : Nat} (h : layout.InForce a position)
    (hi : i < layout.length) (hbeside : layout.isFinishedBeside k i = true)
    (hconclusion : position ∈ layout.subproofConclusions k) : a = k ∨ layout.InForce a i := by
  obtain ⟨hopens, hend, hparent⟩ := isFinishedBeside_iff.1 hbeside
  obtain ⟨hposition, hplain, hlevel⟩ := (mem_subproofConclusions hopens).1 hconclusion
  have hposition_lt := hposition.lt_end
  obtain ⟨hassumption, hle, ⟨hzero, -⟩ | hcontains⟩ := inForce_iff.1 h
  · exact .inr (inForce_iff.2 ⟨hassumption, by omega, .inl ⟨hzero, hi⟩⟩)
  rcases Nat.lt_trichotomy a k with hlt | rfl | hlt
  · -- The subproof of the assumption is one around the finished subproof, hence around the line.
    have hak : layout.Contains a k := hcontains.of_le (Nat.le_of_lt hlt) hposition.le
    obtain ⟨b, hb, hbk, hab⟩ := hak.exists_enclosing? (Nat.ne_of_lt hlt)
    rw [hparent] at hb
    have hai := hab.trans (home?_eq_some_iff.1 hb).1
    exact .inr (inForce_iff.2 ⟨hassumption, hai.le, .inr hai⟩)
  · exact .inl rfl
  · -- An assumption inside the subproof is deeper than the conclusions.
    have hka : layout.Contains k a := hposition.of_le (Nat.le_of_lt hlt) hle
    have := hka.level_lt (Nat.ne_of_lt hlt) hassumption
    have := hcontains.level_le
    omega

/-- Only the premises of the proof are in force at level 0. -/
theorem InForce.levelAt_eq_zero (h : layout.InForce a i) (hi : layout.levelAt i = 0) :
    layout.levelAt a = 0 := by
  obtain ⟨-, -, ⟨hzero, -⟩ | hcontains⟩ := inForce_iff.1 h
  · exact hzero
  · have := hcontains.level_le
    omega

end NaturalDeduction.Layout
