/-
  Three views of a subproof.

  A claim takes the conclusions of a cited subproof from a scan of its rows by
  level; an edit goes the other way, from a row through its block to the
  subproof that the row concludes; and whether a citation is of a whole subproof
  is told from two levels alone. On well nested rows the three agree, whatever
  subproofs stand beside or inside each other, and the table of subproofs
  answers the same.
-/

import NaturalDeduction.Proofs.Layout.BlockTable

namespace NaturalDeduction

namespace Layout

variable {layout : Layout} {opener row premise line : Nat}

/-! ## Conclusions -/

/-- The subproof is the innermost one around the row: it holds the row, and every subproof that
holds the row holds its opener. -/
structure Innermost (layout : Layout) (opener row : Nat) : Prop where
  contains : layout.Contains opener row
  around : ∀ other, layout.Contains other row → layout.Contains other opener

theorem innermost_of_home? (h : layout.home? row = some opener) : layout.Innermost opener row := by
  obtain ⟨hcontains, hlast⟩ := home?_eq_some_iff.1 h
  exact ⟨hcontains, fun other hother => hother.of_le (hlast other hother) hcontains.le⟩

/-- A row without a subproof of its own has no conclusions. -/
theorem opens_of_mem_subproofConclusions (h : row ∈ layout.subproofConclusions opener) :
    layout.opens opener = true := by
  by_contra hopens
  simp [subproofConclusions, subproofRange, hopens] at h

theorem innermost_of_concludedSubproof? (h : layout.concludedSubproof? row = some opener) :
    layout.Innermost opener row := by
  unfold concludedSubproof? at h
  split at h
  · cases h
  · exact innermost_of_home? (Option.filter_eq_some_iff.1 h).1

/-! ## Citations -/

/-- A finished subproof beside a line does not hold the line. -/
theorem not_contains_of_isSubproofPremise (haccessible : layout.isAccessible premise line = true)
    (hsubproof : layout.isSubproofPremise premise line = true) :
    ¬ layout.Contains premise line := by
  intro hcontains
  obtain ⟨-, hend, -⟩ :=
    isFinishedBeside_iff.1 (isFinishedBeside_of_isSubproofPremise haccessible hsubproof)
  exact Nat.not_lt.2 hend hcontains.lt_end

/-- An opener that a line may cite without citing its subproof opens a subproof around the line. -/
theorem contains_of_not_isSubproofPremise (h : layout.validate = .ok ())
    (haccessible : layout.isAccessible premise line = true) (hopens : layout.opens premise = true)
    (hsubproof : layout.isSubproofPremise premise line = false) : layout.Contains premise line :=
  contains_of_within (within_of_not_isSubproofPremise h haccessible hsubproof) (.self hopens)

/-- Every row of a cited subproof stands above the line. -/
theorem lt_of_mem_subproofRange (haccessible : layout.isAccessible premise line = true)
    (hsubproof : layout.isSubproofPremise premise line = true)
    (hrow : row ∈ layout.subproofRange premise) : row < line := by
  obtain ⟨hopens, hend, -⟩ :=
    isFinishedBeside_iff.1 (isFinishedBeside_of_isSubproofPremise haccessible hsubproof)
  exact Nat.lt_of_lt_of_le ((mem_subproofRange hopens).1 hrow).lt_end hend

/-! ## Agreement -/

/-- The views of subproofs agree with each other and with the subproofs that hold a row. -/
structure ViewsAgree (layout : Layout) : Prop where
  mem_conclusions_iff : ∀ opener row,
    row ∈ layout.subproofConclusions opener ↔ layout.concludedSubproof? row = some opener
  innermost : ∀ opener row,
    layout.concludedSubproof? row = some opener → layout.Innermost opener row
  isSubproofPremise_iff : ∀ premise line, layout.isAccessible premise line = true →
    (layout.isSubproofPremise premise line = true ↔
      layout.opens premise = true ∧ ¬ layout.Contains premise line)
  finished : ∀ premise line, layout.isAccessible premise line = true →
    layout.isSubproofPremise premise line = true →
      layout.subproofEnd premise ≤ line ∧ ∀ row ∈ layout.subproofRange premise, row < line

theorem viewsAgree_of_validate (h : layout.validate = .ok ()) : layout.ViewsAgree where
  mem_conclusions_iff opener row := by
    rw [concludedSubproof?_eq_some_iff h]
    exact ⟨fun hrow => ⟨opens_of_mem_subproofConclusions hrow, hrow⟩, And.right⟩
  innermost _ _ := innermost_of_concludedSubproof?
  isSubproofPremise_iff premise line haccessible := by
    constructor
    · intro hsubproof
      exact ⟨opens_of_isSubproofPremise hsubproof,
        not_contains_of_isSubproofPremise haccessible hsubproof⟩
    · rintro ⟨hopens, houtside⟩
      by_contra hsubproof
      exact houtside (contains_of_not_isSubproofPremise h haccessible hopens
        (by simpa using hsubproof))
  finished premise line haccessible hsubproof := by
    obtain ⟨-, hend, -⟩ :=
      isFinishedBeside_iff.1 (isFinishedBeside_of_isSubproofPremise haccessible hsubproof)
    exact ⟨hend, fun row => lt_of_mem_subproofRange haccessible hsubproof⟩

end Layout

/-- The table answers for every row of the layout what the layout says, without a trap. -/
structure BlockTable.Answers (table : BlockTable) (layout : Layout) : Prop where
  accessible : ∀ premise line,
    table.isAccessible premise line = .ok (layout.isAccessible premise line)
  range : ∀ index < layout.length, table.subproofRange index = .ok (layout.subproofRange index)
  conclusions : ∀ opener < layout.length,
    table.subproofConclusions opener = .ok (layout.subproofConclusions opener)
  concluded : ∀ row < layout.length,
    table.concludedSubproof? row = .ok (layout.concludedSubproof? row)
  subproofPremise : ∀ premise < layout.length, ∀ line < layout.length,
    table.isSubproofPremise premise line = .ok (layout.isSubproofPremise premise line)

namespace Layout

variable {layout : Layout}

theorem answers_blockTable (h : layout.validate = .ok ())
    (hlength : layout.length + 1 < Word.limit 64) : layout.blockTable.Answers layout where
  accessible := isAccessible_eq_ok
  range _ := subproofRange_eq_ok (Nat.lt_of_succ_lt hlength)
  conclusions _ := subproofConclusions_eq_ok (Nat.lt_of_succ_lt hlength)
  concluded _ := concludedSubproof?_eq_ok
  subproofPremise _ hpremise _ := isSubproofPremise_eq_ok h hlength hpremise

/-- On well nested rows the conclusions found by level are those found through the blocks, each in
its innermost subproof; and a citation is of a whole subproof exactly when it is of an opener whose
subproof does not hold the line, which has then ended above it. The table of the rows is built, and
answers so for as many rows as words can count. -/
theorem subproof_views_agree (h : layout.validate = .ok ()) :
    layout.ViewsAgree ∧ ∃ table, BlockTable.ofRows layout = .ok table ∧
      (layout.length + 1 < Word.limit 64 → table.Answers layout) :=
  ⟨viewsAgree_of_validate h, layout.blockTable, ofRows_eq_ok h, answers_blockTable h⟩

/-- A subproof with another one inside it: the inner conclusion is none of the outer subproof's, and
below both only the outer one is cited as a whole. -/
theorem subproof_views_agree_nested :
    Layout.validate [⟨1, true⟩, ⟨2, true⟩, ⟨2, false⟩, ⟨1, false⟩, ⟨0, false⟩] = .ok () ∧
      ∃ table, BlockTable.ofRows
          [⟨1, true⟩, ⟨2, true⟩, ⟨2, false⟩, ⟨1, false⟩, ⟨0, false⟩] = .ok table ∧
        table.concludedSubproof? 2 = .ok (some 1) ∧ table.concludedSubproof? 3 = .ok (some 0) ∧
        table.isSubproofPremise 0 3 = .ok false ∧ table.isSubproofPremise 0 4 = .ok true := by
  have hvalid :
      Layout.validate [⟨1, true⟩, ⟨2, true⟩, ⟨2, false⟩, ⟨1, false⟩, ⟨0, false⟩] = .ok () := by
    decide
  obtain ⟨hviews, table, htable, hanswers⟩ := subproof_views_agree hvalid
  have hanswers := hanswers (by decide)
  refine ⟨hvalid, table, htable, ?_, ?_, ?_, ?_⟩
  · rw [hanswers.concluded 2 (by decide), (hviews.mem_conclusions_iff 1 2).1 (by decide)]
  · rw [hanswers.concluded 3 (by decide), (hviews.mem_conclusions_iff 0 3).1 (by decide)]
  · rw [hanswers.subproofPremise 0 (by decide) 3 (by decide)]
    rfl
  · rw [hanswers.subproofPremise 0 (by decide) 4 (by decide)]
    rfl

end Layout

end NaturalDeduction
