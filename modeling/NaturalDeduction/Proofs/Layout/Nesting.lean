/-
  What good nesting means for levels.

  `validate` looks at neighbouring rows only. Here its outcome is restated row
  by row, and from it follows how levels and subproofs fit together: a row
  stands at the level of the subproof it belongs to, an opener one level below
  the subproof around it. So a citation is one of a whole subproof exactly when
  that subproof is finished.
-/

import NaturalDeduction.Proofs.Layout.Subproof

namespace NaturalDeduction.Layout

variable {layout : Layout} {a b i k : Nat}

/-! ## Well nested rows -/

/-- The level of the row before, where the rows follow one of level `previous`. -/
def levelBefore (previous : Nat) (layout : Layout) : Nat → Nat
  | 0 => previous
  | index + 1 => layout.levelAt index

@[simp] theorem levelAt_cons_zero (row : Row) (rows : Layout) :
    levelAt (row :: rows) 0 = row.level := rfl

@[simp] theorem levelAt_cons_succ (row : Row) (rows : Layout) (index : Nat) :
    levelAt (row :: rows) (index + 1) = levelAt rows index := rfl

theorem levelBefore_cons_succ (previous : Nat) (row : Row) (rows : Layout) (index : Nat) :
    levelBefore previous (row :: rows) (index + 1) = levelBefore row.level rows index := by
  cases index <;> rfl

/-- The scan passes a row that fits, and goes on with it as the row before. -/
theorem firstMisplaced?_cons_eq_none_iff {row : Row} {rows : List Row} {previous index : Nat}
    {onlyPremises : Bool} :
    firstMisplaced? previous onlyPremises index (row :: rows) = none ↔
      (row.level ≤ previous + 1 ∧ (previous < row.level → row.assumption = true) ∧
        (row.isPremise = true → onlyPremises = true)) ∧
      firstMisplaced? row.level (onlyPremises && row.isPremise) (index + 1) rows = none := by
  -- The two tests of the scan, said of a row that passes both.
  have hfits : ((decide (previous + 1 < row.level) ||
        decide (previous < row.level) && !row.assumption) ||
        row.isPremise && !onlyPremises) = false ↔
      row.level ≤ previous + 1 ∧ (previous < row.level → row.assumption = true) ∧
        (row.isPremise = true → onlyPremises = true) := by
    simp [Bool.or_eq_false_iff, and_assoc]
  simp only [firstMisplaced?]
  split
  · rename_i hmisplaced
    constructor
    · intro h
      cases h
    · rintro ⟨hrow, -⟩
      rw [hfits.2 hrow] at hmisplaced
      cases hmisplaced
  · rename_i hplaced
    have hrow := hfits.1 (by simpa using hplaced)
    exact ⟨fun h => ⟨hrow, h⟩, fun h => h.2⟩

/-- The scan finds nothing exactly when every row fits the row before it, and premises follow only
premises. -/
theorem firstMisplaced?_eq_none_iff (rows : List Row) (previous : Nat) (onlyPremises : Bool)
    (index : Nat) :
    firstMisplaced? previous onlyPremises index rows = none ↔
      ∀ i row, rows[i]? = some row →
        row.level ≤ levelBefore previous rows i + 1 ∧
        (levelBefore previous rows i < row.level → row.assumption = true) ∧
        (row.isPremise = true → onlyPremises = true ∧
          ∀ j other, j < i → rows[j]? = some other → other.isPremise = true) := by
  -- The induction is on the rows; what the scan carries along, the level before and whether only
  -- premises were seen, is generalised.
  induction rows generalizing previous onlyPremises index with
  | nil => simp [firstMisplaced?]
  | cons first rows ih =>
    rw [firstMisplaced?_cons_eq_none_iff, ih]
    constructor
    · rintro ⟨⟨hle, hdeeper, hpremise⟩, hrest⟩ i row hi
      cases i with
      | zero =>
        obtain rfl : first = row := by simpa using hi
        exact ⟨hle, hdeeper, fun hp => ⟨hpremise hp, fun j other hj => by omega⟩⟩
      | succ i =>
        rw [levelBefore_cons_succ]
        obtain ⟨hle, hdeeper, hpremise⟩ := hrest i row (by simpa using hi)
        refine ⟨hle, hdeeper, fun hp => ?_⟩
        obtain ⟨honly, hothers⟩ := hpremise hp
        rw [Bool.and_eq_true] at honly
        refine ⟨honly.1, fun j other hj hother => ?_⟩
        cases j with
        | zero =>
          obtain rfl : first = other := by simpa using hother
          exact honly.2
        | succ j => exact hothers j other (by omega) (by simpa using hother)
    · intro h
      obtain ⟨hle, hdeeper, hpremise⟩ := h 0 first rfl
      refine ⟨⟨hle, hdeeper, fun hp => (hpremise hp).1⟩, fun i row hi => ?_⟩
      obtain ⟨hle, hdeeper, hpremise⟩ := h (i + 1) row (by simpa using hi)
      rw [levelBefore_cons_succ] at hle hdeeper
      refine ⟨hle, hdeeper, fun hp => ?_⟩
      obtain ⟨honly, hothers⟩ := hpremise hp
      refine ⟨?_, fun j other hj hother => hothers (j + 1) other (by omega) (by simpa using hother)⟩
      rw [honly, hothers 0 first (by omega) rfl]
      rfl

/-- Rows are well nested when each is at most one level deeper than the one before, only
assumptions go deeper, and premises follow only premises. -/
theorem validate_eq_ok_iff :
    layout.validate = .ok () ↔ ∀ i row, layout[i]? = some row →
      row.level ≤ levelBefore 0 layout i + 1 ∧
      (levelBefore 0 layout i < row.level → row.assumption = true) ∧
      (row.isPremise = true → ∀ j other, j < i → layout[j]? = some other →
        other.isPremise = true) := by
  have hscan := firstMisplaced?_eq_none_iff layout 0 true 0
  simp only [true_and] at hscan
  rw [← hscan, validate]
  cases firstMisplaced? 0 true 0 layout <;> simp

/-- The first rows of well nested rows are well nested. -/
theorem validate_of_append {rows more : Layout} (h : Layout.validate (rows ++ more) = .ok ()) :
    rows.validate = .ok () := by
  rw [validate_eq_ok_iff] at h ⊢
  intro i row hrow
  have hlt := (List.getElem?_eq_some_iff.1 hrow).1
  have hsame : ∀ j ≤ i, (rows ++ more)[j]? = rows[j]? := fun j hj =>
    List.getElem?_append_left (Nat.lt_of_le_of_lt hj hlt)
  have hbefore : levelBefore 0 (rows ++ more) i = levelBefore 0 rows i := by
    cases i with
    | zero => rfl
    | succ i => simp only [levelBefore, levelAt, hsame i (Nat.le_succ i)]
  obtain ⟨hle, hdeeper, hpremise⟩ := h i row ((hsame i (Nat.le_refl i)).trans hrow)
  rw [hbefore] at hle hdeeper
  refine ⟨hle, hdeeper, fun hp j other hj hother => hpremise hp j other hj ?_⟩
  rw [hsame j (Nat.le_of_lt hj), hother]

/-- Levels rise by one from row to row at most, so a row is nested no deeper than it stands. -/
theorem levelAt_le (h : layout.validate = .ok ()) (i : Nat) : layout.levelAt i ≤ i + 1 := by
  induction i with
  | zero =>
    cases hrow : layout[0]? with
    | none => simp [levelAt, hrow]
    | some row =>
      have hle := (validate_eq_ok_iff.1 h 0 row hrow).1
      simpa [levelAt, hrow, levelBefore] using hle
  | succ i ih =>
    cases hrow : layout[i + 1]? with
    | none => simp [levelAt, hrow]
    | some row =>
      have hle := (validate_eq_ok_iff.1 h (i + 1) row hrow).1
      have hlevel : layout.levelAt (i + 1) = row.level := by simp [levelAt, hrow]
      simp only [levelBefore] at hle
      omega

/-! ## Levels of subproofs -/

/-- A row lies in a subproof of each level up to its own. -/
theorem exists_contains_of_level (h : layout.validate = .ok ()) (hi : i < layout.length) {m : Nat}
    (hpos : 0 < m) (hm : m ≤ layout.levelAt i) :
    ∃ a, layout.Contains a i ∧ layout.levelAt a = m := by
  induction i generalizing m with
  | zero =>
    obtain ⟨hle, hdeeper, -⟩ := validate_eq_ok_iff.1 h 0 _ (List.getElem?_eq_getElem hi)
    have hlevel : layout.levelAt 0 = layout[0].level := by simp [levelAt, hi]
    simp only [levelBefore] at hle hdeeper
    have hopens : layout.opens 0 = true := by
      rw [opens_iff]
      exact ⟨by simpa [isAssumption, hi] using hdeeper (by omega), by omega⟩
    exact ⟨0, .self hopens, by omega⟩
  | succ i ih =>
    obtain ⟨hle, hdeeper, -⟩ := validate_eq_ok_iff.1 h (i + 1) _ (List.getElem?_eq_getElem hi)
    have hlevel : layout.levelAt (i + 1) = layout[i + 1].level := by simp [levelAt, hi]
    have hassumption : layout.isAssumption (i + 1) = layout[i + 1].assumption := by
      simp [isAssumption, hi]
    simp only [levelBefore] at hle hdeeper
    -- The row opens the subproof of level `m` itself when it is an assumption of that level.
    by_cases hself : layout.isAssumption (i + 1) = true ∧ m = layout.levelAt (i + 1)
    · exact ⟨i + 1, .self (opens_iff.2 ⟨hself.1, by omega⟩), hself.2.symm⟩
    -- Otherwise the subproof of level `m` stands open at the row before, and this row keeps it so.
    have hprevious : m ≤ layout.levelAt i := by
      by_contra hlt
      exact hself ⟨by rw [hassumption]; exact hdeeper (by omega), by omega⟩
    obtain ⟨a, ha, hlevel_a⟩ := ih (by omega) hpos hprevious
    have hai : a < i + 1 := Nat.lt_succ_of_le ha.le
    refine ⟨a, ⟨ha.opens, Nat.le_of_lt hai, (lt_subproofEnd_iff hai).2 ⟨hi, ?_⟩⟩, hlevel_a⟩
    intro j haj hj
    rcases Nat.lt_succ_iff_lt_or_eq.1 (Nat.lt_succ_of_le hj) with hlt | rfl
    · have hai' : a < i := by omega
      exact ((lt_subproofEnd_iff hai').1 ha.lt_end).2 j haj (by omega)
    · refine ⟨by omega, fun heq => ?_⟩
      by_contra hne
      exact hself ⟨by simpa using hne, by omega⟩

/-- A row stands at the level of the subproof it belongs to. -/
theorem levelAt_home? (h : layout.validate = .ok ()) (hhome : layout.home? i = some b) :
    layout.levelAt b = layout.levelAt i := by
  obtain ⟨hb, -⟩ := home?_eq_some_iff.1 hhome
  have hpos := (opens_iff.1 hb.opens).2
  have hle := hb.level_le
  -- Some subproof around the row has the level of the row; the innermost one is no shallower.
  obtain ⟨a, ha, hlevel⟩ := exists_contains_of_level h hb.lt_length
    (Nat.lt_of_lt_of_le hpos hle) (Nat.le_refl _)
  obtain ⟨b', hhome', -, hab⟩ := ha.exists_home?
  obtain rfl : b = b' := by simpa [hhome] using hhome'
  have := hab.level_le
  omega

/-- Rows at level 0 belong to no subproof, and all others belong to one. -/
theorem home?_eq_none_iff_levelAt (h : layout.validate = .ok ()) (hi : i < layout.length) :
    layout.home? i = none ↔ layout.levelAt i = 0 := by
  rw [home?_eq_none_iff]
  refine ⟨fun hnone => ?_, fun hzero a ha => ?_⟩
  · by_contra hne
    obtain ⟨a, ha, -⟩ := exists_contains_of_level h hi (Nat.pos_of_ne_zero hne) (Nat.le_refl _)
    exact hnone a ha
  · have := ha.level_le
    have := (opens_iff.1 ha.opens).2
    omega

/-- A deeper opener lies in a subproof of the level above its own. -/
theorem exists_contains_above (h : layout.validate = .ok ()) (hk : layout.opens k = true)
    (hdeep : 1 < layout.levelAt k) :
    ∃ a, a ≠ k ∧ layout.Contains a k ∧ layout.levelAt a = layout.levelAt k - 1 := by
  obtain ⟨a, ha, hlevel⟩ := exists_contains_of_level h (lt_length_of_opens hk)
    (m := layout.levelAt k - 1) (by omega) (by omega)
  refine ⟨a, ?_, ha, hlevel⟩
  rintro rfl
  omega

/-- An opener stands one level below the subproof around it. -/
theorem levelAt_enclosing? (h : layout.validate = .ok ()) (hk : layout.opens k = true) :
    layout.levelAt k = ((layout.enclosing? k).map layout.levelAt).getD 0 + 1 := by
  have hassumption := (opens_iff.1 hk).1
  have hpos := (opens_iff.1 hk).2
  cases hinner : layout.enclosing? k with
  | none =>
    by_contra hne
    simp only [Option.map_none, Option.getD_none] at hne
    obtain ⟨a, hak, ha, -⟩ := exists_contains_above h hk (by omega)
    exact enclosing?_eq_none_iff.1 hinner a (Nat.lt_of_le_of_ne ha.le hak) ha
  | some b =>
    obtain ⟨hbk, hb, -⟩ := enclosing?_eq_some_iff.1 hinner
    have hlt := hb.level_lt (Nat.ne_of_lt hbk) hassumption
    have hbpos := (opens_iff.1 hb.opens).2
    obtain ⟨a, hak, ha, hlevel⟩ := exists_contains_above h hk (by omega)
    obtain ⟨b', hinner', -, hab⟩ := ha.exists_enclosing? hak
    obtain rfl : b = b' := by simpa [hinner] using hinner'
    have := hab.level_le
    simp only [Option.map_some, Option.getD_some]
    omega

/-! ## Citations of whole subproofs -/

/-- What a line may cite: an earlier row whose subproof it stands in, or a finished subproof. -/
theorem isAccessible_iff {premise line : Nat} :
    layout.isAccessible premise line = true ↔
      premise < line ∧ line < layout.length ∧ layout.isAssumption line = false ∧
        (layout.within (layout.home? premise) line = true ∨
          layout.isFinishedBeside premise line = true) := by
  simp [isAccessible, and_assoc]

theorem isFinishedBeside_iff {opener line : Nat} :
    layout.isFinishedBeside opener line = true ↔ layout.opens opener = true ∧
      layout.subproofEnd opener ≤ line ∧ layout.enclosing? opener = layout.home? line := by
  simp [isFinishedBeside, and_assoc]

theorem opens_of_isSubproofPremise {premise line : Nat}
    (h : layout.isSubproofPremise premise line = true) : layout.opens premise = true := by
  simp only [isSubproofPremise, Bool.and_eq_true, beq_iff_eq] at h
  exact opens_iff.2 ⟨h.1, by omega⟩

/-- A citation of a whole subproof is one of a finished subproof. -/
theorem isFinishedBeside_of_isSubproofPremise {premise line : Nat}
    (haccessible : layout.isAccessible premise line = true)
    (hsubproof : layout.isSubproofPremise premise line = true) :
    layout.isFinishedBeside premise line = true := by
  obtain ⟨hlt, -, -, hwithin | hbeside⟩ := isAccessible_iff.1 haccessible
  · have hself : layout.Contains premise premise := .self (opens_of_isSubproofPremise hsubproof)
    have hlevel := (contains_of_within hwithin hself).level_le
    simp only [isSubproofPremise, Bool.and_eq_true, beq_iff_eq] at hsubproof
    omega
  · exact hbeside

/-- A citation of a single row is one of a row whose subproof the line stands in. -/
theorem within_of_not_isSubproofPremise (h : layout.validate = .ok ()) {premise line : Nat}
    (haccessible : layout.isAccessible premise line = true)
    (hsubproof : layout.isSubproofPremise premise line = false) :
    layout.within (layout.home? premise) line = true := by
  obtain ⟨hlt, hline, hassumption, hwithin | hbeside⟩ := isAccessible_iff.1 haccessible
  · exact hwithin
  · obtain ⟨hopens, hend, hparent⟩ := isFinishedBeside_iff.1 hbeside
    -- A finished subproof beside the line is one level deeper, so citing it cites a subproof.
    have hlevel := levelAt_enclosing? h hopens
    have hparentLevel : ((layout.enclosing? premise).map layout.levelAt).getD 0 =
        layout.levelAt line := by
      rw [hparent]
      cases hhome : layout.home? line with
      | none => exact ((home?_eq_none_iff_levelAt h hline).1 hhome).symm
      | some b => exact levelAt_home? h hhome
    have : layout.isSubproofPremise premise line = true := by
      simp only [isSubproofPremise, Bool.and_eq_true, beq_iff_eq]
      exact ⟨(opens_iff.1 hopens).1, by omega⟩
    rw [this] at hsubproof
    cases hsubproof

/-! ## Adding a premise -/

theorem firstMisplaced?_eq_none_congr (rows : List Row) (previous : Nat) (onlyPremises : Bool)
    (m n : Nat) : firstMisplaced? previous onlyPremises m rows = none ↔
      firstMisplaced? previous onlyPremises n rows = none := by
  rw [firstMisplaced?_eq_none_iff, firstMisplaced?_eq_none_iff]

/-- A premise after the existing ones never breaks the nesting. -/
theorem validate_insertIdx_premiseCount (h : layout.validate = .ok ()) :
    Layout.validate (layout.insertIdx layout.premiseCount ⟨0, true⟩) = .ok () := by
  have hscan : ∀ (rows : List Row) (n : Nat), firstMisplaced? 0 true n rows = none →
      firstMisplaced? 0 true n
        (rows.insertIdx (rows.takeWhile Row.isPremise).length ⟨0, true⟩) = none := by
    -- The new row goes behind the leading premises, so the induction follows `takeWhile`.
    intro rows
    induction rows with
    | nil => intro n _; rfl
    | cons first rows ih =>
      intro n hrows
      cases hfirst : first.isPremise with
      | true =>
        have hlevel : first.level = 0 := by
          simp only [Row.isPremise, Bool.and_eq_true, beq_iff_eq] at hfirst
          exact hfirst.2
        simp only [List.takeWhile_cons, hfirst, if_true, List.length_cons,
          List.insertIdx_succ_cons]
        rw [firstMisplaced?_cons_eq_none_iff, hfirst, hlevel] at hrows ⊢
        exact ⟨hrows.1, ih (n + 1) hrows.2⟩
      | false =>
        simp only [List.takeWhile_cons, hfirst, Bool.false_eq_true, if_false, List.length_nil,
          List.insertIdx_zero]
        rw [firstMisplaced?_cons_eq_none_iff]
        exact ⟨by simp, (firstMisplaced?_eq_none_congr _ _ _ _ _).1 hrows⟩
  unfold validate at h ⊢
  have hnone : firstMisplaced? 0 true 0 layout = none := by
    cases hfound : firstMisplaced? 0 true 0 layout with
    | none => rfl
    | some index => rw [hfound] at h; cases h
  rw [premiseCount, hscan layout 0 hnone]

end NaturalDeduction.Layout
