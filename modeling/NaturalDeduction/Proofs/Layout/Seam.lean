/-
  Where rows may be put in and taken out.

  Well nested rows stay well nested when the row behind an edit fits the row
  before it, and premises stay at the top. What fits behind a row is what closes
  the level below it, so that the end of a subproof, and the place behind a row
  that opens none, are seams: rows may be put in and taken out there.
-/

import Mathlib.Data.List.TakeWhile
import NaturalDeduction.Proofs.Layout.Pass
import NaturalDeduction.Proofs.Layout.Splice

namespace NaturalDeduction

variable {layout rest rows more before after : Layout} {row : Row} {level previous low i k : Nat}

/-! ## What fits behind a row -/

namespace Items

theorem Closed.of_le (h : Closed level rest) (hle : level ≤ low) : Closed low rest := by
  induction hle with
  | refl => exact h
  | step _ ih => exact ih.succ

theorem Fits.closed (h : Fits level rest) : Closed (level + 1) rest := by
  intro row hrow
  obtain ⟨hle, hdeeper⟩ := h row hrow
  simp only [Row.closes, Bool.or_eq_true, Bool.and_eq_true, decide_eq_true_eq, beq_iff_eq]
  rcases Nat.lt_or_ge level row.level with hlt | hge
  · exact .inr ⟨by omega, hdeeper hlt⟩
  · exact .inl (by omega)

theorem Fits.of_le (h : Fits level rest) (hle : level ≤ low) : Fits low rest :=
  (h.closed.of_le (Nat.succ_le_succ hle)).fits

end Items

namespace Layout

open Items

/-! ## The scan in two parts -/

theorem validate_eq_ok_iff_scan :
    layout.validate = .ok () ↔ firstMisplaced? 0 true 0 layout = none := by
  unfold validate
  cases firstMisplaced? 0 true 0 layout <;> simp

/-- The scan goes on from the last of the first rows. -/
theorem firstMisplaced?_append {onlyPremises : Bool} {index : Nat} :
    firstMisplaced? previous onlyPremises index (rows ++ more) = none ↔
      firstMisplaced? previous onlyPremises index rows = none ∧
        firstMisplaced? (levelBefore previous rows rows.length)
          (onlyPremises && rows.all Row.isPremise) (index + rows.length) more = none := by
  induction rows generalizing previous onlyPremises index with
  | nil => simp [firstMisplaced?, levelBefore]
  | cons first rows ih =>
    rw [List.cons_append, firstMisplaced?_cons_eq_none_iff, firstMisplaced?_cons_eq_none_iff, ih,
      List.length_cons, levelBefore_cons_succ, List.all_cons, Bool.and_assoc,
      show index + 1 + rows.length = index + (rows.length + 1) by omega]
    exact and_assoc.symm

/-- What passes the scan passes it behind another row as well, if it fits there and holds premises
only where there may be some. -/
theorem firstMisplaced?_of_fits (others : Bool) {onlyPremises : Bool} {index : Nat}
    (h : firstMisplaced? previous onlyPremises index rows = none) (hfits : Fits level rows)
    (hothers : ∀ row ∈ rows, row.isPremise = true → others = true) :
    firstMisplaced? level others index rows = none := by
  rw [firstMisplaced?_eq_none_iff] at h ⊢
  intro i row hrow
  obtain ⟨hle, hdeeper, hpremise⟩ := h i row hrow
  have honly : row.isPremise = true → others = true ∧
      ∀ j other, j < i → rows[j]? = some other → other.isPremise = true := fun hp =>
    ⟨hothers row (List.mem_of_getElem? hrow) hp, (hpremise hp).2⟩
  cases i with
  | zero =>
    obtain ⟨hfirst, hrises⟩ := hfits row (by rw [List.head?_eq_getElem?, hrow]; rfl)
    exact ⟨hfirst, hrises, honly⟩
  | succ i => exact ⟨hle, hdeeper, honly⟩

/-- In well nested rows, each row fits behind the one before it. -/
theorem fits_drop (h : layout.validate = .ok ()) (k : Nat) :
    Fits (levelBefore 0 layout k) (layout.drop k) := by
  intro row hrow
  rw [List.head?_drop] at hrow
  obtain ⟨hle, hdeeper, -⟩ := validate_eq_ok_iff.1 h k row hrow
  exact ⟨hle, hdeeper⟩

theorem levelBefore_take (hk : k ≤ layout.length) :
    levelBefore 0 (layout.take k) (layout.take k).length = levelBefore 0 layout k := by
  rw [List.length_take, Nat.min_eq_left hk]
  cases k with
  | zero => rfl
  | succ k =>
    simp only [levelBefore, levelAt]
    rw [List.getElem?_take_of_lt (Nat.lt_succ_self k)]

/-! ## Rows put in and taken out -/

theorem insertIdx_eq_append {α : Type} {as : List α} (hk : k ≤ as.length) (a : α) :
    as.insertIdx k a = as.take k ++ [a] ++ as.drop k := by
  induction as generalizing k with
  | nil =>
    obtain rfl : k = 0 := by simpa using hk
    rfl
  | cons first as ih =>
    cases k with
    | zero => rfl
    | succ k =>
      rw [List.insertIdx_succ_cons, ih (Nat.le_of_succ_le_succ hk)]
      rfl

theorem exists_getElem?_of_mem_take {α : Type} {as : List α} {a : α} {count : Nat}
    (h : a ∈ as.take count) : ∃ j, j < count ∧ as[j]? = some a := by
  obtain ⟨j, hj⟩ := List.mem_iff_getElem?.1 h
  rw [List.getElem?_take] at hj
  split at hj
  · exact ⟨j, ‹_›, hj⟩
  · cases hj

theorem exists_getElem?_of_mem_take_drop {α : Type} {as : List α} {a : α} {first count : Nat}
    (h : a ∈ (as.drop first).take count) : ∃ j, j < count ∧ as[first + j]? = some a := by
  obtain ⟨j, hlt, hj⟩ := exists_getElem?_of_mem_take h
  rw [List.getElem?_drop] at hj
  exact ⟨j, hlt, hj⟩

/-- Behind the premises stands no premise. -/
theorem isPremise_eq_false (h : layout.validate = .ok ()) (hk : layout.premiseCount ≤ k) :
    ∀ row ∈ layout.drop k, row.isPremise = false := by
  intro row hmem
  obtain ⟨j, hj⟩ := List.mem_iff_getElem?.1 hmem
  rw [List.getElem?_drop] at hj
  cases hpremise : row.isPremise with
  | false => rfl
  | true =>
    -- All rows up to a premise are premises, so the premises at the top reach beyond it.
    have hbefore := (validate_eq_ok_iff.1 h (k + j) row hj).2.2 hpremise
    have hall : ∀ other ∈ layout.take (k + j + 1), other.isPremise = true := by
      intro other hother
      obtain ⟨n, hlt, hn⟩ := exists_getElem?_of_mem_take hother
      rcases Nat.lt_succ_iff_lt_or_eq.1 hlt with hless | rfl
      · exact hbefore n other hless hn
      · obtain rfl : row = other := by simpa [hj] using hn
        exact hpremise
    have hlength := (List.getElem?_eq_some_iff.1 hj).1
    have hcount : k + j + 1 ≤ layout.premiseCount := by
      unfold premiseCount
      conv_rhs => rw [← List.take_append_drop (k + j + 1) layout]
      rw [List.takeWhile_append_of_pos hall, List.length_append, List.length_take]
      omega
    omega

/-- A row that fits, and that the row behind it fits, may be put in below the premises. -/
theorem validate_insertIdx (h : layout.validate = .ok ()) (hk : k ≤ layout.length)
    (hcount : layout.premiseCount ≤ k) (hpremise : row.isPremise = false)
    (hrow : Fits (levelBefore 0 layout k) [row]) (hafter : Fits row.level (layout.drop k)) :
    Layout.validate (layout.insertIdx k row) = .ok () := by
  have hsplit := validate_eq_ok_iff_scan.1 h
  conv at hsplit => rw [← List.take_append_drop k layout]
  obtain ⟨hbefore, hbehind⟩ := firstMisplaced?_append.1 hsplit
  have hnone := isPremise_eq_false h hcount
  rw [validate_eq_ok_iff_scan, insertIdx_eq_append hk, List.append_assoc, firstMisplaced?_append]
  refine ⟨hbefore, ?_⟩
  obtain ⟨hle, hdeeper⟩ := hrow row rfl
  rw [List.singleton_append, firstMisplaced?_cons_eq_none_iff, levelBefore_take hk]
  refine ⟨⟨hle, hdeeper, by simp [hpremise]⟩, ?_⟩
  have hscan := firstMisplaced?_of_fits
    ((true && (layout.take k).all Row.isPremise) && row.isPremise) hbehind hafter
    fun other hother hp => absurd hp (by simp [hnone other hother])
  exact (firstMisplaced?_eq_none_congr _ _ _ _ _).1 hscan

/-- Rows may be taken out when what stands behind them fits what stands before them. -/
theorem validate_cut (h : layout.validate = .ok ()) {first : Nat} (hfirst : first ≤ k)
    (hlength : first ≤ layout.length)
    (hafter : Fits (levelBefore 0 layout first) (layout.drop k)) :
    Layout.validate (layout.take first ++ layout.drop k) = .ok () := by
  have hsplit : layout = layout.take first ++ ((layout.drop first).take (k - first) ++
      layout.drop k) := by
    conv_rhs => rw [show layout.drop k = (layout.drop first).drop (k - first) by
      rw [List.drop_drop, Nat.add_sub_cancel' hfirst]]
    rw [List.take_append_drop, List.take_append_drop]
  have hscan := validate_eq_ok_iff_scan.1 h
  rw [hsplit] at hscan
  obtain ⟨hbefore, hrest⟩ := firstMisplaced?_append.1 hscan
  obtain ⟨-, hbehind⟩ := firstMisplaced?_append.1 hrest
  rw [validate_eq_ok_iff_scan, firstMisplaced?_append]
  refine ⟨hbefore, ?_⟩
  rw [levelBefore_take hlength]
  refine (firstMisplaced?_eq_none_congr _ _ _ _ _).1
    (firstMisplaced?_of_fits _ hbehind hafter fun row hmem hp => ?_)
  -- A premise behind the cut says that only premises stand before it.
  obtain ⟨n, hn⟩ := List.mem_iff_getElem?.1 hmem
  have honly := (((firstMisplaced?_eq_none_iff _ _ _ _).1 hbehind n row hn).2.2 hp).1
  rw [Bool.and_eq_true] at honly
  exact honly.1

/-! ## Sealed rows -/

/-- Rows that close no level above `low` are sealed by a row that closes `low`. -/
theorem Sealed.of_closed {extra : Layout} (hextra : ∀ row ∈ extra, ∀ level, 0 < level →
    row.closes level = true → low ≤ level) (hafter : Closed low after) : Sealed extra after :=
  fun row hmem level hlevel hcloses => hafter.of_le (hextra row hmem level hlevel hcloses)

theorem le_of_closes (h : row.closes level = true) : row.level ≤ level := by
  simp only [Row.closes, Bool.or_eq_true, Bool.and_eq_true, decide_eq_true_eq, beq_iff_eq] at h
  omega

/-- A row that opens no subproof closes only levels below its own. -/
theorem lt_of_closes (hplain : row.opensSubproof = false) (hlevel : 0 < level)
    (h : row.closes level = true) : row.level < level := by
  simp only [Row.closes, Bool.or_eq_true, Bool.and_eq_true, decide_eq_true_eq, beq_iff_eq] at h
  simp only [Row.opensSubproof, Bool.and_eq_false_iff, decide_eq_false_iff_not] at hplain
  rcases h with hlt | ⟨heq, hassumption⟩
  · exact hlt
  · rcases hplain with hnot | hzero
    · rw [hassumption] at hnot
      cases hnot
    · omega

theorem sealed_of_plain (hplain : row.opensSubproof = false) (hafter : Fits row.level after) :
    Sealed [row] after := by
  refine Sealed.of_closed (fun other hmem level hlevel hcloses => ?_) hafter.closed
  obtain rfl : other = row := by simpa using hmem
  exact lt_of_closes hplain hlevel hcloses

theorem sealed_of_deeper (hrow : level < row.level) (hafter : Fits level after) :
    Sealed [row] after := by
  refine Sealed.of_closed (fun other hmem level' _ hcloses => ?_) hafter.closed
  obtain rfl : other = row := by simpa using hmem
  have := le_of_closes hcloses
  omega

/-- The row behind a subproof closes its level. -/
theorem closed_drop_subproofEnd (hopens : layout.opens k = true) :
    Closed (layout.levelAt k) (layout.drop (layout.subproofEnd k)) := by
  intro row hrow
  rw [List.head?_drop] at hrow
  have hlength := (List.getElem?_eq_some_iff.1 hrow).1
  cases hcloses : row.closes (layout.levelAt k) with
  | true => rfl
  | false =>
    -- Otherwise the subproof would hold this row as well.
    have hcontains : layout.Contains k (layout.subproofEnd k) := by
      refine contains_iff.2 ⟨hopens, Nat.le_of_lt lt_subproofEnd_self, hlength, ?_⟩
      intro j other hkj hj hother
      rcases Nat.eq_or_lt_of_le hj with rfl | hlt
      · obtain rfl : row = other := by
          rw [Option.mem_def, hother] at hrow
          exact (Option.some.inj hrow).symm
        exact hcloses
      · have hj : layout.Contains k j := ⟨hopens, Nat.le_of_lt hkj, hlt⟩
        exact (contains_iff.1 hj).2.2.2 j other hkj (Nat.le_refl j) hother
    exact absurd hcontains.lt_end (Nat.lt_irrefl _)

/-- The rows of a subproof are sealed by the row behind it. -/
theorem sealed_subproof (hopens : layout.opens k = true) :
    Sealed ((layout.drop k).take (layout.subproofEnd k - k))
      (layout.drop (layout.subproofEnd k)) := by
  refine Sealed.of_closed (fun row hmem level _ hcloses => ?_) (closed_drop_subproofEnd hopens)
  obtain ⟨j, hlt, hj⟩ := exists_getElem?_of_mem_take_drop hmem
  have hcontains : layout.Contains k (k + j) := ⟨hopens, Nat.le_add_right k j, by omega⟩
  have hlevel : layout.levelAt (k + j) = row.level := by rw [levelAt, hj]; rfl
  have := hcontains.level_le
  have := le_of_closes hcloses
  omega

end Layout

end NaturalDeduction
