/-
  Opening and closing subproofs.

  A subproof is opened one level below a row, behind it and the premises; a
  line behind a subproof is put where the subproof ends. Both places are seams,
  so the rows stay well nested, and the new row lies where it is meant to: the
  opener in the subproof of the row it was opened at, with nothing in its own,
  and the line beside the subproof that it ends.
-/

import NaturalDeduction.Proofs.Layout.Seam

namespace NaturalDeduction.Layout

open Items

variable {layout more : Layout} {row : Row} {a b i k n : Nat}

/-! ## What only the rows before decide -/

/-- Which subproofs contain a row is decided by the rows up to it. -/
theorem contains_congr (hsame : ∀ j ≤ i, more[j]? = layout[j]?) :
    more.Contains a i ↔ layout.Contains a i := by
  suffices himp : ∀ {x y : Layout}, (∀ j ≤ i, x[j]? = y[j]?) → y.Contains a i → x.Contains a i from
    ⟨himp fun j hj => (hsame j hj).symm, himp hsame⟩
  intro x y hxy h
  obtain ⟨hopens, hle, hlt, hkeeps⟩ := contains_iff.1 h
  refine contains_iff.2 ⟨?_, hle, ?_, fun j other haj hji hother => ?_⟩
  · rwa [Layout.opens, hxy a hle]
  · have hrow := (hxy i (Nat.le_refl i)).trans (List.getElem?_eq_getElem hlt)
    exact (List.getElem?_eq_some_iff.1 hrow).1
  · rw [levelAt, hxy a hle]
    exact hkeeps j other haj hji ((hxy j hji).symm.trans hother)

/-- A subproof goes on with the row behind one of its rows unless that row closes its level. -/
theorem contains_succ_iff (han : a ≤ n) (hrow : layout[n + 1]? = some row) :
    layout.Contains a (n + 1) ↔
      layout.Contains a n ∧ row.closes (layout.levelAt a) = false := by
  constructor
  · intro h
    exact ⟨h.of_le han (Nat.le_succ n),
      (contains_iff.1 h).2.2.2 (n + 1) row (Nat.lt_succ_of_le han) (Nat.le_refl _) hrow⟩
  · rintro ⟨h, hopen⟩
    obtain ⟨hopens, -, -, hkeeps⟩ := contains_iff.1 h
    refine contains_iff.2 ⟨hopens, Nat.le_succ_of_le han, (List.getElem?_eq_some_iff.1 hrow).1, ?_⟩
    intro j other haj hj hother
    rcases Nat.eq_or_lt_of_le hj with rfl | hlt
    · obtain rfl : row = other := by simpa [hrow] using hother
      exact hopen
    · exact hkeeps j other haj (Nat.le_of_lt_succ hlt) hother

theorem subproofEnd_eq (h : layout.Contains b n) (hnot : ¬ layout.Contains b (n + 1)) :
    layout.subproofEnd b = n + 1 := by
  have hlt := h.lt_end
  by_contra hne
  exact hnot ⟨h.opens, Nat.le_succ_of_le h.le, by omega⟩

/-- A row that closes the level of a subproof does not lie in it. -/
theorem not_contains_succ (hbn : b ≤ n)
    (h : Closed (layout.levelAt b) (layout.drop (n + 1))) : ¬ layout.Contains b (n + 1) := by
  intro hcontains
  have hrow := List.getElem?_eq_getElem hcontains.lt_length
  have hcloses := h _ (List.head?_drop.trans hrow)
  rw [((contains_succ_iff hbn hrow).1 hcontains).2] at hcloses
  cases hcloses

/-! ## A row put in -/

theorem getElem?_insertIdx_self (hk : k ≤ layout.length) :
    (layout.insertIdx k row)[k]? = some row := by
  rw [List.getElem?_insertIdx_self, if_pos hk]

theorem getElem?_insertIdx_of_le (hik : i < k) :
    ∀ j ≤ i, (layout.insertIdx k row)[j]? = layout[j]? := fun _ hj =>
  List.getElem?_insertIdx_of_lt (Nat.lt_of_le_of_lt hj hik)

theorem drop_succ_insertIdx (hk : k ≤ layout.length) :
    (layout.insertIdx k row).drop (k + 1) = layout.drop k := by
  have hlength : (layout.take k ++ [row]).length = k + 1 := by
    rw [List.length_append, List.length_take, Nat.min_eq_left hk]
    rfl
  rw [insertIdx_eq_append hk, ← hlength, List.drop_left]

theorem levelAt_insertIdx_self (hk : k ≤ layout.length) :
    Layout.levelAt (layout.insertIdx k row) k = row.level := by
  rw [levelAt, getElem?_insertIdx_self hk]
  rfl

theorem levelAt_insertIdx_of_lt (hik : i < k) :
    Layout.levelAt (layout.insertIdx k row) i = layout.levelAt i := by
  rw [levelAt, levelAt, List.getElem?_insertIdx_of_lt hik]

/-- A new row lies in the subproofs of the row before it that it does not close. -/
theorem contains_insertIdx_iff (hn : n + 1 ≤ layout.length) (han : a ≤ n) :
    Contains (layout.insertIdx (n + 1) row) a (n + 1) ↔
      layout.Contains a n ∧ row.closes (layout.levelAt a) = false := by
  rw [contains_succ_iff han (getElem?_insertIdx_self hn),
    contains_congr (getElem?_insertIdx_of_le (Nat.lt_succ_self n)),
    levelAt_insertIdx_of_lt (Nat.lt_succ_of_le han)]

/-- A well nested layout in which a row was put in: the row behind fits the new one. -/
theorem fits_drop_of_insertIdx (hk : k ≤ layout.length)
    (h : Layout.validate (layout.insertIdx k row) = .ok ()) : Fits row.level (layout.drop k) := by
  have hfits := fits_drop h (k + 1)
  rwa [drop_succ_insertIdx hk, levelBefore, levelAt_insertIdx_self hk] at hfits

/-! ## A subproof opened -/

/-- Where a subproof is opened at a row: behind it and the premises. -/
def startIndex (layout : Layout) (index : Nat) : Nat :=
  max (index + 1) layout.premiseCount

theorem premiseCount_le_length (layout : Layout) : layout.premiseCount ≤ layout.length :=
  (List.takeWhile_sublist _).length_le

theorem startIndex_le_length (hi : i < layout.length) : layout.startIndex i ≤ layout.length :=
  Nat.max_le.2 ⟨hi, layout.premiseCount_le_length⟩

theorem isPremise_of_lt_premiseCount (hi : i < layout.premiseCount) :
    ∃ row, layout[i]? = some row ∧ row.isPremise = true := by
  have hat : layout[i]? = (layout.takeWhile Row.isPremise)[i]? := by
    conv_lhs => rw [← List.takeWhile_append_dropWhile (p := Row.isPremise) (l := layout)]
    exact List.getElem?_append_left hi
  exact ⟨_, hat.trans (List.getElem?_eq_getElem hi), List.mem_takeWhile_imp (List.getElem_mem hi)⟩

theorem levelAt_of_lt_premiseCount (hi : i < layout.premiseCount) : layout.levelAt i = 0 := by
  obtain ⟨row, hrow, hpremise⟩ := isPremise_of_lt_premiseCount hi
  simp only [Row.isPremise, Bool.and_eq_true, beq_iff_eq] at hpremise
  rw [levelAt, hrow]
  exact hpremise.2

/-- The row before the place of the opener, which is the row that the subproof is opened at or a
premise like it, stands at its level and belongs to the same subproof. -/
theorem exists_startIndex_eq (h : layout.validate = .ok ()) (i : Nat) :
    ∃ n, layout.startIndex i = n + 1 ∧ layout.levelAt n = layout.levelAt i ∧
      layout.home? n = layout.home? i := by
  rcases Nat.le_total layout.premiseCount (i + 1) with hle | hlt
  · exact ⟨i, Nat.max_eq_left hle, rfl, rfl⟩
  · obtain ⟨n, hn⟩ := Nat.exists_eq_add_of_le' (Nat.lt_of_lt_of_le (Nat.succ_pos i) hlt)
    have hlevel : ∀ {j : Nat}, j < layout.premiseCount →
        layout.levelAt j = 0 ∧ layout.home? j = none := by
      intro j hj
      have hzero := levelAt_of_lt_premiseCount hj
      have hlength := Nat.lt_of_lt_of_le hj layout.premiseCount_le_length
      exact ⟨hzero, (home?_eq_none_iff_levelAt h hlength).2 hzero⟩
    obtain ⟨hlevel_n, hhome_n⟩ := hlevel (show n < layout.premiseCount by omega)
    obtain ⟨hlevel_i, hhome_i⟩ := hlevel (show i < layout.premiseCount by omega)
    exact ⟨n, (Nat.max_eq_right hlt).trans hn, by rw [hlevel_n, hlevel_i],
      by rw [hhome_n, hhome_i]⟩

/-- The row that opens a subproof one level below a row. -/
def startRow (layout : Layout) (index : Nat) : Row := ⟨layout.levelAt index + 1, true⟩

theorem fits_startIndex (h : layout.validate = .ok ()) (i : Nat) :
    Fits (layout.levelAt i) (layout.drop (layout.startIndex i)) := by
  obtain ⟨n, hn, hlevel, -⟩ := exists_startIndex_eq h i
  have hfits := fits_drop h (layout.startIndex i)
  rwa [hn, levelBefore, hlevel, ← hn] at hfits

/-- A subproof may be opened at any row. -/
theorem validate_start (h : layout.validate = .ok ()) (hi : i < layout.length) :
    Layout.validate (layout.insertIdx (layout.startIndex i) (layout.startRow i)) = .ok () := by
  obtain ⟨n, hn, hlevel, -⟩ := exists_startIndex_eq h i
  refine validate_insertIdx h (startIndex_le_length hi) (Nat.le_max_right _ _) ?_ ?_ ?_
  · simp [startRow, Row.isPremise]
  · intro row hrow
    obtain rfl : layout.startRow i = row := by simpa using hrow
    rw [hn, levelBefore, hlevel]
    exact ⟨Nat.le_refl _, fun _ => rfl⟩
  · exact (fits_startIndex h i).of_le (Nat.le_succ _)

theorem sealed_start (h : layout.validate = .ok ()) (i : Nat) :
    Sealed [layout.startRow i] (layout.drop (layout.startIndex i)) :=
  sealed_of_deeper (Nat.lt_succ_self _) (fits_startIndex h i)

theorem opens_start (hi : i < layout.length) :
    Layout.opens (layout.insertIdx (layout.startIndex i) (layout.startRow i))
      (layout.startIndex i) = true := by
  rw [opens, getElem?_insertIdx_self (startIndex_le_length hi)]
  simp [startRow, Row.opensSubproof]

/-- The new subproof holds nothing but its opener. -/
theorem subproofRange_start (h : layout.validate = .ok ()) (hi : i < layout.length) :
    subproofRange (layout.insertIdx (layout.startIndex i) (layout.startRow i))
      (layout.startIndex i) = [layout.startIndex i] := by
  have hopens := opens_start hi
  have hk := startIndex_le_length hi
  have hclosed := (fits_startIndex h i).closed
  have hend := subproofEnd_eq (.self hopens)
    (not_contains_succ (Nat.le_refl _) (by
      rw [levelAt_insertIdx_self hk, drop_succ_insertIdx hk]
      exact hclosed))
  rw [subproofRange, if_pos hopens, hend, Nat.add_sub_cancel_left]
  rfl

/-- The new subproof lies in the innermost subproof of the row that it was opened at. -/
theorem enclosing?_start (h : layout.validate = .ok ()) (hi : i < layout.length) :
    enclosing? (layout.insertIdx (layout.startIndex i) (layout.startRow i))
      (layout.startIndex i) = layout.home? i := by
  obtain ⟨n, hn, hlevel, hhome⟩ := exists_startIndex_eq h i
  have hk := startIndex_le_length hi
  rw [hn] at hk ⊢
  rw [← hhome]
  -- The opener is deeper than every subproof of the row before it, so it closes none of them.
  have hcontains : ∀ a, a < n + 1 → (Contains (layout.insertIdx (n + 1) (layout.startRow i)) a
      (n + 1) ↔ layout.Contains a n) := by
    intro a ha
    rw [contains_insertIdx_iff hk (Nat.le_of_lt_succ ha)]
    refine and_iff_left_of_imp fun hcontains => closes_eq_false_iff.2 ?_
    have := hcontains.level_le
    simp only [startRow]
    exact ⟨by omega, fun heq => by omega⟩
  apply Option.ext
  intro b
  rw [enclosing?_eq_some_iff, home?_eq_some_iff]
  constructor
  · rintro ⟨hb, hbn, hmax⟩
    refine ⟨(hcontains b hb).1 hbn, fun a ha => ?_⟩
    have halt := Nat.lt_succ_of_le ha.le
    exact hmax a halt ((hcontains a halt).2 ha)
  · rintro ⟨hbn, hmax⟩
    have hb := Nat.lt_succ_of_le hbn.le
    refine ⟨hb, (hcontains b hb).2 hbn, fun a ha hcontained => ?_⟩
    exact hmax a ((hcontains a ha).1 hcontained)

/-! ## A line behind a subproof -/

/-- The row of a line behind the subproof that a row opens: one level up, and no assumption. -/
def endRow (layout : Layout) (opener : Nat) : Row := ⟨layout.levelAt opener - 1, false⟩

/-- The last row of a subproof stands right before its end. -/
theorem exists_subproofEnd_eq (hopens : layout.opens b = true) :
    ∃ n, layout.subproofEnd b = n + 1 ∧ layout.Contains b n := by
  have hlt : b < layout.subproofEnd b := lt_subproofEnd_self
  obtain ⟨n, hn⟩ := Nat.exists_eq_add_of_le' (Nat.lt_of_le_of_lt (Nat.zero_le b) hlt)
  exact ⟨n, hn, hopens, by omega, by omega⟩

theorem fits_subproofEnd (hopens : layout.opens b = true) :
    Fits (layout.endRow b).level (layout.drop (layout.subproofEnd b)) := by
  have hclosed := closed_drop_subproofEnd hopens
  have hpos := (opens_iff.1 hopens).2
  rw [show layout.levelAt b = layout.levelAt b - 1 + 1 by omega] at hclosed
  exact hclosed.fits

/-- A line may be put behind any subproof. -/
theorem validate_end (h : layout.validate = .ok ()) (hopens : layout.opens b = true) :
    Layout.validate (layout.insertIdx (layout.subproofEnd b) (layout.endRow b)) = .ok () := by
  obtain ⟨n, hn, hlast⟩ := exists_subproofEnd_eq hopens
  have hbn := hlast.le
  have hlevel := hlast.level_le
  refine validate_insertIdx h (subproofEnd_le_length hopens) ?_ ?_ ?_ (fits_subproofEnd hopens)
  · -- An opener is no premise, so it stands behind them.
    by_contra hlt
    have hzero := levelAt_of_lt_premiseCount (show b < layout.premiseCount by omega)
    have := (opens_iff.1 hopens).2
    omega
  · simp [endRow, Row.isPremise]
  · intro row hrow
    obtain rfl : layout.endRow b = row := by simpa using hrow
    rw [hn, levelBefore]
    simp only [endRow]
    exact ⟨by omega, fun hlt => by omega⟩

theorem sealed_end (hopens : layout.opens b = true) :
    Sealed [layout.endRow b] (layout.drop (layout.subproofEnd b)) :=
  sealed_of_plain (by simp [endRow, Row.opensSubproof]) (fits_subproofEnd hopens)

/-- The subproofs that go on behind another one are those around it. -/
theorem contains_and_level_lt_iff (hlast : layout.Contains b n) :
    layout.Contains a n ∧ layout.levelAt a < layout.levelAt b ↔
      layout.Contains a b ∧ a < b := by
  constructor
  · rintro ⟨ha, hlt⟩
    have hab : a < b := by
      by_contra hnot
      rcases Nat.eq_or_lt_of_le (Nat.le_of_not_lt hnot) with rfl | hba
      · exact Nat.lt_irrefl _ hlt
      · have hinner := hlast.of_le (Nat.le_of_lt hba) ha.le
        have := hinner.level_lt (Nat.ne_of_lt hba) (opens_iff.1 ha.opens).1
        omega
    exact ⟨ha.of_le (Nat.le_of_lt hab) hlast.le, hab⟩
  · rintro ⟨ha, hab⟩
    exact ⟨ha.trans hlast, ha.level_lt (Nat.ne_of_lt hab) (opens_iff.1 hlast.opens).1⟩

/-- The new line lies in the subproofs around the one that it stands behind. -/
theorem contains_end_iff (hopens : layout.opens b = true) (ha : a < layout.subproofEnd b) :
    Contains (layout.insertIdx (layout.subproofEnd b) (layout.endRow b)) a
      (layout.subproofEnd b) ↔ layout.Contains a b ∧ a < b := by
  obtain ⟨n, hn, hlast⟩ := exists_subproofEnd_eq hopens
  have hk := subproofEnd_le_length hopens
  rw [hn] at hk ha ⊢
  rw [contains_insertIdx_iff hk (Nat.le_of_lt_succ ha), ← contains_and_level_lt_iff hlast]
  refine and_congr_right fun hcontains => ?_
  have := (opens_iff.1 hcontains.opens).2
  simp only [closes_eq_false_iff, endRow]
  exact ⟨fun hrow => by omega, fun hlt => ⟨by omega, fun _ => trivial⟩⟩

theorem enclosing?_end (hopens : layout.opens b = true) :
    enclosing? (layout.insertIdx (layout.subproofEnd b) (layout.endRow b))
      (layout.subproofEnd b) = layout.enclosing? b := by
  have hb : b < layout.subproofEnd b := lt_subproofEnd_self
  apply Option.ext
  intro c
  rw [enclosing?_eq_some_iff, enclosing?_eq_some_iff]
  constructor
  · rintro ⟨hc, hcontains, hmax⟩
    obtain ⟨hcb, hlt⟩ := (contains_end_iff hopens hc).1 hcontains
    refine ⟨hlt, hcb, fun a hab ha => ?_⟩
    have halt := Nat.lt_trans hab hb
    exact hmax a halt ((contains_end_iff hopens halt).2 ⟨ha, hab⟩)
  · rintro ⟨hlt, hcb, hmax⟩
    have hc := Nat.lt_trans hlt hb
    refine ⟨hc, (contains_end_iff hopens hc).2 ⟨hcb, hlt⟩, fun a ha hcontains => ?_⟩
    obtain ⟨hab, halt⟩ := (contains_end_iff hopens ha).1 hcontains
    exact hmax a halt hab

/-- The subproof ends where the new line stands. -/
theorem subproofEnd_end (hopens : layout.opens b = true) :
    subproofEnd (layout.insertIdx (layout.subproofEnd b) (layout.endRow b)) b =
      layout.subproofEnd b := by
  have hnot := mt (contains_end_iff hopens lt_subproofEnd_self).1
    (fun h : layout.Contains b b ∧ b < b => Nat.lt_irrefl b h.2)
  obtain ⟨n, hn, hlast⟩ := exists_subproofEnd_eq hopens
  rw [hn] at hnot ⊢
  have hsame : ∀ j ≤ n, (layout.insertIdx (n + 1) (layout.endRow b))[j]? = layout[j]? :=
    getElem?_insertIdx_of_le (Nat.lt_succ_self n)
  exact subproofEnd_eq ((contains_congr hsame).2 hlast) hnot

/-! ## Lines deleted -/

/-- The rows without a row, or without its whole subproof if it opens one. -/
def cut (layout : Layout) (index : Nat) : Layout :=
  layout.take index ++ layout.drop (index + (layout.subproofRange index).length)

theorem length_subproofRange (layout : Layout) (index : Nat) :
    index + (layout.subproofRange index).length =
      if layout.opens index then layout.subproofEnd index else index + 1 := by
  have hlt : index < layout.subproofEnd index := lt_subproofEnd_self
  unfold subproofRange
  split
  · rw [List.length_range']
    omega
  · rfl

/-- The rows of a subproof are rows of the proof. -/
theorem add_length_subproofRange_le (h : index < layout.length) :
    index + (layout.subproofRange index).length ≤ layout.length := by
  rw [length_subproofRange]
  split
  · rename_i hopens
    exact subproofEnd_le_length hopens
  · exact h

/-- Every row may be deleted. -/
theorem validate_cut_subproofRange (h : layout.validate = .ok ()) (hi : i < layout.length) :
    (layout.cut i).validate = .ok () := by
  have hlt : i < layout.subproofEnd i := lt_subproofEnd_self
  have hrow := List.getElem?_eq_getElem hi
  obtain ⟨hle, hdeeper, -⟩ := validate_eq_ok_iff.1 h i _ hrow
  have hlevel : layout.levelAt i = layout[i].level := by simp [levelAt, hi]
  rw [cut, length_subproofRange]
  cases hopens : layout.opens i with
  | true =>
    rw [if_pos rfl]
    refine validate_cut h (Nat.le_of_lt hlt) (Nat.le_of_lt hi) ?_
    exact ((closed_drop_subproofEnd hopens).of_le (hlevel ▸ hle)).fits
  | false =>
    rw [if_neg (by decide)]
    refine validate_cut h (Nat.le_succ i) (Nat.le_of_lt hi) ((fits_drop h (i + 1)).of_le ?_)
    -- Only an opener is deeper than the row before it.
    by_contra hnot
    rw [levelBefore, Nat.not_le, hlevel] at hnot
    have hassumption : layout.isAssumption i = true := by
      simpa [isAssumption, hi] using hdeeper hnot
    rw [opens_iff.2 ⟨hassumption, by omega⟩] at hopens
    cases hopens

theorem sealed_subproofRange (h : layout.validate = .ok ()) (hi : i < layout.length) :
    Sealed ((layout.drop i).take (layout.subproofRange i).length)
      (layout.drop (i + (layout.subproofRange i).length)) := by
  rw [length_subproofRange]
  cases hopens : layout.opens i with
  | true =>
    have hlength : (layout.subproofRange i).length = layout.subproofEnd i - i := by
      rw [subproofRange, if_pos hopens, List.length_range']
    rw [hlength, if_pos rfl]
    exact sealed_subproof hopens
  | false =>
    have hlength : (layout.subproofRange i).length = 1 := by
      rw [subproofRange, hopens]
      rfl
    have hrow : (layout.drop i).take 1 = [layout[i]] := by
      rw [List.drop_eq_getElem_cons hi]
      rfl
    have hfits := fits_drop h (i + 1)
    have hlevel : layout.levelAt i = layout[i].level := by simp [levelAt, hi]
    rw [levelBefore, hlevel] at hfits
    rw [hlength, if_neg (by decide), hrow]
    exact sealed_of_plain (by simpa [opens, hi] using hopens) hfits

end NaturalDeduction.Layout
