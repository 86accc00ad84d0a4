/-
  Rows put in between others.

  A splice is a layout cut in two with some rows in between. These rows are
  sealed when they end no subproof that goes on behind them: every level that
  one of them closes is closed by the row behind them as well. Then the other
  rows have the same subproofs around them whether or not the rows in between
  are there, and may cite each other just the same.
-/

import NaturalDeduction.Proofs.Layout.Tree

namespace NaturalDeduction.Layout

variable {layout : Layout} {a i : Nat}

/-- A subproof goes on as long as no row closes its level. -/
theorem contains_iff : layout.Contains a i ↔ layout.opens a = true ∧ a ≤ i ∧ i < layout.length ∧
    ∀ j row, a < j → j ≤ i → layout[j]? = some row →
      row.closes (layout.levelAt a) = false := by
  have hrow : ∀ {j : Nat} {row : Row}, layout[j]? = some row →
      (row.closes (layout.levelAt a) = false ↔ layout.levelAt a ≤ layout.levelAt j ∧
        (layout.levelAt j = layout.levelAt a → layout.isAssumption j = false)) := by
    intro j row hj
    rw [closes_eq_false_iff]
    simp [levelAt, isAssumption, hj]
  constructor
  · intro h
    refine ⟨h.opens, h.le, h.lt_length, fun j row haj hji hj => (hrow hj).2 ?_⟩
    have hai : a < i := Nat.lt_of_lt_of_le haj hji
    exact ((lt_subproofEnd_iff hai).1 h.lt_end).2 j haj hji
  · rintro ⟨hopens, hle, hlength, hkeeps⟩
    refine ⟨hopens, hle, ?_⟩
    rcases Nat.eq_or_lt_of_le hle with rfl | hlt
    · exact lt_subproofEnd_self
    · refine (lt_subproofEnd_iff hlt).2 ⟨hlength, fun j haj hji => ?_⟩
      have hj := List.getElem?_eq_getElem (Nat.lt_of_le_of_lt hji hlength)
      exact (hrow hj).1 (hkeeps j _ haj hji hj)

/-- What a line may cite, said by the subproofs that contain it. -/
theorem isAccessible_iff_contains {premise line : Nat} :
    layout.isAccessible premise line = true ↔
      premise < line ∧ line < layout.length ∧ layout.isAssumption line = false ∧
        ((∀ b, layout.home? premise = some b → layout.Contains b line) ∨
          layout.opens premise = true ∧ ¬ layout.Contains premise line ∧
            layout.enclosing? premise = layout.home? line) := by
  rw [isAccessible_iff, isFinishedBeside_iff]
  refine and_congr_right fun hlt => and_congr_right fun hlength => and_congr_right fun _ => ?_
  refine or_congr ?_ (and_congr_right fun hopens => and_congr_left fun _ => ?_)
  · cases hhome : layout.home? premise with
    | none => simp [within, hlength]
    | some b =>
      have hb := (home?_eq_some_iff.1 hhome).1
      simp only [within, Bool.and_eq_true, decide_eq_true_eq, Option.some.injEq]
      constructor
      · rintro ⟨hle, hend⟩ c rfl
        exact ⟨hb.opens, hle, hend⟩
      · intro h
        exact ⟨(h b rfl).le, (h b rfl).lt_end⟩
  · rw [← Nat.not_lt]
    exact not_congr ⟨fun hend => ⟨hopens, Nat.le_of_lt hlt, hend⟩, fun h => h.lt_end⟩

/-! ## Splices -/

/-- Where the element at an index stands after `count` others were put in front of the one at
`first`. -/
def shifted (first count index : Nat) : Nat :=
  if index < first then index else index + count

theorem getElem?_shifted {α : Type} (before extra after : List α) (index : Nat) :
    (before ++ extra ++ after)[shifted before.length extra.length index]? =
      (before ++ after)[index]? := by
  unfold shifted
  split
  · rename_i hlt
    rw [List.append_assoc, List.getElem?_append_left hlt, List.getElem?_append_left hlt]
  · rename_i hge
    have hle : before.length ≤ index := Nat.le_of_not_lt hge
    have hbehind : (before ++ extra).length ≤ index + extra.length := by
      rw [List.length_append]
      omega
    rw [List.getElem?_append_right hbehind, List.getElem?_append_right hle, List.length_append]
    exact congrArg (after[·]?) (by omega)

/-- Rows in front of others end no subproof which goes on behind them. -/
def Sealed (extra after : Layout) : Prop :=
  ∀ row ∈ extra, ∀ level, 0 < level → row.closes level = true → Items.Closed level after

/-- Rows between others, that end no subproof which goes on behind them. -/
structure Splice where
  before : Layout
  extra : Layout
  after : Layout
  isSealed : Sealed extra after

namespace Splice

variable (s : Splice)

/-- All rows. -/
def whole : Layout := s.before ++ s.extra ++ s.after

/-- The rows around those in between. -/
def rest : Layout := s.before ++ s.after

/-- Where a row of the rest stands among all rows. -/
def place (index : Nat) : Nat :=
  shifted s.before.length s.extra.length index

variable {s} {i j k : Nat}

theorem place_of_lt (h : i < s.before.length) : s.place i = i := if_pos h

theorem place_of_le (h : s.before.length ≤ i) : s.place i = i + s.extra.length :=
  if_neg (Nat.not_lt.2 h)

theorem place_lt_place_iff : s.place i < s.place j ↔ i < j := by
  unfold place shifted
  split <;> split <;> omega

theorem place_le_place_iff : s.place i ≤ s.place j ↔ i ≤ j := by
  rw [← Nat.not_lt, ← Nat.not_lt, place_lt_place_iff]

theorem place_injective (s : Splice) : Function.Injective s.place := fun _ _ h =>
  Nat.le_antisymm (place_le_place_iff.1 (Nat.le_of_eq h))
    (place_le_place_iff.1 (Nat.le_of_eq h.symm))

/-- Every row stands where one of the rest does, or in between. -/
theorem exists_place_or_between (s : Splice) (k : Nat) :
    (∃ i, s.place i = k) ∨ s.before.length ≤ k ∧ k < s.before.length + s.extra.length := by
  rcases Nat.lt_or_ge k s.before.length with hlt | hge
  · exact .inl ⟨k, place_of_lt hlt⟩
  · rcases Nat.lt_or_ge k (s.before.length + s.extra.length) with hlt | hbehind
    · exact .inr ⟨hge, hlt⟩
    · refine .inl ⟨k - s.extra.length, ?_⟩
      rw [place_of_le (by omega)]
      omega

@[simp] theorem getElem?_place (s : Splice) (i : Nat) : s.whole[s.place i]? = s.rest[i]? :=
  getElem?_shifted s.before s.extra s.after i

@[simp] theorem levelAt_place (s : Splice) (i : Nat) :
    s.whole.levelAt (s.place i) = s.rest.levelAt i := by
  rw [levelAt, levelAt, getElem?_place]

@[simp] theorem isAssumption_place (s : Splice) (i : Nat) :
    s.whole.isAssumption (s.place i) = s.rest.isAssumption i := by
  rw [isAssumption, isAssumption, getElem?_place]

@[simp] theorem opens_place (s : Splice) (i : Nat) :
    s.whole.opens (s.place i) = s.rest.opens i := by
  rw [opens, opens, getElem?_place]

theorem place_lt_length_iff : s.place i < s.whole.length ↔ i < s.rest.length := by
  simp only [whole, rest, place, shifted, List.length_append]
  split <;> omega

/-! ## Subproofs in a splice -/

theorem mem_extra {row : Row} (hle : s.before.length ≤ k)
    (hlt : k < s.before.length + s.extra.length) (hrow : s.whole[k]? = some row) :
    row ∈ s.extra := by
  rw [whole, List.append_assoc, List.getElem?_append_right hle,
    List.getElem?_append_left (by omega)] at hrow
  exact List.mem_of_getElem? hrow

/-- No row in between closes a level that the row behind keeps open. -/
theorem closes_eq_false_of_between {row head : Row} {level : Nat} (hle : s.before.length ≤ k)
    (hlt : k < s.before.length + s.extra.length) (hrow : s.whole[k]? = some row)
    (hlevel : 0 < level) (hhead : s.after.head? = some head) (hopen : head.closes level = false) :
    row.closes level = false := by
  cases hcloses : row.closes level with
  | false => rfl
  | true =>
    have hclosed := s.isSealed row (mem_extra hle hlt hrow) level hlevel hcloses head hhead
    rw [hopen] at hclosed
    cases hclosed

/-- The row behind those in between. -/
theorem exists_head? (hle : s.before.length ≤ i) (hlt : i < s.rest.length) :
    ∃ head, s.after.head? = some head ∧ s.rest[s.before.length]? = some head := by
  rw [rest, List.length_append] at hlt
  have hpos : 0 < s.after.length := by omega
  refine ⟨s.after[0], by rw [List.head?_eq_getElem?, List.getElem?_eq_getElem hpos], ?_⟩
  rw [rest, List.getElem?_append_right (Nat.le_refl _), Nat.sub_self, List.getElem?_eq_getElem hpos]

/-- The rest has the same subproofs with the rows in between as without them. -/
theorem contains_place_iff {a : Nat} :
    s.whole.Contains (s.place a) (s.place i) ↔ s.rest.Contains a i := by
  rw [contains_iff, contains_iff, opens_place, place_le_place_iff, place_lt_length_iff,
    levelAt_place]
  refine and_congr_right fun hopens => and_congr_right fun hle => and_congr_right fun hlt => ?_
  constructor
  · intro h j row haj hji hrow
    exact h (s.place j) row (place_lt_place_iff.2 haj) (place_le_place_iff.2 hji)
      ((s.getElem?_place j).trans hrow)
  · intro h k row hak hki hrow
    rcases s.exists_place_or_between k with ⟨j, rfl⟩ | ⟨hge, hbetween⟩
    · exact h j row (place_lt_place_iff.1 hak) (place_le_place_iff.1 hki)
        ((s.getElem?_place j).symm.trans hrow)
    · -- The row behind those in between lies in the subproof, so it keeps it open.
      have hbefore : a < s.before.length := by
        by_contra hnot
        rw [place_of_le (Nat.le_of_not_lt hnot)] at hak
        omega
      have hbehind : s.before.length ≤ i := by
        by_contra hnot
        rw [place_of_lt (Nat.lt_of_not_le hnot)] at hki
        omega
      obtain ⟨head, hhead, hat⟩ := exists_head? hbehind hlt
      have hlevel := (opens_iff.1 hopens).2
      exact closes_eq_false_of_between hge hbetween hrow hlevel hhead
        (h _ head hbefore hbehind hat)

/-- No subproof that is opened in between goes on behind. -/
theorem exists_place_of_contains (h : s.whole.Contains k (s.place i)) : ∃ a, s.place a = k := by
  rcases s.exists_place_or_between k with hplace | ⟨hge, hbetween⟩
  · exact hplace
  · exfalso
    obtain ⟨hopens, hle, hlt, hkeeps⟩ := contains_iff.1 h
    have hbehind : s.before.length ≤ i := by
      by_contra hnot
      rw [place_of_lt (Nat.lt_of_not_le hnot)] at hle
      omega
    obtain ⟨head, hhead, hat⟩ := exists_head? hbehind (place_lt_length_iff.1 hlt)
    obtain ⟨row, hrow, hopener⟩ := (Option.any_eq_true _ _).1 hopens
    have hlevel : s.whole.levelAt k = row.level := by rw [levelAt, hrow]; rfl
    have hfirst : s.place s.before.length = s.before.length + s.extra.length :=
      place_of_le (Nat.le_refl _)
    -- An opener closes its own level, but the row behind lies in its subproof.
    simp only [Row.opensSubproof, Bool.and_eq_true, decide_eq_true_eq] at hopener
    have hopen := hkeeps (s.place s.before.length) head (by omega) (place_le_place_iff.2 hbehind)
      ((s.getElem?_place _).trans hat)
    rw [hlevel] at hopen
    have hself := closes_eq_false_of_between hge hbetween hrow hopener.2 hhead hopen
    simp [Row.closes, hopener.1] at hself

theorem contains_place_iff_exists : s.whole.Contains k (s.place i) ↔
    ∃ a, s.place a = k ∧ s.rest.Contains a i := by
  constructor
  · intro h
    obtain ⟨a, rfl⟩ := exists_place_of_contains h
    exact ⟨a, rfl, contains_place_iff.1 h⟩
  · rintro ⟨a, rfl, h⟩
    exact contains_place_iff.2 h

@[simp] theorem home?_place (s : Splice) (i : Nat) :
    s.whole.home? (s.place i) = (s.rest.home? i).map s.place := by
  cases hhome : s.rest.home? i with
  | none =>
    rw [home?_eq_none_iff] at hhome
    refine home?_eq_none_iff.2 fun k hk => ?_
    obtain ⟨a, -, ha⟩ := contains_place_iff_exists.1 hk
    exact hhome a ha
  | some b =>
    obtain ⟨hb, hmax⟩ := home?_eq_some_iff.1 hhome
    refine home?_eq_some_iff.2 ⟨contains_place_iff.2 hb, fun k hk => ?_⟩
    obtain ⟨a, rfl, ha⟩ := contains_place_iff_exists.1 hk
    exact place_le_place_iff.2 (hmax a ha)

@[simp] theorem enclosing?_place (s : Splice) (i : Nat) :
    s.whole.enclosing? (s.place i) = (s.rest.enclosing? i).map s.place := by
  cases hinner : s.rest.enclosing? i with
  | none =>
    rw [enclosing?_eq_none_iff] at hinner
    refine enclosing?_eq_none_iff.2 fun k hlt hk => ?_
    obtain ⟨a, rfl, ha⟩ := contains_place_iff_exists.1 hk
    exact hinner a (place_lt_place_iff.1 hlt) ha
  | some b =>
    obtain ⟨hlt, hb, hmax⟩ := enclosing?_eq_some_iff.1 hinner
    refine enclosing?_eq_some_iff.2
      ⟨place_lt_place_iff.2 hlt, contains_place_iff.2 hb, fun k hlt hk => ?_⟩
    obtain ⟨a, rfl, ha⟩ := contains_place_iff_exists.1 hk
    exact place_le_place_iff.2 (hmax a (place_lt_place_iff.1 hlt) ha)

/-- A line of the rest may cite another one with the rows in between just when it may without. -/
@[simp] theorem isAccessible_place (s : Splice) (premise line : Nat) :
    s.whole.isAccessible (s.place premise) (s.place line) = s.rest.isAccessible premise line := by
  have hsame : ∀ a? b? : Option Nat, a?.map s.place = b?.map s.place ↔ a? = b? := by
    intro a? b?
    cases a? <;> cases b? <;> simp [s.place_injective.eq_iff]
  rw [Bool.eq_iff_iff, isAccessible_iff_contains, isAccessible_iff_contains, place_lt_place_iff,
    place_lt_length_iff, isAssumption_place, opens_place, contains_place_iff, enclosing?_place,
    home?_place, home?_place, hsame]
  refine and_congr_right fun _ => and_congr_right fun _ => and_congr_right fun _ =>
    or_congr_left ?_
  cases s.rest.home? premise with
  | none => simp
  | some b => simp [contains_place_iff]

end Splice

end NaturalDeduction.Layout
