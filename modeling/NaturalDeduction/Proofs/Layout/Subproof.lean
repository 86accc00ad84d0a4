/-
  Which rows a subproof holds.

  `Contains layout opener index` says that the row at `index` lies in the
  subproof that the row at `opener` opens. Subproofs are nested or disjoint,
  and levels grow strictly from an opener to the openers inside its subproof.
  `home?` and `enclosing?` are characterised as the last opener whose subproof
  contains a row.
-/

import Mathlib.Tactic.Common
import NaturalDeduction.Layout.Scope

namespace NaturalDeduction.Layout

variable {layout : Layout} {a b i k : Nat}

/-! ## Rows one at a time -/

theorem lt_length_of_isAssumption (h : layout.isAssumption a = true) : a < layout.length := by
  by_contra hle
  simp [isAssumption, List.getElem?_eq_none (Nat.le_of_not_lt hle)] at h

theorem opens_iff :
    layout.opens a = true ↔ layout.isAssumption a = true ∧ 0 < layout.levelAt a := by
  cases h : layout[a]? <;> simp [opens, isAssumption, levelAt, Row.opensSubproof, h]

theorem lt_length_of_opens (h : layout.opens a = true) : a < layout.length :=
  lt_length_of_isAssumption (opens_iff.1 h).1

/-- A row keeps a subproof open when it is deeper than the opener, or as deep and no assumption. -/
theorem closes_eq_false_iff {row : Row} {level : Nat} :
    row.closes level = false ↔
      level ≤ row.level ∧ (row.level = level → row.assumption = false) := by
  simp [Row.closes, decide_eq_false_iff_not]

/-! ## Ends of subproofs -/

/-- Before the end of a subproof stand the rows up to which nothing ends it: each is deeper than the
opener, or as deep and no assumption. -/
theorem lt_subproofEnd_iff (hai : a < i) :
    i < layout.subproofEnd a ↔ i < layout.length ∧ ∀ j, a < j → j ≤ i →
      layout.levelAt a ≤ layout.levelAt j ∧
        (layout.levelAt j = layout.levelAt a → layout.isAssumption j = false) := by
  -- Counted from the row after the opener, the end is the first row that closes the subproof.
  have hlen : i < layout.subproofEnd a ↔
      i - (a + 1) < ((layout.drop (a + 1)).takeWhile
        fun row => !row.closes (layout.levelAt a)).length := by
    simp only [subproofEnd]
    omega
  rw [hlen, List.takeWhile_eq_take_findIdx_not, List.length_take,
    Nat.min_eq_left List.findIdx_le_length, List.lt_findIdx_iff]
  constructor
  · rintro ⟨hi, h⟩
    rw [List.length_drop] at hi
    refine ⟨by omega, fun j haj hji => ?_⟩
    have hj := h (j - (a + 1)) (by omega)
    have hlt : j < layout.length := by omega
    rw [List.getElem_drop] at hj
    simp only [show a + 1 + (j - (a + 1)) = j by omega] at hj
    rw [Bool.not_not, closes_eq_false_iff] at hj
    simpa [levelAt, isAssumption, hlt] using hj
  · rintro ⟨hi, h⟩
    refine ⟨by rw [List.length_drop]; omega, fun j hj => ?_⟩
    have hlt : a + 1 + j < layout.length := by omega
    have hrow := h (a + 1 + j) (by omega) (by omega)
    rw [List.getElem_drop, Bool.not_not, closes_eq_false_iff]
    simpa [levelAt, isAssumption, hlt] using hrow

theorem lt_subproofEnd_self : a < layout.subproofEnd a := by
  simp only [subproofEnd]
  omega

/-! ## Containment -/

/-- The row at `index` lies in the subproof that the row at `opener` opens, the opener included. -/
structure Contains (layout : Layout) (opener index : Nat) : Prop where
  opens : layout.opens opener = true
  le : opener ≤ index
  lt_end : index < layout.subproofEnd opener

namespace Contains

theorem self (h : layout.opens a = true) : layout.Contains a a :=
  ⟨h, Nat.le_refl a, lt_subproofEnd_self⟩

theorem lt_length (h : layout.Contains a i) : i < layout.length := by
  rcases Nat.eq_or_lt_of_le h.le with rfl | hlt
  · exact lt_length_of_opens h.opens
  · exact ((lt_subproofEnd_iff hlt).1 h.lt_end).1

/-- A subproof has no gaps. -/
theorem of_le (h : layout.Contains a i) (hak : a ≤ k) (hki : k ≤ i) : layout.Contains a k :=
  ⟨h.opens, hak, Nat.lt_of_le_of_lt hki h.lt_end⟩

theorem level_le (h : layout.Contains a i) : layout.levelAt a ≤ layout.levelAt i := by
  rcases Nat.eq_or_lt_of_le h.le with rfl | hlt
  · exact Nat.le_refl _
  · exact (((lt_subproofEnd_iff hlt).1 h.lt_end).2 i hlt (Nat.le_refl i)).1

/-- The assumptions inside a subproof are deeper than its opener. -/
theorem level_lt (h : layout.Contains a i) (hne : a ≠ i) (hi : layout.isAssumption i = true) :
    layout.levelAt a < layout.levelAt i := by
  have hlt : a < i := Nat.lt_of_le_of_ne h.le hne
  have hrow := ((lt_subproofEnd_iff hlt).1 h.lt_end).2 i hlt (Nat.le_refl i)
  refine Nat.lt_of_le_of_ne hrow.1 fun heq => ?_
  rw [hrow.2 heq.symm] at hi
  cases hi

/-- A subproof inside another one ends no later. -/
theorem trans (hab : layout.Contains a b) (hbi : layout.Contains b i) : layout.Contains a i := by
  rcases Nat.eq_or_lt_of_le hab.le with rfl | hlt
  · exact hbi
  have hlevel := hab.level_lt (Nat.ne_of_lt hlt) (opens_iff.1 hbi.opens).1
  have hai : a < i := Nat.lt_of_lt_of_le hlt hbi.le
  refine ⟨hab.opens, Nat.le_of_lt hai, (lt_subproofEnd_iff hai).2 ⟨hbi.lt_length, ?_⟩⟩
  intro j haj hji
  -- Rows up to the inner opener keep the outer subproof open; later ones are deeper than it.
  rcases Nat.lt_or_ge b j with hbj | hjb
  · have hj := (hbi.of_le (Nat.le_of_lt hbj) hji).level_le
    exact ⟨by omega, fun heq => by omega⟩
  · exact ((lt_subproofEnd_iff hlt).1 hab.lt_end).2 j haj hjb

end Contains

/-! ## Innermost subproofs -/

theorem find?_reverse_range_eq_some {n : Nat} {p : Nat → Bool} :
    (List.range n).reverse.find? p = some b ↔
      b < n ∧ p b = true ∧ ∀ c, c < n → p c = true → c ≤ b := by
  -- The search goes from the last number to the first, so the induction takes the last one off.
  induction n with
  | zero => simp
  | succ n ih =>
    rw [List.range_succ, List.reverse_append, List.reverse_singleton, List.singleton_append,
      List.find?_cons]
    cases hn : p n with
    | true =>
      refine ⟨fun h => ?_, fun ⟨hb, hpb, hmax⟩ => ?_⟩
      · obtain rfl : n = b := by simpa using h
        exact ⟨by omega, hn, fun c hc _ => by omega⟩
      · have := hmax n (by omega) hn
        exact congrArg some (by omega)
    | false =>
      simp only [ih]
      refine ⟨fun ⟨hb, hpb, hmax⟩ => ⟨by omega, hpb, fun c hc hpc => ?_⟩,
        fun ⟨hb, hpb, hmax⟩ => ⟨?_, hpb, fun c hc hpc => hmax c (by omega) hpc⟩⟩
      · rcases Nat.lt_succ_iff_lt_or_eq.1 hc with hlt | rfl
        · exact hmax c hlt hpc
        · rw [hn] at hpc
          cases hpc
      · refine Nat.lt_of_le_of_ne (by omega) ?_
        rintro rfl
        rw [hn] at hpb
        cases hpb

/-- The innermost subproof around a row is the last one opened before it that contains it. -/
theorem enclosing?_eq_some_iff :
    layout.enclosing? i = some b ↔
      b < i ∧ layout.Contains b i ∧ ∀ a, a < i → layout.Contains a i → a ≤ b := by
  rw [enclosing?, find?_reverse_range_eq_some]
  simp only [Bool.and_eq_true, decide_eq_true_eq]
  refine ⟨fun ⟨hlt, ⟨hopens, hend⟩, hmax⟩ => ?_, fun ⟨hlt, hcontains, hmax⟩ => ?_⟩
  · exact ⟨hlt, ⟨hopens, Nat.le_of_lt hlt, hend⟩,
      fun a ha hcontains => hmax a ha ⟨hcontains.opens, hcontains.lt_end⟩⟩
  · exact ⟨hlt, ⟨hcontains.opens, hcontains.lt_end⟩,
      fun a ha ⟨hopens, hend⟩ => hmax a ha ⟨hopens, Nat.le_of_lt ha, hend⟩⟩

theorem enclosing?_eq_none_iff :
    layout.enclosing? i = none ↔ ∀ a, a < i → ¬ layout.Contains a i := by
  simp only [enclosing?, List.find?_eq_none, List.mem_reverse, List.mem_range, Bool.and_eq_true,
    decide_eq_true_eq]
  exact ⟨fun h a ha hcontains => h a ha ⟨hcontains.opens, hcontains.lt_end⟩,
    fun h a ha ⟨hopens, hend⟩ => h a ha ⟨hopens, Nat.le_of_lt ha, hend⟩⟩

/-- The innermost subproof that a row belongs to is the last one opened that contains it. -/
theorem home?_eq_some_iff :
    layout.home? i = some b ↔ layout.Contains b i ∧ ∀ a, layout.Contains a i → a ≤ b := by
  unfold home?
  split
  -- An opener belongs to its own subproof.
  · rename_i hopens
    refine ⟨fun h => ?_, fun ⟨hcontains, hmax⟩ => ?_⟩
    · obtain rfl : i = b := by simpa using h
      exact ⟨.self hopens, fun a ha => ha.le⟩
    · have := hmax i (.self hopens)
      have := hcontains.le
      exact congrArg some (by omega)
  · rename_i hopens
    -- Any other row belongs to the innermost subproof opened before it.
    have hlt : ∀ a, layout.Contains a i → a < i := fun a ha =>
      Nat.lt_of_le_of_ne ha.le fun heq => hopens (heq ▸ ha.opens)
    rw [enclosing?_eq_some_iff]
    exact ⟨fun ⟨_, hcontains, hmax⟩ => ⟨hcontains, fun a ha => hmax a (hlt a ha) ha⟩,
      fun ⟨hcontains, hmax⟩ => ⟨hlt b hcontains, hcontains, fun a _ ha => hmax a ha⟩⟩

theorem home?_eq_none_iff : layout.home? i = none ↔ ∀ a, ¬ layout.Contains a i := by
  unfold home?
  split
  · rename_i hopens
    simp only [reduceCtorEq, false_iff, not_forall, not_not]
    exact ⟨i, .self hopens⟩
  · rename_i hopens
    rw [enclosing?_eq_none_iff]
    refine ⟨fun h a ha => ?_, fun h a _ => h a⟩
    exact h a (Nat.lt_of_le_of_ne ha.le fun heq => hopens (heq ▸ ha.opens)) ha

/-- A row belongs to a subproof that every subproof containing the row contains. -/
theorem Contains.exists_home? (h : layout.Contains a i) :
    ∃ b, layout.home? i = some b ∧ layout.Contains b i ∧ layout.Contains a b := by
  cases hhome : layout.home? i with
  | none => exact absurd h (home?_eq_none_iff.1 hhome a)
  | some b =>
    obtain ⟨hb, hmax⟩ := home?_eq_some_iff.1 hhome
    exact ⟨b, rfl, hb, h.of_le (hmax a h) hb.le⟩

/-- The same for an opener and the subproofs around it. -/
theorem Contains.exists_enclosing? (h : layout.Contains a i) (hne : a ≠ i) :
    ∃ b, layout.enclosing? i = some b ∧ layout.Contains b i ∧ layout.Contains a b := by
  have hlt : a < i := Nat.lt_of_le_of_ne h.le hne
  cases hinner : layout.enclosing? i with
  | none => exact absurd h (enclosing?_eq_none_iff.1 hinner a hlt)
  | some b =>
    obtain ⟨hbi, hb, hmax⟩ := enclosing?_eq_some_iff.1 hinner
    exact ⟨b, rfl, hb, h.of_le (hmax a hlt h) (Nat.le_of_lt hbi)⟩

/-- A line within the innermost subproof of an earlier row lies in every subproof that contains the
row. -/
theorem contains_of_within {premise line : Nat}
    (hwithin : layout.within (layout.home? premise) line = true) (ha : layout.Contains a premise) :
    layout.Contains a line := by
  obtain ⟨b, hhome, hb, hab⟩ := ha.exists_home?
  rw [hhome] at hwithin
  simp only [within, Bool.and_eq_true, decide_eq_true_eq] at hwithin
  exact hab.trans ⟨hb.opens, hwithin.1, hwithin.2⟩

end NaturalDeduction.Layout
