/-
  Subproofs found in one pass.

  The rows can be read from the first to the last with a stack of the subproofs
  that stand open. A row ends those that it closes, the innermost one first.
  Then it opens a subproof of its own, or it belongs to the innermost one that
  is left and has to be of its level. On well nested rows the pass goes through,
  and notes for each row what the layout says of it.
-/

import NaturalDeduction.Proofs.Layout.Nesting

namespace NaturalDeduction.Layout

/-! ## Reading rows -/

/-- What is known after some rows: the openers of the subproofs that stand open, the innermost one
first; for each row the subproof that it belongs to; for each opener the subproof around it; and
where subproofs have ended. -/
structure Pass where
  opened : List Nat
  homes : List (Option Nat)
  parents : List (Nat × Option Nat)
  ends : List (Nat × Nat)
  deriving DecidableEq, Repr

/-- Reads the row at a position, unless it belongs to a subproof of another level. -/
def Pass.read (layout : Layout) (pass : Pass) (index : Nat) (row : Row) : Option Pass :=
  let closes (opener : Nat) : Bool := row.closes (layout.levelAt opener)
  let opened := pass.opened.dropWhile closes
  let ends := pass.ends ++ (pass.opened.takeWhile closes).map fun opener => (opener, index)
  if row.opensSubproof then
    some {
      opened := index :: opened
      homes := pass.homes ++ [some index]
      parents := pass.parents ++ [(index, opened.head?)]
      ends }
  else if opened.head?.all fun opener => layout.levelAt opener == row.level then
    some { pass with opened, homes := pass.homes ++ [opened.head?], ends }
  else none

/-- Reads the first rows. -/
def passUpTo (layout : Layout) : Nat → Option Pass
  | 0 => some ⟨[], [], [], []⟩
  | index + 1 => do (← layout.passUpTo index).read layout index (← layout[index]?)

/-- Reads all rows. -/
def pass (layout : Layout) : Option Pass :=
  layout.passUpTo layout.length

/-- Where the subproof of an opener ends. One that stands open at the last row runs up to it. -/
def Pass.endOf (layout : Layout) (pass : Pass) (opener : Nat) : Nat :=
  (pass.ends.lookup opener).getD layout.length

/-! ## The stack -/

variable {layout : Layout} {a b i n : Nat}

/-- The subproofs that stand open in front of a row, the innermost one first. -/
def openAt (layout : Layout) (index : Nat) : List Nat :=
  (List.range index).reverse.filter fun opener =>
    layout.opens opener && index ≤ layout.subproofEnd opener

/-- The subproofs that end in front of a row, the innermost one first. -/
def endingAt (layout : Layout) (index : Nat) : List Nat :=
  (List.range index).reverse.filter fun opener =>
    layout.opens opener && layout.subproofEnd opener == index

theorem mem_openAt : a ∈ layout.openAt i ↔
    a < i ∧ layout.opens a = true ∧ i ≤ layout.subproofEnd a := by
  simp [openAt]

/-- A row closes an open subproof when it stands at its end. -/
theorem closes_iff {row : Row} (hrow : layout[i]? = some row) (ha : a ∈ layout.openAt i) :
    row.closes (layout.levelAt a) = true ↔ layout.subproofEnd a = i := by
  obtain ⟨hai, -, hle⟩ := mem_openAt.1 ha
  have hlength := (List.getElem?_eq_some_iff.1 hrow).1
  have hlevel : layout.levelAt i = row.level := by simp [levelAt, hrow]
  have hassumption : layout.isAssumption i = row.assumption := by simp [isAssumption, hrow]
  -- The rows before keep the subproof open, so this one decides.
  have hopen : i < layout.subproofEnd a ↔ row.closes (layout.levelAt a) = false := by
    rw [closes_eq_false_iff, lt_subproofEnd_iff hai, ← hlevel, ← hassumption]
    refine ⟨fun h => h.2 i hai (Nat.le_refl i), fun h => ⟨hlength, fun j haj hji => ?_⟩⟩
    rcases Nat.eq_or_lt_of_le hji with rfl | hlt
    · exact h
    · exact ((lt_subproofEnd_iff haj).1 (Nat.lt_of_lt_of_le hlt hle)).2 j haj (Nat.le_refl j)
  rw [← Bool.not_eq_false, ← hopen]
  omega

/-- A subproof inside another one ends no later. -/
theorem Contains.subproofEnd_le (h : layout.Contains b a) (ha : layout.opens a = true) :
    layout.subproofEnd a ≤ layout.subproofEnd b := by
  by_contra hlt
  have hinner : layout.Contains a (layout.subproofEnd b) :=
    ⟨ha, Nat.le_of_lt h.lt_end, Nat.lt_of_not_le hlt⟩
  exact Nat.lt_irrefl _ (h.trans hinner).lt_end

/-- A row that closes an open subproof closes those inside it. -/
theorem pairwise_closes {row : Row} (hrow : layout[i]? = some row) :
    (layout.openAt i).Pairwise fun a b =>
      row.closes (layout.levelAt b) = true → row.closes (layout.levelAt a) = true := by
  have hordered : (layout.openAt i).Pairwise (fun a b => b < a) :=
    (List.pairwise_reverse.2 List.pairwise_lt_range).filter _
  refine hordered.imp_of_mem fun {a b} ha hb hba hcloses => ?_
  rw [closes_iff hrow hb] at hcloses
  rw [closes_iff hrow ha]
  obtain ⟨hai, hopens, hle⟩ := mem_openAt.1 ha
  have hcontains : layout.Contains b a := ⟨(mem_openAt.1 hb).2.1, Nat.le_of_lt hba, by omega⟩
  have := hcontains.subproofEnd_le hopens
  omega

theorem takeWhile_eq_filter_of_pairwise {α : Type} {p : α → Bool} {as : List α}
    (h : as.Pairwise fun a b => p b = true → p a = true) : as.takeWhile p = as.filter p := by
  induction as with
  | nil => rfl
  | cons a as ih =>
    obtain ⟨hfirst, hrest⟩ := List.pairwise_cons.1 h
    cases ha : p a with
    | true => rw [List.takeWhile_cons_of_pos ha, List.filter_cons_of_pos ha, ih hrest]
    | false =>
      have hnone : as.filter p = [] := List.filter_eq_nil_iff.2 fun b hb hp => by
        rw [hfirst b hb hp] at ha
        cases ha
      rw [List.takeWhile_cons_of_neg (by simp [ha]), List.filter_cons_of_neg (by simp [ha]), hnone]

theorem dropWhile_eq_filter_of_pairwise {α : Type} {p : α → Bool} {as : List α}
    (h : as.Pairwise fun a b => p b = true → p a = true) :
    as.dropWhile p = as.filter fun a => !p a := by
  induction as with
  | nil => rfl
  | cons a as ih =>
    obtain ⟨hfirst, hrest⟩ := List.pairwise_cons.1 h
    cases ha : p a with
    | true => simp [ha, ih hrest]
    | false =>
      have hall : ∀ b ∈ as, (!p b) = true := fun b hb => by
        cases hb' : p b with
        | false => rfl
        | true => rw [hfirst b hb hb'] at ha; cases ha
      simp [ha, List.filter_eq_self.2 hall]

/-- What a row takes off the stack are the subproofs that end in front of it. -/
theorem takeWhile_openAt {row : Row} (hrow : layout[i]? = some row) :
    (layout.openAt i).takeWhile (fun opener => row.closes (layout.levelAt opener)) =
      layout.endingAt i := by
  rw [takeWhile_eq_filter_of_pairwise (pairwise_closes hrow)]
  have hends : (layout.openAt i).filter (fun opener => row.closes (layout.levelAt opener)) =
      (layout.openAt i).filter fun opener => layout.subproofEnd opener == i :=
    List.filter_congr fun opener hopener => by
      rw [Bool.eq_iff_iff, closes_iff hrow hopener, beq_iff_eq]
  rw [hends, openAt, endingAt, List.filter_filter]
  refine List.filter_congr fun opener _ => ?_
  rw [Bool.eq_iff_iff]
  simp only [Bool.and_eq_true, beq_iff_eq, decide_eq_true_eq]
  constructor
  · rintro ⟨hend, hopens, -⟩
    exact ⟨hopens, hend⟩
  · rintro ⟨hopens, hend⟩
    exact ⟨hend, hopens, Nat.le_of_eq hend.symm⟩

/-- What is left are the subproofs that hold the row. -/
theorem dropWhile_openAt {row : Row} (hrow : layout[i]? = some row) :
    (layout.openAt i).dropWhile (fun opener => row.closes (layout.levelAt opener)) =
      (List.range i).reverse.filter fun opener =>
        layout.opens opener && i < layout.subproofEnd opener := by
  rw [dropWhile_eq_filter_of_pairwise (pairwise_closes hrow)]
  have hends : (layout.openAt i).filter (fun opener => !row.closes (layout.levelAt opener)) =
      (layout.openAt i).filter fun opener => !(layout.subproofEnd opener == i) :=
    List.filter_congr fun opener hopener => by
      rw [Bool.not_inj_iff, Bool.eq_iff_iff, closes_iff hrow hopener, beq_iff_eq]
  rw [hends, openAt, List.filter_filter]
  refine List.filter_congr fun opener _ => ?_
  rw [Bool.eq_iff_iff]
  simp only [Bool.and_eq_true, Bool.not_eq_true', beq_eq_false_iff_ne, decide_eq_true_eq]
  constructor
  · rintro ⟨hne, hopens, hle⟩
    exact ⟨hopens, Nat.lt_of_le_of_ne hle (Ne.symm hne)⟩
  · rintro ⟨hopens, hlt⟩
    exact ⟨Nat.ne_of_gt hlt, hopens, Nat.le_of_lt hlt⟩

/-- The innermost subproof left is the one around the row. -/
theorem head?_dropWhile_openAt {row : Row} (hrow : layout[i]? = some row) :
    ((layout.openAt i).dropWhile fun opener => row.closes (layout.levelAt opener)).head? =
      layout.enclosing? i := by
  rw [dropWhile_openAt hrow, List.head?_filter, enclosing?]

theorem openAt_succ (layout : Layout) (i : Nat) : layout.openAt (i + 1) =
    (if layout.opens i then [i] else []) ++ (List.range i).reverse.filter fun opener =>
      layout.opens opener && i < layout.subproofEnd opener := by
  have hself : i + 1 ≤ layout.subproofEnd i := lt_subproofEnd_self
  rw [openAt, List.range_succ, List.reverse_append, List.reverse_singleton, List.singleton_append,
    List.filter_cons]
  cases layout.opens i with
  | false =>
    simp only [Bool.false_and, Bool.false_eq_true, if_false, List.nil_append]
    rfl
  | true =>
    simp only [Bool.true_and, hself, decide_true, if_true, List.singleton_append]
    rfl

/-! ## The pass goes through -/

/-- What the layout says of the first rows. -/
def passTable (layout : Layout) (count : Nat) : Pass where
  opened := layout.openAt count
  homes := (List.range count).map layout.home?
  parents := ((List.range count).filter layout.opens).map fun opener =>
    (opener, layout.enclosing? opener)
  ends := (List.range count).flatMap fun index =>
    (layout.endingAt index).map fun opener => (opener, index)

/-- A row that opens no subproof is of the level of the subproof around it. -/
theorem all_enclosing? (h : layout.validate = .ok ()) {row : Row} (hrow : layout[i]? = some row)
    (hopens : layout.opens i = false) :
    (layout.enclosing? i).all (fun opener => layout.levelAt opener == row.level) = true := by
  have hlevel : layout.levelAt i = row.level := by simp [levelAt, hrow]
  cases henclosing : layout.enclosing? i with
  | none => rfl
  | some opener =>
    have hhome : layout.home? i = some opener := by
      simpa [home?, hopens] using henclosing
    simpa [← hlevel] using levelAt_home? h hhome

/-- Reading a row adds to what was noted what the layout says of the row. -/
theorem read_passTable (h : layout.validate = .ok ()) {row : Row} (hrow : layout[i]? = some row) :
    (layout.passTable i).read layout i row = some (layout.passTable (i + 1)) := by
  have hopens : row.opensSubproof = layout.opens i := by simp [opens, hrow]
  have hsucc := layout.openAt_succ i
  rw [← dropWhile_openAt hrow] at hsucc
  unfold Pass.read
  simp only [passTable, takeWhile_openAt hrow, head?_dropWhile_openAt hrow, hopens,
    List.range_succ, List.map_append, List.map_singleton, List.filter_append,
    List.flatMap_append, List.flatMap_singleton, hsucc]
  cases hopen : layout.opens i with
  | true => simp [hopen, home?]
  | false =>
    rw [if_neg Bool.false_ne_true, if_pos (all_enclosing? h hrow hopen)]
    simp [hopen, home?]

theorem passUpTo_eq (h : layout.validate = .ok ()) {count : Nat} (hcount : count ≤ layout.length) :
    layout.passUpTo count = some (layout.passTable count) := by
  induction count with
  | zero => rfl
  | succ count ih =>
    have hrow := List.getElem?_eq_getElem hcount
    simp only [passUpTo, ih (Nat.le_of_succ_le hcount), hrow, Option.bind_eq_bind,
      Option.bind_some, read_passTable h hrow]

/-! ## What the pass has noted -/

theorem subproofEnd_le_length (h : layout.opens a = true) :
    layout.subproofEnd a ≤ layout.length := by
  by_contra hlt
  have hcontains : layout.Contains a layout.length :=
    ⟨h, Nat.le_of_lt (lt_length_of_opens h), Nat.lt_of_not_le hlt⟩
  exact Nat.lt_irrefl _ hcontains.lt_length

theorem mem_endingAt : a ∈ layout.endingAt i ↔
    a < i ∧ layout.opens a = true ∧ layout.subproofEnd a = i := by
  simp [endingAt]

theorem mem_ends_passTable {count index : Nat} : (a, index) ∈ (layout.passTable count).ends ↔
    layout.opens a = true ∧ layout.subproofEnd a = index ∧ index < count := by
  have hlt : a < layout.subproofEnd a := lt_subproofEnd_self
  simp only [passTable, List.mem_flatMap, List.mem_range, List.mem_map, Prod.mk.injEq,
    mem_endingAt]
  constructor
  · rintro ⟨_, hindex, _, ⟨-, hopens, hend⟩, rfl, rfl⟩
    exact ⟨hopens, hend, hindex⟩
  · rintro ⟨hopens, rfl, hindex⟩
    exact ⟨_, hindex, a, ⟨hlt, hopens, rfl⟩, rfl, rfl⟩

/-- The pass finds out where subproofs end, those that are open at the last row included. -/
theorem endOf_passTable (h : layout.opens a = true) :
    (layout.passTable layout.length).endOf layout a = layout.subproofEnd a := by
  unfold Pass.endOf
  cases hlookup : (layout.passTable layout.length).ends.lookup a with
  | none =>
    have hle := subproofEnd_le_length h
    rw [List.lookup_eq_none_iff] at hlookup
    by_contra hne
    have hmem := mem_ends_passTable.2 ⟨h, rfl, Nat.lt_of_le_of_ne hle (Ne.symm hne)⟩
    simpa using hlookup _ hmem
  | some index =>
    obtain ⟨_, _, hends, -⟩ := List.lookup_eq_some_iff.1 hlookup
    have hmem : (a, index) ∈ (layout.passTable layout.length).ends := by simp [hends]
    exact (mem_ends_passTable.1 hmem).2.1.symm

theorem lookup_parents_passTable (h : layout.opens a = true) :
    (layout.passTable layout.length).parents.lookup a = some (layout.enclosing? a) := by
  have hmem : (a, layout.enclosing? a) ∈ (layout.passTable layout.length).parents :=
    List.mem_map.2 ⟨a, List.mem_filter.2 ⟨List.mem_range.2 (lt_length_of_opens h), h⟩, rfl⟩
  cases hlookup : (layout.passTable layout.length).parents.lookup a with
  | none =>
    rw [List.lookup_eq_none_iff] at hlookup
    simpa using hlookup _ hmem
  | some parent? =>
    obtain ⟨_, _, hparents, -⟩ := List.lookup_eq_some_iff.1 hlookup
    have hfound : (a, parent?) ∈ (layout.passTable layout.length).parents := by simp [hparents]
    obtain ⟨_, -, heq⟩ := List.mem_map.1 hfound
    cases heq
    rfl

/-- The pass has noted what the layout says of every row. -/
structure Pass.Agrees (layout : Layout) (pass : Pass) : Prop where
  homes : pass.homes = (List.range layout.length).map layout.home?
  parents : ∀ opener, layout.opens opener = true →
    pass.parents.lookup opener = some (layout.enclosing? opener)
  ends : ∀ opener, layout.opens opener = true →
    pass.endOf layout opener = layout.subproofEnd opener

/-- On well nested rows the pass goes through. -/
theorem exists_pass (h : layout.validate = .ok ()) :
    ∃ pass, layout.pass = some pass ∧ pass.Agrees layout :=
  ⟨_, passUpTo_eq h (Nat.le_refl _),
    rfl, fun _ => lookup_parents_passTable, fun _ => endOf_passTable⟩

end NaturalDeduction.Layout
