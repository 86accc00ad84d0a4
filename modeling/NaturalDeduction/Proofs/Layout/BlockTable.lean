/-
  The table of subproofs and what it answers.

  On well nested rows the table is built without a trap, and holds what the
  layout says: the blocks stand in the order of their openers, so that the
  number of a block is the number of openers before it, and every row has the
  number of the block that it belongs to. What is looked up in the table is
  what the layout gives.
-/

import Mathlib.Data.List.Nodup
import NaturalDeduction.Layout.BlockTable
import NaturalDeduction.Proofs.Layout.InForce
import NaturalDeduction.Proofs.Layout.Pass
import NaturalDeduction.Proofs.Word.Trapping

namespace NaturalDeduction

open Trapping

variable {layout : Layout}

/-! ## Nesting -/

/-- The scan of words is the scan of the rows, whatever their levels. -/
theorem BlockTable.firstMisplaced?_eq_ok {rows : List Row} {previous index : Nat}
    {onlyPremises : Bool} (h : previous + rows.length < Word.limit 64) :
    firstMisplaced? previous onlyPremises index rows =
      .ok (Layout.firstMisplaced? previous onlyPremises index rows) := by
  induction rows generalizing previous index onlyPremises with
  | nil => rfl
  | cons row rows ih =>
    rw [List.length_cons] at h
    rw [firstMisplaced?, Layout.firstMisplaced?, sum_eq_ok (by omega)]
    simp only [bind, Except.bind, Bool.or_eq_true, Bool.and_eq_true, decide_eq_true_eq]
    by_cases hdeep : previous + 1 < row.level ∨ previous < row.level ∧ (!row.assumption) = true
    · rw [if_pos hdeep, if_pos (.inl hdeep)]
      rfl
    · rw [if_neg hdeep]
      by_cases hlate : row.isPremise = true ∧ (!onlyPremises) = true
      · rw [if_pos hlate, if_pos (.inr hlate)]
        rfl
      · -- The row is at most one level deeper, so the bound carries over to the rows below it.
        rw [if_neg hlate, if_neg (fun hor => hor.elim hdeep hlate)]
        exact ih (by omega)

namespace Layout

/-! ## Openers in order -/

/-- The openers before a row, in order. -/
def openersBefore (layout : Layout) (count : Nat) : List Nat :=
  (List.range count).filter layout.opens

/-- The number of the block that an opener opens. The whole proof has the number 0. -/
def blockNumber (layout : Layout) : Option Nat → Nat
  | none => 0
  | some opener => (layout.openersBefore opener).length + 1

theorem mem_openersBefore {opener count : Nat} :
    opener ∈ layout.openersBefore count ↔ opener < count ∧ layout.opens opener = true := by
  simp [openersBefore]

theorem openersBefore_succ (layout : Layout) (count : Nat) : layout.openersBefore (count + 1) =
    layout.openersBefore count ++ if layout.opens count then [count] else [] := by
  cases hopens : layout.opens count <;> simp [openersBefore, List.range_succ, hopens]

/-- An opener stands where its number says. -/
theorem getElem?_openersBefore {opener count : Nat} (hopens : layout.opens opener = true)
    (hlt : opener < count) :
    (layout.openersBefore count)[(layout.openersBefore opener).length]? = some opener := by
  induction count with
  | zero => exact absurd hlt (Nat.not_lt_zero opener)
  | succ count ih =>
    rw [openersBefore_succ]
    rcases Nat.lt_succ_iff_lt_or_eq.1 hlt with hlt | rfl
    · have hbefore := ih hlt
      rw [List.getElem?_append_left (List.getElem?_eq_some_iff.1 hbefore).1, hbefore]
    · rw [List.getElem?_append_right (Nat.le_refl _), Nat.sub_self, if_pos hopens]
      rfl

/-- No two blocks have the same number. -/
theorem blockNumber_inj {a? b? : Option Nat} (ha : ∀ a ∈ a?, layout.opens a = true)
    (hb : ∀ b ∈ b?, layout.opens b = true)
    (h : layout.blockNumber a? = layout.blockNumber b?) : a? = b? := by
  cases a? with
  | none =>
    cases b? with
    | none => rfl
    | some b => exact absurd h (Nat.succ_ne_zero _).symm
  | some a =>
    cases b? with
    | none => exact absurd h (Nat.succ_ne_zero _)
    | some b =>
      -- Among all openers up to both, each of the two stands where the common number says.
      have hlength := Nat.succ.inj h
      have hfirst := getElem?_openersBefore (ha a rfl) (show a < a + b + 1 by omega)
      have hsecond := getElem?_openersBefore (hb b rfl) (show b < a + b + 1 by omega)
      rw [hlength, hsecond] at hfirst
      exact hfirst.symm

theorem opens_of_mem_enclosing? {i b : Nat} (h : b ∈ layout.enclosing? i) :
    layout.opens b = true :=
  (enclosing?_eq_some_iff.1 h).2.1.opens

theorem opens_of_mem_home? {i b : Nat} (h : b ∈ layout.home? i) : layout.opens b = true :=
  (home?_eq_some_iff.1 h).1.opens

/-! ## Blocks in order -/

/-- The block of an opener or of the whole proof, with the ends of subproofs as given. -/
def blockWith (layout : Layout) (stopOf : Nat → Nat) : Option Nat → BlockTable.Block
  | none => ⟨none, layout.length, none⟩
  | some opener =>
    ⟨some opener, stopOf opener, some (layout.blockNumber (layout.enclosing? opener))⟩

/-- The blocks that are known before a row, in the order of their numbers. -/
def blocksWith (layout : Layout) (stopOf : Nat → Nat) (count : Nat) : List BlockTable.Block :=
  layout.blockWith stopOf none ::
    (layout.openersBefore count).map fun opener => layout.blockWith stopOf (some opener)

/-- What has a number is found there. -/
theorem getElem?_blocksWith {stopOf : Nat → Nat} {count : Nat} {block? : Option Nat}
    (h : ∀ opener ∈ block?, layout.opens opener = true ∧ opener < count) :
    (layout.blocksWith stopOf count)[layout.blockNumber block?]? =
      some (layout.blockWith stopOf block?) := by
  cases block? with
  | none => rfl
  | some opener =>
    obtain ⟨hopens, hlt⟩ := h opener rfl
    rw [blocksWith, blockNumber, List.getElem?_cons_succ, List.getElem?_map,
      getElem?_openersBefore hopens hlt]
    rfl

/-- A subproof that was found to end changes its own block only. -/
theorem modify_blocksWith {stopOf : Nat → Nat} {opener count : Nat} (stop : Nat)
    (hopens : layout.opens opener = true) (hlt : opener < count) :
    (layout.blocksWith stopOf count).modify (layout.blockNumber (some opener))
        (fun block => { block with stop }) =
      layout.blocksWith (Function.update stopOf opener stop) count := by
  rw [blocksWith, blockNumber, List.modify_succ_cons, blocksWith]
  refine congrArg₂ _ rfl (List.ext_getElem? fun index => ?_)
  rw [List.getElem?_modify, List.getElem?_map, List.getElem?_map]
  cases hat : (layout.openersBefore count)[index]? with
  | none => rfl
  | some other =>
    by_cases hindex : (layout.openersBefore opener).length = index
    · -- At the number of the opener stands the opener.
      rw [← hindex, getElem?_openersBefore hopens hlt] at hat
      obtain rfl := Option.some.inj hat
      simp [hindex, blockWith]
    · have hne : other ≠ opener := by
        rintro rfl
        have hnodup : (layout.openersBefore count).Nodup := List.nodup_range.filter _
        obtain ⟨hindex', heq⟩ := List.getElem?_eq_some_iff.1 hat
        obtain ⟨hlength, heq'⟩ :=
          List.getElem?_eq_some_iff.1 (getElem?_openersBefore hopens hlt)
        exact hindex (hnodup.getElem_inj_iff.1 (heq'.trans heq.symm))
      simp [hindex, blockWith, hne]

/-! ## The building of the table -/

/-- Where a subproof ends as far as the rows before a row tell. -/
def stopBefore (layout : Layout) (count opener : Nat) : Nat :=
  if layout.subproofEnd opener < count then layout.subproofEnd opener else layout.length

/-- What the layout says of the first rows. -/
def buildingAfter (layout : Layout) (count : Nat) : BlockTable.Building where
  blocks := layout.blocksWith (layout.stopBefore count) count
  opened := ((layout.openAt count).map fun opener => layout.blockNumber (some opener)) ++ [0]
  blockOf := (List.range count).map fun index => layout.blockNumber (layout.home? index)

/-- The table of the rows. -/
def blockTable (layout : Layout) : BlockTable where
  rows := layout
  blocks := layout.blocksWith layout.subproofEnd layout.length
  blockOf := (List.range layout.length).map fun index => layout.blockNumber (layout.home? index)

theorem lookUp_rows {index : Nat} (h : index < layout.length) :
    ∃ row, lookUp layout index = .ok row ∧ layout[index]? = some row ∧
      layout.levelAt index = row.level ∧ layout.isAssumption index = row.assumption ∧
      layout.opens index = row.opensSubproof := by
  have hrow := List.getElem?_eq_getElem h
  refine ⟨layout[index], lookUp_eq_ok hrow, hrow, ?_, ?_, ?_⟩
  · simp [levelAt, hrow]
  · simp [isAssumption, hrow]
  · simp [opens, hrow]

/-- A row takes the subproofs off the stack that it closes, and ends their blocks. -/
theorem close_eq_ok {index : Nat} {row : Row} {opened : List Nat} {stopOf : Nat → Nat}
    (h : ∀ opener ∈ opened, layout.opens opener = true ∧ opener < index) :
    BlockTable.close layout index row
        ((opened.map fun opener => layout.blockNumber (some opener)) ++ [0])
        (layout.blocksWith stopOf index) =
      .ok (((opened.dropWhile fun opener => row.closes (layout.levelAt opener)).map
          fun opener => layout.blockNumber (some opener)) ++ [0],
        layout.blocksWith (fun opener =>
          if opener ∈ opened.takeWhile fun opener => row.closes (layout.levelAt opener) then index
          else stopOf opener) index) := by
  induction opened generalizing stopOf with
  | nil =>
    have hroot : lookUp (layout.blocksWith stopOf index) 0 = .ok (layout.blockWith stopOf none) :=
      rfl
    simp only [List.map_nil, List.nil_append, BlockTable.close, hroot, List.takeWhile_nil,
      List.not_mem_nil, if_false]
    rfl
  | cons opener opened ih =>
    obtain ⟨⟨hopens, hlt⟩, hothers⟩ := List.forall_mem_cons.1 h
    obtain ⟨_, hlook, -, hlevel, -⟩ := lookUp_rows (lt_length_of_opens hopens)
    have hblock : (layout.blocksWith stopOf index)[layout.blockNumber (some opener)]? =
        some (layout.blockWith stopOf (some opener)) :=
      getElem?_blocksWith (by simp [hopens, hlt])
    have hnumber := (List.getElem?_eq_some_iff.1 hblock).1
    rw [List.map_cons, List.cons_append, BlockTable.close, lookUp_eq_ok hblock]
    simp only [bind, Except.bind, blockWith, hlook, ← hlevel]
    cases hcloses : row.closes (layout.levelAt opener) with
    | false => simp [hcloses, pure, Except.pure]
    | true =>
      rw [if_pos rfl, replace_eq_ok _ hnumber, modify_blocksWith index hopens hlt]
      dsimp only
      rw [ih hothers]
      simp only [List.dropWhile_cons, List.takeWhile_cons, hcloses, if_true, List.mem_cons]
      congr 3
      funext other
      by_cases hother : other = opener <;> simp [hother]

/-- The number of the innermost open block. -/
theorem headD_blockNumbers (layout : Layout) (opened : List Nat) :
    ((opened.map fun opener => layout.blockNumber (some opener)) ++ [0]).headD 0 =
      layout.blockNumber opened.head? := by
  cases opened <;> rfl

/-- The ends that are known before a row, and those of the subproofs that it ends, are the ends
that are known behind it. -/
theorem stopBefore_succ {index opener : Nat} (hopens : layout.opens opener = true)
    (hlt : opener < index) :
    (if opener ∈ layout.endingAt index then index else layout.stopBefore index opener) =
      layout.stopBefore (index + 1) opener := by
  simp only [mem_endingAt, hlt, hopens, true_and, stopBefore]
  split_ifs <;> omega

theorem blocksWith_congr {stopOf stopOf' : Nat → Nat} {count : Nat}
    (h : ∀ opener ∈ layout.openersBefore count, stopOf opener = stopOf' opener) :
    layout.blocksWith stopOf count = layout.blocksWith stopOf' count := by
  rw [blocksWith, blocksWith]
  refine congrArg₂ _ rfl (List.map_congr_left fun opener hopener => ?_)
  rw [blockWith, blockWith, h opener hopener]

/-- Before a row is placed the blocks that end there are closed. -/
theorem close_buildingAfter {index : Nat} {row : Row} (hrow : layout[index]? = some row) :
    BlockTable.close layout index row (layout.buildingAfter index).opened
        (layout.buildingAfter index).blocks =
      .ok ((((List.range index).reverse.filter fun opener =>
          layout.opens opener && index < layout.subproofEnd opener).map
            fun opener => layout.blockNumber (some opener)) ++ [0],
        layout.blocksWith (layout.stopBefore (index + 1)) index) := by
  have hopened : ∀ opener ∈ layout.openAt index,
      layout.opens opener = true ∧ opener < index := fun opener hopener =>
    ⟨(mem_openAt.1 hopener).2.1, (mem_openAt.1 hopener).1⟩
  rw [buildingAfter, close_eq_ok hopened, takeWhile_openAt hrow, dropWhile_openAt hrow]
  congr 2
  refine blocksWith_congr fun opener hopener => ?_
  obtain ⟨hlt, hopens⟩ := mem_openersBefore.1 hopener
  exact stopBefore_succ hopens hlt

/-- A row that opens no subproof has the level of its block. -/
theorem atLevelOf_eq_ok (h : layout.validate = .ok ()) {index : Nat} {row : Row}
    (hrow : layout[index]? = some row) (hopens : layout.opens index = false)
    (stopOf : Nat → Nat) :
    BlockTable.atLevelOf layout row (layout.blockWith stopOf (layout.enclosing? index)) =
      .ok true := by
  have hlevels := all_enclosing? h hrow hopens
  cases henclosing : layout.enclosing? index with
  | none => rfl
  | some opener =>
    obtain ⟨_, hlook, -, hlevel, -⟩ :=
      lookUp_rows (lt_length_of_opens (opens_of_mem_enclosing? henclosing))
    rw [henclosing, Option.all_some, hlevel] at hlevels
    simp only [BlockTable.atLevelOf, blockWith, hlook, bind, Except.bind, pure, Except.pure,
      hlevels]

/-- An opener adds its block behind the others. The block may run up to the last row. -/
theorem blocksWith_append {index : Nat} (hopens : layout.opens index = true) :
    layout.blocksWith (layout.stopBefore (index + 1)) index ++ [BlockTable.Block.mk (some index)
        layout.length (some (layout.blockNumber (layout.enclosing? index)))] =
      layout.blocksWith (layout.stopBefore (index + 1)) (index + 1) := by
  have hend : index < layout.subproofEnd index := lt_subproofEnd_self
  have hstop : layout.stopBefore (index + 1) index = layout.length := by
    rw [stopBefore, if_neg (by omega)]
  simp [blocksWith, openersBefore_succ, hopens, blockWith, hstop]

/-- Placing a row adds to what was known what the layout says of the row. -/
theorem place_buildingAfter (h : layout.validate = .ok ()) {index : Nat} {row : Row}
    (hrow : layout[index]? = some row) :
    BlockTable.place layout (layout.buildingAfter index) index row =
      .ok (layout.buildingAfter (index + 1)) := by
  have hrowOpens : row.opensSubproof = layout.opens index := by simp [opens, hrow]
  have henclosing : ((List.range index).reverse.filter fun opener =>
      layout.opens opener && index < layout.subproofEnd opener).head? =
        layout.enclosing? index := by
    rw [List.head?_filter, enclosing?]
  have hmem : ∀ opener ∈ layout.enclosing? index,
      layout.opens opener = true ∧ opener < index := fun opener hopener =>
    ⟨opens_of_mem_enclosing? hopener, (enclosing?_eq_some_iff.1 hopener).1⟩
  rw [BlockTable.place, close_buildingAfter hrow]
  simp only [bind, Except.bind, headD_blockNumbers, henclosing, hrowOpens]
  cases hopens : layout.opens index with
  | true =>
    have hlength : (layout.blocksWith (layout.stopBefore (index + 1)) (index + 1)).length =
        layout.blockNumber (some index) + 1 := by
      simp [blocksWith, blockNumber, openersBefore_succ, hopens]
    rw [if_pos rfl, blocksWith_append hopens, hlength, difference_eq_ok (Nat.le_add_left 1 _),
      Nat.add_sub_cancel]
    simp [buildingAfter, openAt_succ, List.range_succ, hopens, home?, pure, Except.pure]
  | false =>
    rw [if_neg Bool.false_ne_true, lookUp_eq_ok (getElem?_blocksWith hmem)]
    dsimp only
    rw [atLevelOf_eq_ok h hrow hopens]
    simp [require, buildingAfter, blocksWith, openersBefore_succ, openAt_succ, List.range_succ,
      hopens, home?, pure, Except.pure]

/-- All rows are placed. -/
theorem placeAll_buildingAfter (h : layout.validate = .ok ()) {rest : List Row} {index : Nat}
    (hrest : layout.drop index = rest) (hindex : index ≤ layout.length) :
    BlockTable.placeAll layout index rest (layout.buildingAfter index) =
      .ok (layout.buildingAfter layout.length) := by
  induction rest generalizing index with
  | nil =>
    have hlength := List.drop_eq_nil_iff.1 hrest
    rw [BlockTable.placeAll, Nat.le_antisymm hindex hlength]
  | cons row rest ih =>
    have hrow : layout[index]? = some row := by
      rw [← Nat.add_zero index, ← List.getElem?_drop, hrest]
      rfl
    have hdrop : layout.drop (index + 1) = rest := by
      rw [← List.drop_drop, hrest]
      rfl
    rw [BlockTable.placeAll, place_buildingAfter h hrow]
    exact ih hdrop (List.getElem?_eq_some_iff.1 hrow).1

/-- The table of well nested rows is built without a trap. -/
theorem ofRows_eq_ok (h : layout.validate = .ok ()) :
    BlockTable.ofRows layout = .ok layout.blockTable := by
  have hstart : layout.buildingAfter 0 = ⟨[⟨none, layout.length, none⟩], [0], []⟩ := rfl
  have hplaced := placeAll_buildingAfter h List.drop_zero (Nat.zero_le _)
  have hblocks : layout.blocksWith (layout.stopBefore layout.length) layout.length =
      layout.blocksWith layout.subproofEnd layout.length := by
    refine blocksWith_congr fun opener hopener => ?_
    have hle := subproofEnd_le_length (mem_openersBefore.1 hopener).2
    rw [stopBefore]
    split <;> omega
  rw [hstart] at hplaced
  simp only [BlockTable.ofRows, hplaced, bind, Except.bind, pure, Except.pure, buildingAfter,
    hblocks, blockTable]

/-! ## Looking things up -/

variable {index premise line : Nat}

theorem lookUp_blockOf (h : index < layout.length) :
    lookUp layout.blockTable.blockOf index = .ok (layout.blockNumber (layout.home? index)) :=
  lookUp_eq_ok (by simp [blockTable, h])

theorem lookUp_blocks (index : Nat) :
    lookUp layout.blockTable.blocks (layout.blockNumber (layout.home? index)) =
      .ok (layout.blockWith layout.subproofEnd (layout.home? index)) :=
  lookUp_eq_ok (getElem?_blocksWith fun _ hopener =>
    ⟨opens_of_mem_home? hopener, lt_length_of_opens (opens_of_mem_home? hopener)⟩)

theorem contains_eq_ok (premise line : Nat) :
    layout.blockTable.contains (layout.blockNumber (layout.home? premise)) line =
      .ok (layout.within (layout.home? premise) line) := by
  rw [BlockTable.contains, lookUp_blocks]
  cases layout.home? premise <;> rfl

/-- What a line may cite is looked up without a trap, whatever the numbers are. -/
theorem isAccessible_eq_ok (premise line : Nat) :
    layout.blockTable.isAccessible premise line = .ok (layout.isAccessible premise line) := by
  have hrows : layout.blockTable.rows = layout := rfl
  rw [BlockTable.isAccessible, hrows]
  by_cases hbeyond : line ≤ premise ∨ layout.length ≤ line
  · have hfalse : layout.isAccessible premise line = false := by
      rw [Bool.eq_false_iff, Ne, isAccessible_iff]
      omega
    rw [if_pos (by simpa using hbeyond), hfalse]
    rfl
  -- Both rows are there, so every look-up below succeeds.
  obtain ⟨hpremise, hline⟩ : premise < line ∧ line < layout.length := by omega
  obtain ⟨_, hlook, -, -, hassumption, -⟩ := lookUp_rows hline
  obtain ⟨_, hcited, -, -, -, hopens⟩ := lookUp_rows (Nat.lt_trans hpremise hline)
  rw [if_neg (by simpa using hbeyond), isAccessible, isFinishedBeside]
  simp only [bind, Except.bind, pure, Except.pure, hlook, hcited, ← hassumption, ← hopens,
    lookUp_blockOf (Nat.lt_trans hpremise hline), lookUp_blockOf hline, contains_eq_ok,
    lookUp_blocks, hpremise, hline, decide_true, Bool.true_and]
  cases layout.isAssumption line with
  | true => rfl
  | false =>
    cases layout.within (layout.home? premise) line with
    | true => rfl
    | false =>
      cases hopener : layout.opens premise with
      | false => rfl
      | true =>
        -- The subproof that is cited is the one that the row opens.
        have hhome : layout.home? premise = some premise := by rw [home?, if_pos hopener]
        have hparents : (layout.blockNumber (layout.enclosing? premise) ==
            layout.blockNumber (layout.home? line)) =
              (layout.enclosing? premise == layout.home? line) := by
          rw [Bool.eq_iff_iff, beq_iff_eq, beq_iff_eq]
          exact ⟨blockNumber_inj (fun _ => opens_of_mem_enclosing?) fun _ => opens_of_mem_home?,
            congrArg _⟩
        by_cases hend : line < layout.subproofEnd premise
        · simp [hhome, blockWith, hend, Nat.not_le.2 hend]
        · simp [hhome, blockWith, hend, hparents, Nat.le_of_not_lt hend]

/-- Levels are no deeper than rows stand, so the next one is a word. -/
theorem isSubproofPremise_eq_ok (h : layout.validate = .ok ())
    (hlength : layout.length + 1 < Word.limit 64) (hpremise : premise < layout.length)
    (hline : line < layout.length) :
    layout.blockTable.isSubproofPremise premise line =
      .ok (layout.isSubproofPremise premise line) := by
  obtain ⟨_, hcited, -, hcitedLevel, hassumption, -⟩ := lookUp_rows hpremise
  obtain ⟨_, hlook, -, hlevel, -⟩ := lookUp_rows hline
  have hrows : layout.blockTable.rows = layout := rfl
  have hsum : sum (layout.levelAt line) 1 = .ok (layout.levelAt line + 1) := by
    have := levelAt_le h line
    exact sum_eq_ok (by omega)
  rw [BlockTable.isSubproofPremise, isSubproofPremise]
  simp only [bind, Except.bind, pure, Except.pure, hrows, hcited, hlook, ← hassumption,
    ← hcitedLevel, ← hlevel, hsum]
  cases layout.isAssumption premise <;> rfl

theorem subproofRange_eq_ok (hlength : layout.length < Word.limit 64)
    (h : index < layout.length) :
    layout.blockTable.subproofRange index = .ok (layout.subproofRange index) := by
  obtain ⟨_, hlook, -, -, -, hopens⟩ := lookUp_rows h
  have hrows : layout.blockTable.rows = layout := rfl
  have hsum : sum index 1 = .ok (index + 1) := sum_eq_ok (by omega)
  rw [BlockTable.subproofRange, subproofRange]
  simp only [bind, Except.bind, pure, Except.pure, hrows, hlook, ← hopens, hsum,
    lookUp_blockOf h, lookUp_blocks]
  cases hopener : layout.opens index with
  | false => simp
  | true =>
    have hhome : layout.home? index = some index := by rw [home?, if_pos hopener]
    simp [hhome, blockWith]

/-- The rows of a subproof are rows of the proof. -/
theorem lt_length_of_mem_subproofRange {other : Nat} (h : index < layout.length)
    (hother : other ∈ layout.subproofRange index) : other < layout.length := by
  cases hopens : layout.opens index with
  | false =>
    obtain rfl : other = index := by simpa [subproofRange, hopens] using hother
    exact h
  | true => exact ((mem_subproofRange hopens).1 hother).lt_length

theorem subproofConclusions_eq_ok (hlength : layout.length < Word.limit 64)
    (h : index < layout.length) :
    layout.blockTable.subproofConclusions index = .ok (layout.subproofConclusions index) := by
  obtain ⟨_, hlook, -, hlevel, -⟩ := lookUp_rows h
  have hrows : layout.blockTable.rows = layout := rfl
  rw [BlockTable.subproofConclusions, subproofConclusions, subproofRange_eq_ok hlength h]
  simp only [bind, Except.bind, pure, Except.pure, hrows, hlook, ← hlevel]
  refine filter_eq_ok fun other hother => ?_
  obtain ⟨_, hrow, -, hlevel', hassumption, -⟩ :=
    lookUp_rows (lt_length_of_mem_subproofRange h (List.mem_of_mem_drop hother))
  rw [hrow, hlevel', hassumption]

theorem concludedSubproof?_eq_ok (h : index < layout.length) :
    layout.blockTable.concludedSubproof? index = .ok (layout.concludedSubproof? index) := by
  obtain ⟨_, hlook, -, hlevel, hassumption, -⟩ := lookUp_rows h
  have hrows : layout.blockTable.rows = layout := rfl
  rw [BlockTable.concludedSubproof?, concludedSubproof?]
  simp only [bind, Except.bind, pure, Except.pure, hrows, hlook, ← hassumption, ← hlevel,
    lookUp_blockOf h, lookUp_blocks]
  cases layout.isAssumption index with
  | true => rfl
  | false =>
    cases hhome : layout.home? index with
    | none => rfl
    | some opener =>
      obtain ⟨_, hopener, -, hsame, -⟩ :=
        lookUp_rows (lt_length_of_opens (opens_of_mem_home? hhome))
      simp [blockWith, hopener, ← hsame, Option.filter]

end Layout

end NaturalDeduction
