/-
  Where the subproofs of a tree stand.

  The blocks of a proof tree are its subproofs and the proof as a whole. Each
  has its items, and the rows from its assumption to its last row. What the
  layout of the rows says is read off the blocks here: which rows a subproof
  has, which block a line or a subproof belongs to, and what a line may cite.
-/

import NaturalDeduction.Proofs.Layout.InForce
import NaturalDeduction.Proofs.Layout.Pass
import NaturalDeduction.Proofs.Layout.Tree

namespace NaturalDeduction

/-! ## Blocks -/

/-- Items at a level with the position of their first row, and the position of the assumption above
them. The items of the proof itself have none. -/
structure Block where
  opener? : Option Nat
  level : Nat
  first : Nat
  items : Items
  deriving DecidableEq, Repr

namespace Items

/-- Where the items begin that follow each other from `first` on, and whether they are subproofs. -/
def heads (first : Nat) : Items → List (Nat × Bool)
  | nil => []
  | line rest => (first, false) :: heads (first + 1) rest
  | subproof inner rest => (first, true) :: heads (first + 1 + inner.size) rest

/-- The subproofs among the items and inside them. -/
def blocks (level first : Nat) : Items → List Block
  | nil => []
  | line rest => blocks level (first + 1) rest
  | subproof inner rest =>
    ⟨some first, level + 1, first + 1, inner⟩ ::
      (blocks (level + 1) (first + 1) inner ++ blocks level (first + 1 + inner.size) rest)

end Items

namespace Block

/-- The line at the position is an item of the block. -/
def HasLine (block : Block) (position : Nat) : Prop :=
  (position, false) ∈ block.items.heads block.first

/-- A subproof that begins at the position is an item of the block. -/
def HasSubproof (block : Block) (position : Nat) : Prop :=
  (position, true) ∈ block.items.heads block.first

/-- The positions of all rows of the block, from its assumption on. The proof itself begins with its
first premise. -/
def positions (block : Block) : List Nat :=
  let start := block.opener?.getD 0
  List.range' start (block.first + block.items.size - start)

end Block

namespace ProofTree

/-- The proof as a whole. -/
def root (tree : ProofTree) : Block :=
  ⟨none, 0, tree.premises, tree.items⟩

/-- The proof as a whole and all its subproofs. -/
def blocks (tree : ProofTree) : List Block :=
  tree.root :: tree.items.blocks 0 tree.premises

/-- What a line may cite: a premise of the proof, the assumption of a subproof around the line, an
earlier line that is an item of a block around the line, and the assumption of an earlier subproof
that is an item of the line's own block. -/
inductive Citable (tree : ProofTree) (line cited : Nat) : Prop where
  | premise (hcited : cited < tree.premises)
  | opener (block : Block) (hblock : block ∈ tree.blocks) (hline : line ∈ block.positions)
      (hcited : block.opener? = some cited)
  | line (block : Block) (hblock : block ∈ tree.blocks) (hline : line ∈ block.positions)
      (hcited : block.HasLine cited) (hlt : cited < line)
  | subproof (block : Block) (hblock : block ∈ tree.blocks) (hline : block.HasLine line)
      (hcited : block.HasSubproof cited) (hlt : cited < line)

end ProofTree

/-! ## The rows of items -/

namespace Items

variable {level first : Nat} {rest layout : Layout}

/-- The rows of items keep a subproof at their level open. -/
theorem closes_eq_false_of_mem_rows {items : Items} {row : Row} (h : row ∈ items.rows level) :
    row.closes level = false := by
  induction items generalizing level with
  | nil => cases h
  | line others ih =>
    rcases List.mem_cons.1 h with rfl | h
    · simp [Row.closes]
    · exact ih h
  | subproof inner others ihInner ihOthers =>
    rcases List.mem_cons.1 h with rfl | h
    · simp [Row.closes]
    · rcases List.mem_append.1 h with h | h
      · have := (Layout.closes_eq_false_iff.1 (ihInner h)).1
        exact Layout.closes_eq_false_iff.2 ⟨Nat.le_of_succ_le this, fun heq => by omega⟩
      · exact ihOthers h

theorem le_of_mem_heads {items : Items} {position : Nat} {isSubproof : Bool}
    (h : (position, isSubproof) ∈ items.heads first) : first ≤ position := by
  induction items generalizing first with
  | nil => cases h
  | line others ih =>
    rcases List.mem_cons.1 h with h | h
    · cases h
      exact Nat.le_refl _
    · exact Nat.le_of_succ_le (ih h)
  | subproof inner others _ ih =>
    rcases List.mem_cons.1 h with h | h
    · cases h
      exact Nat.le_refl _
    · have := ih h
      omega

/-- The items begin with the rows at their level that are lines, and the rows one level deeper that
are assumptions. -/
theorem mem_heads_iff (items : Items) (level first index : Nat) (isSubproof : Bool) :
    (first + index, isSubproof) ∈ items.heads first ↔
      (items.rows level)[index]? = some ⟨level + isSubproof.toNat, isSubproof⟩ := by
  induction items generalizing first index with
  | nil => simp [heads, rows]
  | line others ih =>
    cases index with
    | zero =>
      have hlater : (first, isSubproof) ∉ others.heads (first + 1) := fun h =>
        Nat.not_succ_le_self first (le_of_mem_heads h)
      cases isSubproof <;> simp [heads, rows, hlater]
    | succ index =>
      have hoffset : first + (index + 1) = first + 1 + index := by omega
      have hne : first + 1 + index ≠ first := by omega
      rw [hoffset, rows, List.getElem?_cons_succ, ← ih (first + 1) index]
      simp [heads, hne]
  | subproof inner others _ ih =>
    cases index with
    | zero =>
      have hlater : (first, isSubproof) ∉ others.heads (first + 1 + inner.size) := fun h => by
        have := le_of_mem_heads h
        omega
      cases isSubproof <;> simp [heads, rows, hlater]
    | succ index =>
      have hhead : (first + (index + 1), isSubproof) ≠ (first, true) := by simp
      rw [heads, List.mem_cons, rows, List.getElem?_cons_succ]
      rcases Nat.lt_or_ge index inner.size with hlt | hge
      · -- The inner rows are deeper than the items, and their assumptions even more so.
        rw [List.getElem?_append_left (by simpa using hlt)]
        refine ⟨fun h => ?_, fun h => ?_⟩
        · have := le_of_mem_heads (h.resolve_left hhead)
          omega
        · obtain ⟨hle, hplain⟩ := Layout.closes_eq_false_iff.1
            (closes_eq_false_of_mem_rows (List.mem_of_getElem? h))
          cases isSubproof
          · exact absurd hle (Nat.not_succ_le_self level)
          · cases hplain rfl
      · obtain ⟨index, rfl⟩ := Nat.exists_eq_add_of_le hge
        have hoffset : first + (inner.size + index + 1) = first + 1 + inner.size + index := by omega
        have hlength : inner.size + index - (inner.rows (level + 1)).length = index := by simp
        rw [List.getElem?_append_right (by simp), hlength, ← ih (first + 1 + inner.size) index,
          ← hoffset]
        exact or_iff_right hhead

end Items

/-! ## Rows by their levels -/

namespace Layout

variable {layout : Layout} {a i : Nat}

theorem getElem?_eq_some_iff {level : Nat} {assumption : Bool} :
    layout[i]? = some ⟨level, assumption⟩ ↔
      i < layout.length ∧ layout.levelAt i = level ∧ layout.isAssumption i = assumption := by
  rcases Nat.lt_or_ge i layout.length with hlt | hge
  · rw [List.getElem?_eq_getElem hlt, Option.some_inj]
    simp only [levelAt, isAssumption, List.getElem?_eq_getElem hlt, hlt, Option.map_some,
      Option.getD_some, Option.any_some, true_and]
    exact ⟨fun h => by simp [h], fun h => by rw [← h.1, ← h.2]⟩
  · simp [Nat.not_lt.2 hge]

/-- A subproof begins with an assumption. -/
theorem ne_of_opens (ha : layout.opens a = true) (hi : layout.isAssumption i = false) : a ≠ i := by
  rintro rfl
  rw [(opens_iff.1 ha).1] at hi
  cases hi

/-- A row belongs to the subproof around it that has the level of the row. -/
theorem home?_eq_some_of_levelAt (h : layout.Contains a i)
    (hlevel : layout.levelAt i = layout.levelAt a) : layout.home? i = some a := by
  refine home?_eq_some_iff.2 ⟨h, fun c hc => ?_⟩
  by_contra hlt
  -- A subproof further in would be deeper.
  have hac : layout.Contains a c := h.of_le (Nat.le_of_not_le hlt) hc.le
  have := hac.level_lt (by omega) (opens_iff.1 hc.opens).1
  have := hc.level_le
  omega

/-- A subproof lies directly in the one around it that is one level up. -/
theorem enclosing?_eq_some_of_levelAt (h : layout.Contains a i) (hi : layout.opens i = true)
    (hlevel : layout.levelAt i = layout.levelAt a + 1) : layout.enclosing? i = some a := by
  have hne : a ≠ i := by
    rintro rfl
    omega
  refine enclosing?_eq_some_iff.2 ⟨Nat.lt_of_le_of_ne h.le hne, h, fun c hci hc => ?_⟩
  by_contra hlt
  have hac : layout.Contains a c := h.of_le (Nat.le_of_not_le hlt) hc.le
  have := hac.level_lt (by omega) (opens_iff.1 hc.opens).1
  have := hc.level_lt (Nat.ne_of_lt hci) (opens_iff.1 hi).1
  omega

/-- A subproof at level 1 lies in no other one. -/
theorem enclosing?_eq_none_of_levelAt (hi : layout.opens i = true)
    (hlevel : layout.levelAt i = 1) : layout.enclosing? i = none := by
  refine enclosing?_eq_none_iff.2 fun c hci hc => ?_
  have := hc.level_lt (Nat.ne_of_lt hci) (opens_iff.1 hi).1
  have := (opens_iff.1 hc.opens).2
  omega

end Layout

/-! ## Blocks among the rows -/

/-- The items of the block stand in the layout right behind its assumption, and what follows them
ends the block. -/
structure Block.Placed (block : Block) (layout : Layout) : Prop where
  rows : ∃ rest, layout.drop block.first = block.items.rows block.level ++ rest ∧
    Items.Closed block.level rest
  opener : ∀ opener, block.opener? = some opener →
    block.first = opener + 1 ∧ layout[opener]? = some ⟨block.level, true⟩ ∧ 0 < block.level
  root : block.opener? = none → block.level = 0 ∧
    layout.length = block.first + block.items.size ∧
      ∀ index < block.first, layout[index]? = some ⟨0, true⟩

theorem Layout.drop_succ_of_drop_eq {layout rest : Layout} {row : Row} {first : Nat}
    (h : layout.drop first = row :: rest) :
    layout[first]? = some row ∧ layout.drop (first + 1) = rest := by
  constructor
  · rw [← Nat.add_zero first, ← List.getElem?_drop, h]
    rfl
  · rw [← List.drop_drop, h]
    rfl

namespace Items

variable {level first : Nat} {rest layout : Layout}

/-- Where a subproof stands, its assumption, its items and the items behind it stand. -/
theorem drop_of_drop_eq_subproof {inner others : Items}
    (h : layout.drop first = (subproof inner others).rows level ++ rest) :
    layout[first]? = some ⟨level + 1, true⟩ ∧
      layout.drop (first + 1) = inner.rows (level + 1) ++ (others.rows level ++ rest) ∧
      layout.drop (first + 1 + inner.size) = others.rows level ++ rest := by
  rw [rows, List.cons_append, List.append_assoc] at h
  obtain ⟨hopener, hinner⟩ := Layout.drop_succ_of_drop_eq h
  refine ⟨hopener, hinner, ?_⟩
  rw [← List.drop_drop, hinner, List.drop_append_of_le_length (by simp)]
  simp

/-- Where items stand among the rows, the subproofs inside them stand as well. -/
theorem placed_of_mem_blocks {items : Items} (h : layout.drop first = items.rows level ++ rest)
    (hrest : Closed level rest) {block : Block} (hblock : block ∈ items.blocks level first) :
    block.Placed layout := by
  induction items generalizing level first rest with
  | nil => cases hblock
  | line others ih => exact ih (Layout.drop_succ_of_drop_eq h).2 hrest hblock
  | subproof inner others ihInner ihOthers =>
    obtain ⟨hopener, hinner, hothers⟩ := drop_of_drop_eq_subproof h
    rcases List.mem_cons.1 hblock with rfl | hblock
    · refine ⟨⟨_, hinner, closed_rows others hrest⟩, fun opener heq => ?_, fun heq => ?_⟩
      · cases heq
        exact ⟨rfl, hopener, Nat.succ_pos level⟩
      · cases heq
    · rcases List.mem_append.1 hblock with hblock | hblock
      · exact ihInner hinner (closed_rows others hrest) hblock
      · exact ihOthers hothers hrest hblock

/-- Every subproof that begins among the rows of items is one of them or inside one. -/
theorem exists_block_of_opens {items : Items} (h : layout.drop first = items.rows level ++ rest)
    {position : Nat} (hfirst : first ≤ position) (hlast : position < first + items.size)
    (hopens : layout.opens position = true) :
    ∃ block ∈ items.blocks level first, block.opener? = some position := by
  induction items generalizing level first rest with
  | nil => exact absurd hlast (Nat.not_lt.2 hfirst)
  | line others ih =>
    obtain ⟨hrow, hdrop⟩ := Layout.drop_succ_of_drop_eq h
    rcases Nat.eq_or_lt_of_le hfirst with rfl | hlt
    · simp [Layout.opens, hrow, Row.opensSubproof] at hopens
    · exact ih hdrop hlt (by simpa [size, Nat.add_assoc, Nat.add_comm 1] using hlast)
  | subproof inner others ihInner ihOthers =>
    obtain ⟨-, hinner, hothers⟩ := drop_of_drop_eq_subproof h
    simp only [blocks, List.mem_cons, List.mem_append]
    rcases Nat.eq_or_lt_of_le hfirst with rfl | hlt
    · exact ⟨_, .inl rfl, rfl⟩
    rcases Nat.lt_or_ge position (first + 1 + inner.size) with hin | hout
    · obtain ⟨block, hblock, heq⟩ := ihInner hinner hlt hin
      exact ⟨block, .inr (.inl hblock), heq⟩
    · obtain ⟨block, hblock, heq⟩ := ihOthers hothers hout (by simp only [size] at hlast; omega)
      exact ⟨block, .inr (.inr hblock), heq⟩

end Items

namespace Block.Placed

variable {block : Block} {layout : Layout} {position opener : Nat}

theorem getElem?_eq (h : block.Placed layout) (hfirst : block.first ≤ position)
    (hlast : position < block.first + block.items.size) :
    layout[position]? = (block.items.rows block.level)[position - block.first]? := by
  obtain ⟨rest, hrows, -⟩ := h.rows
  have hoffset : block.first + (position - block.first) = position := by omega
  rw [← hoffset, ← List.getElem?_drop, hrows, Nat.add_sub_cancel_left,
    List.getElem?_append_left (by rw [Items.length_rows]; omega)]

/-- An item of the block begins where the rows of the block have the level of the items. -/
theorem mem_heads_iff (h : block.Placed layout) {isSubproof : Bool} :
    (position, isSubproof) ∈ block.items.heads block.first ↔
      block.first ≤ position ∧ position < block.first + block.items.size ∧
        layout[position]? = some ⟨block.level + isSubproof.toNat, isSubproof⟩ := by
  constructor
  · intro hmem
    have hfirst := Items.le_of_mem_heads hmem
    obtain ⟨index, rfl⟩ := Nat.exists_eq_add_of_le hfirst
    have hrow := (Items.mem_heads_iff _ block.level _ _ _).1 hmem
    have hlast : index < block.items.size := by
      simpa using (List.getElem?_eq_some_iff.1 hrow).1
    refine ⟨hfirst, Nat.add_lt_add_left hlast _, ?_⟩
    rwa [h.getElem?_eq hfirst (Nat.add_lt_add_left hlast _), Nat.add_sub_cancel_left]
  · rintro ⟨hfirst, hlast, hrow⟩
    rw [h.getElem?_eq hfirst hlast] at hrow
    have hmem := (Items.mem_heads_iff _ block.level block.first _ _).2 hrow
    rwa [Nat.add_sub_cancel' hfirst] at hmem

theorem opens (h : block.Placed layout) (hopener : block.opener? = some opener) :
    layout.opens opener = true := by
  obtain ⟨-, hrow, hpos⟩ := h.opener opener hopener
  simp [Layout.opens, hrow, Row.opensSubproof, hpos]

theorem levelAt_opener (h : block.Placed layout) (hopener : block.opener? = some opener) :
    layout.levelAt opener = block.level := by
  obtain ⟨-, hrow, -⟩ := h.opener opener hopener
  simp [Layout.levelAt, hrow]

/-- The subproof ends behind its items. -/
theorem subproofEnd_eq (h : block.Placed layout) (hopener : block.opener? = some opener) :
    layout.subproofEnd opener = block.first + block.items.size := by
  obtain ⟨hfirst, -, -⟩ := h.opener opener hopener
  obtain ⟨rest, hrows, hclosed⟩ := h.rows
  have hrest : rest.takeWhile (fun row => !row.closes block.level) = [] := by
    cases rest with
    | nil => rfl
    | cons row rest => simp [Items.closed_cons.1 hclosed]
  rw [Layout.subproofEnd, h.levelAt_opener hopener, ← hfirst, hrows,
    List.takeWhile_append_of_pos, hrest, List.append_nil, Items.length_rows]
  intro row hrow
  simp [Items.closes_eq_false_of_mem_rows hrow]

/-- The rows of a subproof are those of its block. -/
theorem subproofRange_eq (h : block.Placed layout) (hopener : block.opener? = some opener) :
    layout.subproofRange opener = block.positions := by
  rw [Layout.subproofRange, if_pos (h.opens hopener), h.subproofEnd_eq hopener, Block.positions,
    hopener]
  rfl

/-- The rows of a block are those within it. -/
theorem mem_positions_iff (h : block.Placed layout) :
    position ∈ block.positions ↔ layout.within block.opener? position = true := by
  cases hopener : block.opener? with
  | none =>
    obtain ⟨-, hlength, -⟩ := h.root hopener
    simp [Block.positions, hopener, Layout.within, hlength]
  | some opener =>
    have hend := h.subproofEnd_eq hopener
    obtain ⟨hfirst, -, -⟩ := h.opener opener hopener
    simp only [Block.positions, hopener, Option.getD_some, List.mem_range'_1, Layout.within, hend,
      Bool.and_eq_true, decide_eq_true_eq]
    omega

end Block.Placed

/-! ## The blocks of a tree -/

namespace ProofTree

variable {tree : ProofTree} {block : Block} {index opener : Nat}

theorem length_rows (tree : ProofTree) : tree.rows.length = tree.premises + tree.items.size := by
  simp [rows]

theorem drop_rows (tree : ProofTree) :
    tree.rows.drop tree.premises = tree.items.rows 0 ++ [] := by
  rw [rows, List.append_nil]
  exact List.drop_left' (List.length_replicate ..)

theorem getElem?_rows_of_lt (h : index < tree.premises) : tree.rows[index]? = some ⟨0, true⟩ := by
  rw [rows, List.getElem?_append_left (by simpa using h)]
  simp [h]

/-- The premises are the assumptions at level 0. -/
theorem lt_premises_iff : index < tree.premises ↔
    tree.rows.isAssumption index = true ∧ tree.rows.levelAt index = 0 := by
  constructor
  · intro h
    simp [Layout.isAssumption, Layout.levelAt, getElem?_rows_of_lt h]
  · rintro ⟨hassumption, hlevel⟩
    by_contra hge
    obtain ⟨offset, rfl⟩ := Nat.exists_eq_add_of_le (Nat.le_of_not_lt hge)
    have hrow : tree.rows[tree.premises + offset]? = (tree.items.rows 0)[offset]? := by
      rw [← List.getElem?_drop, drop_rows, List.append_nil]
    cases hat : (tree.items.rows 0)[offset]? with
    | none => simp [Layout.isAssumption, hrow, hat] at hassumption
    | some row =>
      -- The rows of items keep level 0 open, so none of them is a premise.
      have hopen := Items.closes_eq_false_of_mem_rows (List.mem_of_getElem? hat)
      simp_all [Layout.isAssumption, Layout.levelAt, Row.closes]

theorem placed_of_mem_blocks (h : block ∈ tree.blocks) : block.Placed tree.rows := by
  rcases List.mem_cons.1 h with rfl | h
  · refine ⟨⟨[], tree.drop_rows, Items.closed_nil 0⟩, fun opener hopener => ?_, fun _ => ?_⟩
    · cases hopener
    · exact ⟨rfl, tree.length_rows, fun index hindex => getElem?_rows_of_lt hindex⟩
  · exact Items.placed_of_mem_blocks tree.drop_rows (Items.closed_nil 0) h

/-- The subproofs of the rows are the blocks of the tree. -/
theorem opens_iff_exists_block : tree.rows.opens opener = true ↔
    ∃ block ∈ tree.blocks, block.opener? = some opener := by
  constructor
  · intro hopens
    obtain ⟨hassumption, hpos⟩ := Layout.opens_iff.1 hopens
    have hfirst : tree.premises ≤ opener := by
      by_contra hlt
      have := (lt_premises_iff.1 (Nat.lt_of_not_le hlt)).2
      omega
    have hlast := Layout.lt_length_of_opens hopens
    rw [length_rows] at hlast
    obtain ⟨block, hblock, heq⟩ :=
      Items.exists_block_of_opens tree.drop_rows hfirst hlast hopens
    exact ⟨block, .tail _ hblock, heq⟩
  · rintro ⟨block, hblock, hopener⟩
    exact (placed_of_mem_blocks hblock).opens hopener

/-- Every row that belongs to a subproof, or to none, belongs to a block. -/
theorem exists_block_of_home? (tree : ProofTree) (index : Nat) :
    ∃ block ∈ tree.blocks, block.opener? = tree.rows.home? index := by
  cases hhome : tree.rows.home? index with
  | none => exact ⟨tree.root, .head _, rfl⟩
  | some opener =>
    exact opens_iff_exists_block.1 (Layout.home?_eq_some_iff.1 hhome).1.opens

/-! ### Which block an item belongs to -/

/-- The rows of the proof itself that do not stand in a subproof begin behind the premises. -/
theorem first_le_of_root (h : block.Placed tree.rows) (hroot : block.opener? = none)
    (hnot : tree.rows.levelAt index ≠ 0 ∨ tree.rows.isAssumption index = false) :
    block.first ≤ index := by
  by_contra hlt
  obtain ⟨-, -, hpremises⟩ := h.root hroot
  obtain ⟨-, hlevel, hassumption⟩ :=
    Layout.getElem?_eq_some_iff.1 (hpremises index (Nat.lt_of_not_le hlt))
  rcases hnot with hnot | hnot
  · exact hnot hlevel
  · rw [hassumption] at hnot
    cases hnot

/-- A line is an item of the block that it belongs to. -/
theorem hasLine_iff (hblock : block ∈ tree.blocks) : block.HasLine index ↔
    index < tree.rows.length ∧ tree.rows.isAssumption index = false ∧
      tree.rows.home? index = block.opener? := by
  have hplaced := placed_of_mem_blocks hblock
  rw [Block.HasLine, hplaced.mem_heads_iff, Layout.getElem?_eq_some_iff]
  constructor
  · rintro ⟨hfirst, hlast, hlt, hlevel, hassumption⟩
    refine ⟨hlt, hassumption, ?_⟩
    cases hopener : block.opener? with
    | none =>
      rw [(hplaced.root hopener).1] at hlevel
      exact Layout.home?_eq_none_of_levelAt hlevel
    | some opener =>
      have hle := (hplaced.opener opener hopener).1
      refine Layout.home?_eq_some_of_levelAt ⟨hplaced.opens hopener, by omega, ?_⟩ ?_
      · rwa [hplaced.subproofEnd_eq hopener]
      · rw [hlevel, hplaced.levelAt_opener hopener]
        rfl
  · rintro ⟨hlt, hassumption, hhome⟩
    cases hopener : block.opener? with
    | none =>
      obtain ⟨hlevel, hlength, -⟩ := hplaced.root hopener
      rw [hopener, Layout.home?_eq_none_iff_levelAt tree.validate_rows hlt] at hhome
      refine ⟨first_le_of_root hplaced hopener (.inr hassumption), by omega, hlt, ?_, hassumption⟩
      rw [hhome, hlevel]
      rfl
    | some opener =>
      rw [hopener] at hhome
      have hcontains := (Layout.home?_eq_some_iff.1 hhome).1
      have hlast := hcontains.lt_end
      rw [hplaced.subproofEnd_eq hopener] at hlast
      have hne := Layout.ne_of_opens hcontains.opens hassumption
      have hle := hcontains.le
      have hfirst := (hplaced.opener opener hopener).1
      refine ⟨by omega, hlast, hlt, ?_, hassumption⟩
      rw [← Layout.levelAt_home? tree.validate_rows hhome, hplaced.levelAt_opener hopener]
      rfl

/-- A subproof is an item of the block around it. -/
theorem hasSubproof_iff (hblock : block ∈ tree.blocks) : block.HasSubproof index ↔
    tree.rows.opens index = true ∧ tree.rows.enclosing? index = block.opener? := by
  have hplaced := placed_of_mem_blocks hblock
  rw [Block.HasSubproof, hplaced.mem_heads_iff, Layout.getElem?_eq_some_iff]
  constructor
  · rintro ⟨hfirst, hlast, hlt, hlevel, hassumption⟩
    rw [Bool.toNat_true] at hlevel
    have hopens := Layout.opens_iff.2 ⟨hassumption, hlevel ▸ Nat.succ_pos block.level⟩
    refine ⟨hopens, ?_⟩
    cases hopener : block.opener? with
    | none =>
      rw [(hplaced.root hopener).1] at hlevel
      exact Layout.enclosing?_eq_none_of_levelAt hopens hlevel
    | some opener =>
      have hle := (hplaced.opener opener hopener).1
      refine Layout.enclosing?_eq_some_of_levelAt
        ⟨hplaced.opens hopener, by omega, ?_⟩ hopens ?_
      · rwa [hplaced.subproofEnd_eq hopener]
      · rw [hlevel, hplaced.levelAt_opener hopener]
  · rintro ⟨hopens, henclosing⟩
    obtain ⟨hassumption, hpos⟩ := Layout.opens_iff.1 hopens
    have hlt := Layout.lt_length_of_opens hopens
    have hlevel := Layout.levelAt_enclosing? tree.validate_rows hopens
    cases hopener : block.opener? with
    | none =>
      obtain ⟨hroot, hlength, -⟩ := hplaced.root hopener
      rw [henclosing, hopener] at hlevel
      refine ⟨first_le_of_root hplaced hopener (.inl (Nat.ne_of_gt hpos)), by omega, hlt, ?_,
        hassumption⟩
      rw [hlevel, hroot]
      rfl
    | some opener =>
      rw [henclosing, hopener] at hlevel
      rw [hopener, Layout.enclosing?_eq_some_iff] at henclosing
      obtain ⟨hle, hcontains, -⟩ := henclosing
      have hlast := hcontains.lt_end
      rw [hplaced.subproofEnd_eq hopener] at hlast
      have hfirst := (hplaced.opener opener hopener).1
      refine ⟨by omega, hlast, hlt, ?_, hassumption⟩
      rw [hlevel, Option.map_some, Option.getD_some, hplaced.levelAt_opener hopener]
      rfl

/-! ### What a line may cite -/

/-- A line may cite what the tree says that it may cite. -/
theorem isAccessible_iff_citable {line cited : Nat} (hlt : line < tree.rows.length)
    (hplain : tree.rows.isAssumption line = false) :
    tree.rows.isAccessible cited line = true ↔ tree.Citable line cited := by
  rw [Layout.isAccessible_iff]
  constructor
  · rintro ⟨hcited, -, -, hwithin | hbeside⟩
    · obtain ⟨block, hblock, hhome⟩ := tree.exists_block_of_home? cited
      have hline : line ∈ block.positions := by
        rwa [(placed_of_mem_blocks hblock).mem_positions_iff, hhome]
      cases hassumption : tree.rows.isAssumption cited with
      | false =>
        have hcitedLine := (hasLine_iff hblock).2 ⟨Nat.lt_trans hcited hlt, hassumption, hhome.symm⟩
        exact .line block hblock hline hcitedLine hcited
      | true =>
        rcases Layout.opens_or_levelAt_eq_zero hassumption with hopens | hzero
        · rw [Layout.home?, if_pos hopens] at hhome
          exact .opener block hblock hline hhome
        · exact .premise (lt_premises_iff.2 ⟨hassumption, hzero⟩)
    · obtain ⟨hopens, -, hparent⟩ := Layout.isFinishedBeside_iff.1 hbeside
      obtain ⟨block, hblock, hhome⟩ := tree.exists_block_of_home? line
      exact .subproof block hblock ((hasLine_iff hblock).2 ⟨hlt, hplain, hhome.symm⟩)
        ((hasSubproof_iff hblock).2 ⟨hopens, hparent.trans hhome.symm⟩) hcited
  · intro hcitable
    have hwithin : ∀ {block : Block}, block ∈ tree.blocks → line ∈ block.positions →
        tree.rows.home? cited = block.opener? →
        tree.rows.within (tree.rows.home? cited) line = true := by
      intro block hblock hline hhome
      rwa [hhome, ← (placed_of_mem_blocks hblock).mem_positions_iff]
    cases hcitable with
    | premise hcited =>
      obtain ⟨hassumption, hzero⟩ := lt_premises_iff.1 hcited
      refine ⟨?_, hlt, hplain, .inl ?_⟩
      · by_contra hle
        have := (lt_premises_iff.1 (Nat.lt_of_le_of_lt (Nat.le_of_not_lt hle) hcited)).1
        rw [hplain] at this
        cases this
      · rw [Layout.home?_eq_none_of_levelAt hzero]
        simpa [Layout.within] using hlt
    | opener block hblock hline hcited =>
      have hopens := (placed_of_mem_blocks hblock).opens hcited
      have hhome : tree.rows.home? cited = some cited := by rw [Layout.home?, if_pos hopens]
      have hin := hwithin hblock hline (hhome.trans hcited.symm)
      refine ⟨?_, hlt, hplain, .inl hin⟩
      rw [hhome] at hin
      simp only [Layout.within, Bool.and_eq_true, decide_eq_true_eq] at hin
      exact Nat.lt_of_le_of_ne hin.1 (Layout.ne_of_opens hopens hplain)
    | line block hblock hline hcited hlt' =>
      obtain ⟨-, -, hhome⟩ := (hasLine_iff hblock).1 hcited
      exact ⟨hlt', hlt, hplain, .inl (hwithin hblock hline hhome)⟩
    | subproof block hblock hline hcited hlt' =>
      obtain ⟨-, -, hhome⟩ := (hasLine_iff hblock).1 hline
      obtain ⟨hopens, hparent⟩ := (hasSubproof_iff hblock).1 hcited
      refine ⟨hlt', hlt, hplain, .inr (Layout.isFinishedBeside_iff.2
        ⟨hopens, ?_, hparent.trans hhome.symm⟩)⟩
      -- Were the subproof still open at the line, the line would belong to it or to one inside it.
      by_contra hopen
      have hcontains : tree.rows.Contains cited line :=
        ⟨hopens, Nat.le_of_lt hlt', Nat.lt_of_not_le hopen⟩
      obtain ⟨inner, hinner, -, hcitedInner⟩ := hcontains.exists_home?
      rw [hhome, ← hparent, Layout.enclosing?_eq_some_iff] at hinner
      exact Nat.not_lt.2 hcitedInner.le hinner.1

theorem mem_accessible_iff {line cited : Nat} (hlt : line < tree.rows.length)
    (hplain : tree.rows.isAssumption line = false) :
    cited ∈ tree.rows.accessible line ↔ tree.Citable line cited := by
  rw [← isAccessible_iff_citable hlt hplain, Layout.accessible, List.mem_filter, List.mem_range]
  exact and_iff_right_of_imp Layout.lt_of_isAccessible

/-! ### The layout of a tree -/

/-- The layout has the subproofs of the tree, and lines may cite what the tree says. The pass over
the rows goes through and agrees with the layout. -/
structure Describes (tree : ProofTree) (layout : Layout) : Prop where
  pass : ∃ pass, layout.pass = some pass ∧ pass.Agrees layout
  placed : ∀ block ∈ tree.blocks, block.Placed layout
  opens_iff : ∀ opener, layout.opens opener = true ↔
    ∃ block ∈ tree.blocks, block.opener? = some opener
  subproofRange_eq : ∀ block ∈ tree.blocks, ∀ opener, block.opener? = some opener →
    layout.subproofRange opener = block.positions
  mem_accessible_iff : ∀ line, line < layout.length → layout.isAssumption line = false →
    ∀ cited, cited ∈ layout.accessible line ↔ tree.Citable line cited
  accessible_eq_nil : ∀ line, layout.isAssumption line = true → layout.accessible line = []

theorem describes_rows (tree : ProofTree) : tree.Describes tree.rows where
  pass := Layout.exists_pass tree.validate_rows
  placed := fun _ => placed_of_mem_blocks
  opens_iff := fun _ => opens_iff_exists_block
  subproofRange_eq := fun _ hblock _ => (placed_of_mem_blocks hblock).subproofRange_eq
  mem_accessible_iff := fun _ hlt hplain _ => mem_accessible_iff hlt hplain
  accessible_eq_nil := fun _ => Layout.accessible_of_isAssumption

/-- The rows are well nested exactly when they are those of a proof tree. There is one tree for
them, and it describes their layout. -/
theorem validate_iff_exists_tree (layout : Layout) :
    (layout.validate = .ok () ↔ ∃ tree : ProofTree, tree.rows = layout) ∧
      ∀ tree : ProofTree, tree.rows = layout →
        (∀ other : ProofTree, other.rows = layout → other = tree) ∧ tree.Describes layout := by
  refine ⟨validate_eq_ok_iff_exists_rows, ?_⟩
  rintro tree rfl
  exact ⟨fun other => rows_injective, tree.describes_rows⟩

/-- Below a finished subproof, a line may cite the premise and the subproof. -/
theorem validate_iff_exists_tree_finishedSubproof : ∃ tree : ProofTree,
    tree.rows = [⟨0, true⟩, ⟨1, true⟩, ⟨1, false⟩, ⟨0, false⟩] ∧
      tree.Citable 3 0 ∧ tree.Citable 3 1 ∧ ¬ tree.Citable 3 2 := by
  obtain ⟨hvalid, htree⟩ :=
    validate_iff_exists_tree [⟨0, true⟩, ⟨1, true⟩, ⟨1, false⟩, ⟨0, false⟩]
  obtain ⟨tree, hrows⟩ := hvalid.1 (by decide)
  have hcitable := (htree tree hrows).2.mem_accessible_iff 3 (by decide) (by decide)
  refine ⟨tree, hrows, (hcitable 0).1 (by decide), (hcitable 1).1 (by decide), fun h => ?_⟩
  exact absurd ((hcitable 2).2 h) (by decide)

end ProofTree

end NaturalDeduction
