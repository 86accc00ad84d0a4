/-
  Proofs as trees.

  A proof tree has premises and below them items, each of which is a line or a
  subproof with items of its own. Read from left to right, a tree gives rows.
  The rows that trees give are exactly the well nested ones, and no two trees
  give the same rows: where the items of a subproof end is told by the first
  row that they cannot go on with.
-/

import NaturalDeduction.Proofs.Layout.Nesting

namespace NaturalDeduction

/-! ## Trees and their rows -/

/-- Items in order, those of a subproof or those of a proof below its premises. -/
inductive Items where
  | nil
  | line (rest : Items)
  | subproof (inner rest : Items)
  deriving DecidableEq, Repr

namespace Items

/-- The rows of items at a level. A subproof begins with its assumption, one level deeper. -/
def rows (level : Nat) : Items → Layout
  | nil => []
  | line rest => ⟨level, false⟩ :: rows level rest
  | subproof inner rest => ⟨level + 1, true⟩ :: (rows (level + 1) inner ++ rows level rest)

/-- The number of rows. -/
def size : Items → Nat
  | nil => 0
  | line rest => rest.size + 1
  | subproof inner rest => inner.size + rest.size + 1

@[simp] theorem length_rows (items : Items) (level : Nat) :
    (items.rows level).length = items.size := by
  induction items generalizing level with
  | nil => rfl
  | line rest ih => simp [rows, size, ih]
  | subproof inner rest ihInner ihRest => simp [rows, size, ihInner, ihRest]

end Items

/-- A proof with its subproofs as a tree. -/
structure ProofTree where
  premises : Nat
  items : Items
  deriving DecidableEq, Repr

/-- The rows of a proof tree, from the first line to the last. -/
def ProofTree.rows (tree : ProofTree) : Layout :=
  List.replicate tree.premises ⟨0, true⟩ ++ tree.items.rows 0

example : (ProofTree.mk 1 (.subproof (.line .nil) (.line .nil))).rows =
    [⟨0, true⟩, ⟨1, true⟩, ⟨1, false⟩, ⟨0, false⟩] := rfl

namespace Items

variable {level previous index : Nat} {rest more : Layout}

/-! ## Where items end -/

/-- The rows cannot go on with items at the level: there are none, or the first one closes the
level. -/
def Closed (level : Nat) (rest : Layout) : Prop :=
  ∀ row ∈ rest.head?, row.closes level = true

theorem closed_nil (level : Nat) : Closed level [] := by
  simp [Closed]

theorem closed_cons {row : Row} : Closed level (row :: rest) ↔ row.closes level = true := by
  simp [Closed]

/-- What closes a level closes the levels below it. -/
theorem Closed.succ (h : Closed level rest) : Closed (level + 1) rest := by
  intro row hrow
  have := h row hrow
  simp only [Row.closes, Bool.or_eq_true, Bool.and_eq_true, decide_eq_true_eq, beq_iff_eq]
    at this ⊢
  omega

/-- Whatever follows a subproof closes its level. -/
theorem closed_rows (items : Items) (h : Closed level rest) :
    Closed (level + 1) (items.rows level ++ rest) := by
  cases items with
  | nil => exact h.succ
  | line others => simp [rows, closed_cons, Row.closes]
  | subproof inner others => simp [rows, closed_cons, Row.closes]

/-- Rows that close a level do not begin with items at the level. -/
theorem Closed.eq_nil {items : Items} (h : Closed level (items.rows level ++ rest)) :
    items = nil := by
  cases items with
  | nil => rfl
  | line others => simp [rows, closed_cons, Row.closes] at h
  | subproof inner others =>
    simp only [rows, List.cons_append, closed_cons, Row.closes, Bool.or_eq_true,
      Bool.and_eq_true, decide_eq_true_eq, beq_iff_eq] at h
    omega

/-! ## No two trees have the same rows -/

/-- Items can be taken off the front of rows in one way only. -/
theorem rows_append_injective {a b : Items} (hrest : Closed level rest) (hmore : Closed level more)
    (h : a.rows level ++ rest = b.rows level ++ more) : a = b ∧ rest = more := by
  induction a generalizing level b rest more with
  | nil =>
    rw [rows, List.nil_append] at h
    subst h
    obtain rfl := hrest.eq_nil
    exact ⟨rfl, rfl⟩
  | line others ih =>
    cases b with
    | nil =>
      rw [rows, List.nil_append] at h
      subst h
      cases hmore.eq_nil
    | line others' =>
      obtain ⟨rfl, rfl⟩ := ih hrest hmore (List.cons.inj h).2
      exact ⟨rfl, rfl⟩
    | subproof => simp [rows] at h
  | subproof inner others ihInner ihOthers =>
    cases b with
    | nil =>
      rw [rows, List.nil_append] at h
      subst h
      cases hmore.eq_nil
    | line => simp [rows] at h
    | subproof inner' others' =>
      have hrows : inner.rows (level + 1) ++ (others.rows level ++ rest) =
          inner'.rows (level + 1) ++ (others'.rows level ++ more) := by
        simpa [rows] using h
      -- The inner items end where the next item of the outer level begins.
      obtain ⟨rfl, hothers⟩ := ihInner (closed_rows others hrest) (closed_rows others' hmore) hrows
      obtain ⟨rfl, rfl⟩ := ihOthers hrest hmore hothers
      exact ⟨rfl, rfl⟩

/-! ## The rows of a tree are well nested -/

/-- Items pass the scan where what follows them does. -/
theorem firstMisplaced?_rows (items : Items) {onlyPremises : Bool} (hprevious : level ≤ previous)
    (hrest : ∀ last index onlyPremises, level ≤ last →
      Layout.firstMisplaced? last onlyPremises index rest = none) :
    Layout.firstMisplaced? previous onlyPremises index (items.rows level ++ rest) = none := by
  induction items generalizing level previous index onlyPremises rest with
  | nil => exact hrest _ _ _ hprevious
  | line others ih =>
    refine Layout.firstMisplaced?_cons_eq_none_iff.2 ⟨⟨?_, ?_, ?_⟩, ih (Nat.le_refl level) hrest⟩
    · exact Nat.le_succ_of_le hprevious
    · exact fun hlt => absurd hlt (Nat.not_lt.2 hprevious)
    · simp [Row.isPremise]
  | subproof inner others ihInner ihOthers =>
    rw [rows, List.cons_append, List.append_assoc]
    refine Layout.firstMisplaced?_cons_eq_none_iff.2 ⟨⟨?_, ?_, ?_⟩, ?_⟩
    · exact Nat.succ_le_succ hprevious
    · exact fun _ => rfl
    · simp [Row.isPremise]
    · exact ihInner (Nat.le_refl _) fun last index onlyPremises hlast =>
        ihOthers (Nat.le_of_succ_le hlast) hrest

/-! ## Well nested rows come from a tree -/

/-- The first row may stand in front of, or among, items at the level. -/
def Fits (level : Nat) (rest : Layout) : Prop :=
  ∀ row ∈ rest.head?, row.level ≤ level + 1 ∧ (level < row.level → row.assumption = true)

theorem fits_of_firstMisplaced? {onlyPremises : Bool}
    (h : Layout.firstMisplaced? level onlyPremises index rest = none) : Fits level rest := by
  cases rest with
  | nil => simp [Fits]
  | cons first rest =>
    intro row hrow
    obtain rfl : first = row := by simpa using hrow
    obtain ⟨⟨hle, hdeeper, -⟩, -⟩ := Layout.firstMisplaced?_cons_eq_none_iff.1 h
    exact ⟨hle, hdeeper⟩

/-- What closes the level below may stand among items at the level. -/
theorem Closed.fits (h : Closed (level + 1) rest) : Fits level rest := by
  intro row hrow
  have := h row hrow
  simp only [Row.closes, Bool.or_eq_true, Bool.and_eq_true, decide_eq_true_eq, beq_iff_eq] at this
  exact ⟨by omega, fun hlt => by
    rcases this with hless | ⟨-, hassumption⟩
    · omega
    · exact hassumption⟩

/-- Below the premises, the last rows of what passes the scan pass it as well. -/
theorem exists_firstMisplaced?_of_append (rows : Layout)
    (h : Layout.firstMisplaced? previous false index (rows ++ rest) = none) :
    ∃ last, Layout.firstMisplaced? last false index rest = none := by
  induction rows generalizing previous index with
  | nil => exact ⟨previous, h⟩
  | cons row rows ih =>
    obtain ⟨-, hrows⟩ := Layout.firstMisplaced?_cons_eq_none_iff.1 h
    obtain ⟨last, hlast⟩ := ih hrows
    exact ⟨last, (Layout.firstMisplaced?_eq_none_congr _ _ _ _ _).1 hlast⟩

/-- Items can be taken off the front of rows that pass the scan, up to a row that closes the
level. -/
theorem exists_rows_append {rows : Layout}
    (hscan : Layout.firstMisplaced? previous false index rows = none)
    (hfits : Fits level rows) :
    ∃ items rest, rows = Items.rows level items ++ rest ∧ Closed level rest := by
  -- What is left over after the items of a subproof is shorter, so the induction is on the length.
  induction hlength : rows.length using Nat.strongRecOn generalizing rows level previous index with
  | ind length ih =>
    cases rows with
    | nil => exact ⟨.nil, [], rfl, closed_nil level⟩
    | cons row others =>
      obtain ⟨hle, hdeeper⟩ := hfits row rfl
      obtain ⟨-, hothers⟩ := Layout.firstMisplaced?_cons_eq_none_iff.1 hscan
      simp only [Bool.false_and] at hothers
      cases hcloses : row.closes level with
      | true => exact ⟨.nil, row :: others, rfl, closed_cons.2 hcloses⟩
      | false =>
        obtain ⟨hlevel, hplain⟩ := Layout.closes_eq_false_iff.1 hcloses
        rcases Nat.eq_or_lt_of_le hlevel with heq | hlt
        · obtain ⟨items, rest, rfl, hrest⟩ := ih others.length (by simp [← hlength]) hothers
            (heq ▸ fits_of_firstMisplaced? hothers) rfl
          obtain rfl : row = ⟨level, false⟩ := by
            cases row
            simp_all
          exact ⟨.line items, rest, rfl, hrest⟩
        · have hopener : row = ⟨level + 1, true⟩ := by
            have := hdeeper hlt
            cases row
            simp_all
            omega
          subst hopener
          obtain ⟨inner, middle, rfl, hmiddle⟩ := ih others.length (by simp [← hlength]) hothers
            (fits_of_firstMisplaced? hothers) rfl
          obtain ⟨last, hlast⟩ := exists_firstMisplaced?_of_append _ hothers
          obtain ⟨items, rest, rfl, hrest⟩ := ih middle.length
            (by simp only [← hlength, List.length_cons, List.length_append]; omega) hlast
            hmiddle.fits rfl
          exact ⟨.subproof inner items, rest, by simp [Items.rows], hrest⟩

end Items

namespace ProofTree

variable {layout : Layout}

/-- The rows of a proof tree are well nested. -/
theorem validate_rows (tree : ProofTree) : tree.rows.validate = .ok () := by
  have hpremises : ∀ (count index : Nat), Layout.firstMisplaced? 0 true index
      (List.replicate count ⟨0, true⟩ ++ tree.items.rows 0) = none := by
    intro count
    induction count with
    | zero =>
      intro index
      have hitems : Layout.firstMisplaced? 0 true index (tree.items.rows 0 ++ []) = none :=
        tree.items.firstMisplaced?_rows (Nat.le_refl 0) fun _ _ _ _ => rfl
      rwa [List.append_nil] at hitems
    | succ count ih =>
      intro index
      exact Layout.firstMisplaced?_cons_eq_none_iff.2 ⟨by simp [Row.isPremise], ih (index + 1)⟩
  rw [Layout.validate, rows, hpremises]

/-- The premises of a tree are the premises among its rows. -/
theorem premiseCount_rows (tree : ProofTree) : tree.rows.premiseCount = tree.premises := by
  have hitems : (tree.items.rows 0).takeWhile Row.isPremise = [] := by
    cases tree.items <;> simp [Items.rows, Row.isPremise]
  rw [Layout.premiseCount, rows, List.takeWhile_append_of_pos, hitems, List.append_nil,
    List.length_replicate]
  intro row hrow
  rw [List.eq_of_mem_replicate hrow]
  rfl

/-- No two proof trees have the same rows. -/
theorem rows_injective {tree other : ProofTree} (h : tree.rows = other.rows) : tree = other := by
  have hpremises : tree.premises = other.premises := by
    rw [← premiseCount_rows, ← premiseCount_rows, h]
  obtain ⟨premises, items⟩ := tree
  obtain ⟨_, others⟩ := other
  obtain rfl : premises = _ := hpremises
  have hitems : items.rows 0 ++ [] = others.rows 0 ++ [] := by
    simpa [rows] using h
  obtain ⟨rfl, -⟩ := Items.rows_append_injective (Items.closed_nil 0) (Items.closed_nil 0) hitems
  rfl

/-- Behind something else than a premise, what passes the scan and closes level 0 is nothing. -/
theorem eq_nil_of_closed {rest : Layout} {previous index : Nat}
    (h : Layout.firstMisplaced? previous false index rest = none) (hclosed : Items.Closed 0 rest) :
    rest = [] := by
  cases rest with
  | nil => rfl
  | cons row rest =>
    have hpremise : row.isPremise = true := by
      have := Items.closed_cons.1 hclosed
      simpa [Row.closes, Row.isPremise, and_comm] using this
    obtain ⟨⟨-, -, hnone⟩, -⟩ := Layout.firstMisplaced?_cons_eq_none_iff.1 h
    cases hnone hpremise

/-- Rows that pass the scan are those of a tree. -/
theorem exists_rows_eq {rows : Layout} {index : Nat}
    (h : Layout.firstMisplaced? 0 true index rows = none) :
    ∃ tree : ProofTree, tree.rows = rows := by
  induction rows generalizing index with
  | nil => exact ⟨⟨0, .nil⟩, rfl⟩
  | cons first others ih =>
    have hfits := Items.fits_of_firstMisplaced? h
    cases hpremise : first.isPremise with
    | true =>
      obtain ⟨-, hothers⟩ := Layout.firstMisplaced?_cons_eq_none_iff.1 h
      obtain rfl : first = ⟨0, true⟩ := by
        cases first
        simp_all [Row.isPremise]
      obtain ⟨tree, rfl⟩ := ih hothers
      exact ⟨⟨tree.premises + 1, tree.items⟩, rfl⟩
    | false =>
      -- The items begin with this row, so from here on there are no premises.
      obtain ⟨⟨hle, hdeeper, -⟩, hothers⟩ := Layout.firstMisplaced?_cons_eq_none_iff.1 h
      rw [hpremise, Bool.and_false] at hothers
      have hscan : Layout.firstMisplaced? 0 false index (first :: others) = none :=
        Layout.firstMisplaced?_cons_eq_none_iff.2 ⟨⟨hle, hdeeper, by simp [hpremise]⟩, hothers⟩
      obtain ⟨items, rest, hrows, hclosed⟩ := Items.exists_rows_append hscan hfits
      rw [hrows] at hscan ⊢
      obtain ⟨last, hlast⟩ := Items.exists_firstMisplaced?_of_append _ hscan
      exact ⟨⟨0, items⟩, by simp [rows, eq_nil_of_closed hlast hclosed]⟩

/-- The well nested rows are the rows of proof trees. -/
theorem validate_eq_ok_iff_exists_rows :
    layout.validate = .ok () ↔ ∃ tree : ProofTree, tree.rows = layout := by
  constructor
  · intro h
    cases hscan : Layout.firstMisplaced? 0 true 0 layout with
    | none => exact exists_rows_eq hscan
    | some index => simp [Layout.validate, hscan] at h
  · rintro ⟨tree, rfl⟩
    exact tree.validate_rows

end ProofTree

end NaturalDeduction
