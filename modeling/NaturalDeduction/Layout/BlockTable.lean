/-
  The table of subproofs.

  Rows are read once from the first to the last, with a stack of the blocks that
  stand open: the whole proof at the bottom, and the subproofs inside each other
  above it. The table keeps every block, and for every row the number of the
  block that it belongs to; what a line may cite is looked up there. Levels are
  words of 64 bits, whatever numbers they were given.
-/

import NaturalDeduction.Layout.Basic
import NaturalDeduction.Word.Trap

namespace NaturalDeduction

open Trapping

/-- A subproof or the whole proof: the row that opens it, the row behind its last one, and the
block around it. The whole proof has neither an opener nor a block around it. -/
structure BlockTable.Block where
  opener? : Option Nat
  stop : Nat
  parent? : Option Nat
  deriving DecidableEq, Repr

/-- The blocks of a proof, and the block of every row, which for an assumption is the one that it
opens. -/
structure BlockTable where
  rows : List Row
  blocks : List BlockTable.Block
  blockOf : List Nat
  deriving DecidableEq, Repr

namespace BlockTable

/-! ## Nesting -/

/-- The first row that breaks the nesting, given the level of the row before, whether all rows so
far are premises, and the index of the first row. -/
def firstMisplaced? : Nat → Bool → Nat → List Row → Trapping (Option Nat)
  | _, _, _, [] => .ok none
  | previous, onlyPremises, index, row :: rows => do
    let deepest ← sum previous 1
    if deepest < row.level || (previous < row.level && !row.assumption) then return some index
    if row.isPremise && !onlyPremises then return some index
    firstMisplaced? row.level (onlyPremises && row.isPremise) (index + 1) rows

/-! ## Building the table -/

/-- What is known after some rows; of the numbers of the open blocks the innermost comes first. -/
structure Building where
  blocks : List Block
  opened : List Nat
  blockOf : List Nat
  deriving DecidableEq, Repr

/-- Ends the open blocks that a row closes, the innermost one first. -/
def close (rows : List Row) (index : Nat) (row : Row) :
    List Nat → List Block → Trapping (List Nat × List Block)
  | [], blocks => .ok ([], blocks)
  | top :: opened, blocks => do
    match (← lookUp blocks top).opener? with
    | none => return (top :: opened, blocks)
    | some opener =>
      if row.closes (← lookUp rows opener).level then
        close rows index row opened (← replace blocks top fun block => { block with stop := index })
      else
        return (top :: opened, blocks)

/-- Whether a row that opens no subproof has the level of its block. -/
def atLevelOf (rows : List Row) (row : Row) (block : Block) : Trapping Bool :=
  match block.opener? with
  | none => .ok true
  | some opener => do return (← lookUp rows opener).level == row.level

/-- Adds a row to what is known of the rows before it. -/
def place (rows : List Row) (building : Building) (index : Nat) (row : Row) :
    Trapping Building := do
  let (opened, blocks) ← close rows index row building.opened building.blocks
  let current := opened.headD 0
  if row.opensSubproof then
    let blocks := blocks ++ [⟨some index, rows.length, some current⟩]
    let number ← difference blocks.length 1
    return ⟨blocks, number :: opened, building.blockOf ++ [number]⟩
  else
    require (← atLevelOf rows row (← lookUp blocks current))
    return ⟨blocks, opened, building.blockOf ++ [current]⟩

/-- Adds rows, the first of which has the given index. -/
def placeAll (rows : List Row) : Nat → List Row → Building → Trapping Building
  | _, [], building => .ok building
  | index, row :: rest, building => do
    placeAll rows (index + 1) rest (← place rows building index row)

/-- The table of rows that are well nested. -/
def ofRows (rows : List Row) : Trapping BlockTable := do
  let root : Block := ⟨none, rows.length, none⟩
  let building ← placeAll rows 0 rows ⟨[root], [0], []⟩
  return ⟨rows, building.blocks, building.blockOf⟩

/-! ## Looking things up -/

/-- Whether a row lies in a block. -/
def contains (table : BlockTable) (number index : Nat) : Trapping Bool := do
  let block ← lookUp table.blocks number
  return block.opener?.getD 0 ≤ index && index < block.stop

/-- Whether the line may cite the row. -/
def isAccessible (table : BlockTable) (premise line : Nat) : Trapping Bool := do
  if line ≤ premise || table.rows.length ≤ line then return false
  if (← lookUp table.rows line).assumption then return false
  let number ← lookUp table.blockOf premise
  if ← table.contains number line then return true
  if !(← lookUp table.rows premise).opensSubproof then return false
  let block ← lookUp table.blocks number
  if line < block.stop then return false
  return block.parent? == some (← lookUp table.blockOf line)

/-- Whether citing the row from the line cites a whole subproof. -/
def isSubproofPremise (table : BlockTable) (premise line : Nat) : Trapping Bool := do
  let row ← lookUp table.rows premise
  if !row.assumption then return false
  return row.level == (← sum (← lookUp table.rows line).level 1)

/-- The rows of the subproof that the row at the index opens, the opener included; a row that
opens none stands for itself alone. -/
def subproofRange (table : BlockTable) (index : Nat) : Trapping (List Nat) := do
  if !(← lookUp table.rows index).opensSubproof then
    return List.range' index ((← sum index 1) - index)
  let block ← lookUp table.blocks (← lookUp table.blockOf index)
  return List.range' index (block.stop - index)

/-- The conclusions of the subproof with the given opener. -/
def subproofConclusions (table : BlockTable) (opener : Nat) : Trapping (List Nat) := do
  let level := (← lookUp table.rows opener).level
  filter (fun index => do
      let row ← lookUp table.rows index
      return !row.assumption && row.level == level)
    ((← table.subproofRange opener).drop 1)

/-- The opener of the subproof that has the row among its conclusions, found through the row's
block. -/
def concludedSubproof? (table : BlockTable) (index : Nat) : Trapping (Option Nat) := do
  let row ← lookUp table.rows index
  if row.assumption then return none
  let block ← lookUp table.blocks (← lookUp table.blockOf index)
  match block.opener? with
  | none => return none
  | some opener =>
    return if (← lookUp table.rows opener).level == row.level then some opener else none

end BlockTable

end NaturalDeduction
