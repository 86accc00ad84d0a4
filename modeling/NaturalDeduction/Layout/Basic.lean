/-
  The subproof structure of a proof.

  The shape of a proof is given by its rows: how deep each one is nested, and
  whether it is an assumption. An assumption below level 0 opens a subproof,
  which runs up to the first later row that is shallower, or that is at the
  same level and itself an assumption. `validate` says which lists of rows are
  well nested.
-/

import NaturalDeduction.Layout.Failure

namespace NaturalDeduction

/-- The place of a line in the subproof structure. -/
structure Row where
  level : Nat
  assumption : Bool
  deriving DecidableEq, Repr

namespace Row

/-- Assumptions at level 0 are the premises of the proof. -/
def isPremise (row : Row) : Bool :=
  row.assumption && row.level == 0

/-- Assumptions below level 0 open a subproof. -/
def opensSubproof (row : Row) : Bool :=
  row.assumption && 0 < row.level

/-- Whether the row ends a subproof of the given level that stands open before it. -/
def closes (row : Row) (level : Nat) : Bool :=
  row.level < level || (row.level == level && row.assumption)

end Row

/-- The rows of a proof, from the first line to the last. -/
abbrev Layout := List Row

namespace Layout

/-! ## Well nested rows -/

/-- The first row that breaks the nesting, given the level of the row before, whether all rows so
far are premises, and the index of the first row. -/
def firstMisplaced? : Nat → Bool → Nat → List Row → Option Nat
  | _, _, _, [] => none
  | previous, onlyPremises, index, row :: rows =>
    let tooDeep := previous + 1 < row.level || (previous < row.level && !row.assumption)
    let latePremise := row.isPremise && !onlyPremises
    if tooDeep || latePremise then some index
    else firstMisplaced? row.level (onlyPremises && row.isPremise) (index + 1) rows

/-- Rows are well nested when each is at most one level deeper than the one before, only
assumptions go deeper, and the premises come before anything else. -/
def validate (layout : Layout) : Except StructureError Unit :=
  match firstMisplaced? 0 true 0 layout with
  | some index => .error (.illFormedNesting index)
  | none => .ok ()

/-! ## Subproofs -/

/-- The level of a row, which is 0 past the end. -/
def levelAt (layout : Layout) (index : Nat) : Nat :=
  (layout[index]?.map Row.level).getD 0

/-- Whether there is an assumption at the index. -/
def isAssumption (layout : Layout) (index : Nat) : Bool :=
  layout[index]?.any Row.assumption

/-- Whether the row at the index opens a subproof. -/
def opens (layout : Layout) (index : Nat) : Bool :=
  layout[index]?.any Row.opensSubproof

/-- Where the subproof that the row at the index opens ends: the index after its last row. -/
def subproofEnd (layout : Layout) (opener : Nat) : Nat :=
  let level := layout.levelAt opener
  opener + 1 + ((layout.drop (opener + 1)).takeWhile fun row => !row.closes level).length

/-- The innermost subproof around a row, given by its opener; an assumption is not inside the
subproof that it opens. -/
def enclosing? (layout : Layout) (index : Nat) : Option Nat :=
  (List.range index).reverse.find? fun opener =>
    layout.opens opener && index < layout.subproofEnd opener

/-- The innermost subproof that a row belongs to, given by its opener; an assumption belongs to the
subproof that it opens. -/
def home? (layout : Layout) (index : Nat) : Option Nat :=
  if layout.opens index then some index else layout.enclosing? index

/-- The rows of the subproof that the row at the index opens, the opener included; a row that
opens none stands for itself alone. -/
def subproofRange (layout : Layout) (index : Nat) : List Nat :=
  if layout.opens index then
    List.range' index (layout.subproofEnd index - index)
  else
    [index]

/-- The number of premises, which stand at the top. -/
def premiseCount (layout : Layout) : Nat :=
  (layout.takeWhile Row.isPremise).length

end Layout

end NaturalDeduction
