/-
  Why an edit of a proof's structure is refused.

  Indices count from 0; the text counts lines from 1, as they are shown.
-/

import NaturalDeduction.Word.Trap

namespace NaturalDeduction

/-- The reasons for refusing an edit or a query. -/
inductive StructureError where
  | indexOutOfBounds (index count : Nat)
  | illFormedNesting (index : Nat)
  | notInSubproof (index : Nat)
  | premiseNotAccessible (line premise : Nat)
  | assumptionHasNoPremises (index : Nat)
  | lastGoal
  deriving DecidableEq, Repr

namespace StructureError

/-- The wording of each reason, given how rows are numbered. -/
def wording (number : Nat → Nat) : StructureError → String
  | indexOutOfBounds index count =>
    "index " ++ toString index ++ " is out of bounds for " ++ toString count ++ " rows"
  | illFormedNesting index =>
    "line " ++ toString (number index) ++ " would break the subproof nesting"
  | notInSubproof index => "line " ++ toString (number index) ++ " is not in a subproof"
  | premiseNotAccessible line premise =>
    "line " ++ toString (number premise) ++ " cannot be cited by line " ++ toString (number line)
  | assumptionHasNoPremises index =>
    "line " ++ toString (number index) ++ " is an assumption and cannot cite premises"
  | lastGoal => "the last goal cannot be removed"

/-- The rows whose numbers the wording shows. -/
def rows : StructureError → List Nat
  | illFormedNesting index | notInSubproof index | assumptionHasNoPremises index => [index]
  | premiseNotAccessible line premise => [premise, line]
  | indexOutOfBounds .. | lastGoal => []

/-- The text of a reason. -/
def text (reason : StructureError) : Trapping String :=
  .numbered reason.rows reason.wording

end StructureError

end NaturalDeduction
