/-
  What a line may cite.

  A line may cite an earlier row whose subproof it stands in, and the opener of
  a finished subproof that lies directly in the line's own subproof; the latter
  cites the subproof as a whole. Assumptions cite nothing.
-/

import NaturalDeduction.Layout.Basic

namespace NaturalDeduction.Layout

/-! ## Accessibility -/

/-- Whether a row lies in the subproof with the given opener, the whole proof counting as one. -/
def within (layout : Layout) (opener? : Option Nat) (index : Nat) : Bool :=
  match opener? with
  | none => index < layout.length
  | some opener => opener ≤ index && index < layout.subproofEnd opener

/-- Whether the row opens a subproof that ended before the line and lies directly in the line's
own subproof. -/
def isFinishedBeside (layout : Layout) (opener line : Nat) : Bool :=
  layout.opens opener && layout.subproofEnd opener ≤ line
    && layout.enclosing? opener == layout.home? line

/-- Whether the line may cite the row. -/
def isAccessible (layout : Layout) (premise line : Nat) : Bool :=
  premise < line && line < layout.length && !layout.isAssumption line
    && (layout.within (layout.home? premise) line || layout.isFinishedBeside premise line)

/-- The rows that a line may cite, in order. -/
def accessible (layout : Layout) (line : Nat) : List Nat :=
  (List.range line).filter fun premise => layout.isAccessible premise line

/-- Whether citing the row from the line cites a whole subproof. -/
def isSubproofPremise (layout : Layout) (premise line : Nat) : Bool :=
  layout.isAssumption premise && layout.levelAt premise == layout.levelAt line + 1

/-! ## Conclusions of a subproof -/

/-- The conclusions of the subproof with the given opener: the rows at its own level that are not
assumptions, in order. -/
def subproofConclusions (layout : Layout) (opener : Nat) : List Nat :=
  ((layout.subproofRange opener).drop 1).filter fun index =>
    !layout.isAssumption index && layout.levelAt index == layout.levelAt opener

/-- The opener of the subproof that has the row among its conclusions. -/
def concludedSubproof? (layout : Layout) (index : Nat) : Option Nat :=
  if layout.isAssumption index then none
  else (layout.home? index).filter fun opener => layout.levelAt opener == layout.levelAt index

/-- Where the innermost subproof of a row ends. -/
def enclosingEnd (layout : Layout) (index : Nat) : Except StructureError Nat :=
  match layout.home? index with
  | some opener => .ok (layout.subproofEnd opener)
  | none => .error (.notInSubproof index)

/-- A line cites only what stands before it. -/
theorem lt_of_isAccessible {layout : Layout} {premise line : Nat}
    (h : layout.isAccessible premise line = true) : premise < line := by
  simp only [isAccessible, Bool.and_eq_true, decide_eq_true_eq] at h
  exact h.1.1.1

/-- Assumptions cite nothing. -/
theorem accessible_of_isAssumption {layout : Layout} {line : Nat}
    (h : layout.isAssumption line = true) : layout.accessible line = [] := by
  simp [accessible, isAccessible, h]

end NaturalDeduction.Layout
