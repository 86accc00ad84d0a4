/-
  Proofs and rules as plain text.

  A line is shown by its number, a sign for its status, one bar for each
  subproof around it, its text and its justification; a goal by its number, the
  sign and its text. What is wrong with either stands below it. The catalog of
  rules is a table of identifiers, display names and notes.
-/

import NaturalDeduction.Proof.View
import NaturalDeduction.Rule.Basic
import NaturalDeduction.Text.Blank

namespace NaturalDeduction.Report

/-! ## Proofs -/

/-- The sign of a status. -/
def sign : Status → Char
  | .correct => '✓'
  | .unmarked => '·'
  | .noRule => '?'
  | .invalidExpression => '!'
  | .invalidClaim => '✗'

/-- The text, filled up with spaces on the right to a width. -/
def padded (width : Nat) (text : String) : String :=
  text ++ String.ofList (List.replicate (width - text.toList.length) ' ')

/-- The justification of a line. -/
def justification (line : LineView) : String :=
  if line.assumption then "  [Assumption]"
  else
    match line.rule?, line.premises with
    | none, _ => ""
    | some rule, [] => "  [" ++ rule.displayName ++ "]"
    | some rule, premises =>
      let numbers := premises.map fun premise => toString (premise + 1)
      "  [" ++ rule.displayName ++ ": " ++ ", ".intercalate numbers ++ "]"

/-- The message of a row that is in error, on a line of its own. -/
def complaint (mark : Mark) : String :=
  match mark.message? with
  | some message => if mark.status.isError then "\n       " ++ message else ""
  | none => ""

/-- Shows a line. -/
def lineRow (line : LineView) : String :=
  padded 3 (toString (line.number + 1)) ++ String.ofList [sign line.mark.status] ++ "  "
    ++ String.join (List.replicate line.level "│ ") ++ Text.trim line.text ++ justification line
    ++ complaint line.mark

/-- Shows a goal. -/
def goalRow (goal : GoalView) : String :=
  "G" ++ padded 2 (toString (goal.number + 1)) ++ String.ofList [sign goal.mark.status] ++ "  "
    ++ Text.trim goal.text ++ complaint goal.mark

/-- Shows all lines, then all goals. -/
def rows (snapshot : Snapshot) : List String :=
  snapshot.lines.map lineRow ++ snapshot.goals.map goalRow

/-! ## The catalog of rules -/

/-- What is special about a rule. -/
def notes (rule : Rule) : List String :=
  (if rule.consumesSubproof then ["subproof"] else [])
    ++ (if rule.canAutoFill then ["auto-fill"] else [])

/-- The entry of a rule. -/
def catalogRow (rule : Rule) : String :=
  padded 28 rule.identifier ++ padded 30 rule.displayName ++ ", ".intercalate (notes rule)

/-- The whole table, one rule a line. -/
def catalog : String :=
  String.join (Rule.all.map fun rule => catalogRow rule ++ "\n")

end NaturalDeduction.Report
