/-
  Lines and goals.

  A line keeps the claim that was checked when it was last verified. Every
  setter returns the events it causes and announces nothing when the value
  stays as it was.
-/

import NaturalDeduction.Layout.Basic
import NaturalDeduction.Proof.Event
import NaturalDeduction.Rule.Claim
import NaturalDeduction.Sentence.Reader

namespace NaturalDeduction

/-! ## Lines -/

/-- A line of a proof. The premises are the identities of the cited lines, in ascending order;
`due?` is the time at which a pending verification is due. -/
structure Line where
  id : LineId
  number : Nat
  level : Nat
  assumption : Bool
  text : String
  premises : List LineId
  rule? : Option Rule
  mark : Mark
  claim? : Option Claim
  due? : Option Nat
  deriving DecidableEq, Repr

namespace Line

/-- A blank line that cites nothing. -/
def new (id : LineId) (number : Nat) (row : Row) : Line where
  id
  number
  level := row.level
  assumption := row.assumption
  text := ""
  premises := []
  rule? := none
  mark := .blank
  claim? := none
  due? := none

/-- The place of the line in the subproof structure. -/
def row (line : Line) : Row := ⟨line.level, line.assumption⟩

/-- The sentence that the line states, if its text is one. -/
def sentence? (line : Line) : Option Sentence :=
  match Sentence.read line.text with
  | .ok sentence? => sentence?
  | .error _ => none

/-! ### Setters -/

/-- Moves the line to a position. -/
def setNumber (number : Nat) (line : Line) : Line × List Event :=
  if line.number = number then (line, [])
  else ({ line with number }, [.lineNumberChanged line.id number])

/-- Shows a mark. -/
def setMark (mark : Mark) (line : Line) : Line × List Event :=
  ({ line with mark },
    line.mark.changes mark (.lineStatusChanged line.id) (.lineRangeChanged line.id))

/-- Drops the checked claim and the mark. -/
def invalidate (line : Line) : Line × List Event :=
  setMark .blank { line with claim? := none }

/-- Replaces the text, which invalidates the line. -/
def setText (text : String) (line : Line) : Line × List Event :=
  if line.text = text then (line, [])
  else
    let (changed, events) := invalidate { line with text }
    (changed, .lineTextChanged line.id text :: events)

/-- Selects a rule. -/
def setRule (rule? : Option Rule) (line : Line) : Line × List Event :=
  if line.rule? = rule? then (line, [])
  else ({ line with rule? }, [.ruleChanged line.id rule?])

/-- Replaces the cited lines. -/
def setPremises (premises : List LineId) (line : Line) : Line × List Event :=
  if line.premises = premises then (line, [])
  else ({ line with premises }, [.premisesChanged line.id premises])

/-- Records the result of a verification. -/
def settle (mark : Mark) (claim? : Option Claim) (line : Line) : Line × List Event :=
  setMark mark { line with claim? }

end Line

/-! ## Goals -/

/-- A sentence that the proof is to reach. -/
structure Goal where
  id : GoalId
  number : Nat
  text : String
  mark : Mark
  deriving DecidableEq, Repr

namespace Goal

/-- A blank goal. -/
def new (id : GoalId) (number : Nat) : Goal := ⟨id, number, "", .blank⟩

/-- Moves the goal to a position. -/
def setNumber (number : Nat) (goal : Goal) : Goal × List Event :=
  if goal.number = number then (goal, [])
  else ({ goal with number }, [.goalNumberChanged goal.id number])

/-- Shows a mark. -/
def setMark (mark : Mark) (goal : Goal) : Goal × List Event :=
  ({ goal with mark },
    goal.mark.changes mark (.goalStatusChanged goal.id) (.goalRangeChanged goal.id))

/-- Drops the mark. -/
def reset (goal : Goal) : Goal × List Event :=
  setMark .blank goal

/-- Replaces the text, which drops the mark. -/
def setText (text : String) (goal : Goal) : Goal × List Event :=
  if goal.text = text then (goal, [])
  else
    let (changed, events) := reset { goal with text }
    (changed, .goalTextChanged goal.id text :: events)

end Goal

end NaturalDeduction
