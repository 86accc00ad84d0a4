/-
  What a proof shows, and what is saved of it.

  A view is the visible part of a line or a goal, with citations as positions.
  The snapshot holds the views of all lines and goals.

  A proof is saved as the text of its document, and loading that text gives a
  proof with the same document. What was verified is not saved.
-/

import NaturalDeduction.Document.Encoding
import NaturalDeduction.Proof.Basic

namespace NaturalDeduction

/-- The visible part of a line. -/
structure LineView where
  id : LineId
  number : Nat
  level : Nat
  assumption : Bool
  text : String
  premises : List Nat
  rule? : Option Rule
  mark : Mark
  deriving DecidableEq, Repr

/-- The visible part of a goal. -/
structure GoalView where
  id : GoalId
  number : Nat
  text : String
  mark : Mark
  deriving DecidableEq, Repr

/-- The visible part of a proof. -/
structure Snapshot where
  lines : List LineView
  goals : List GoalView
  deriving DecidableEq, Repr

namespace Proof

/-- The view of one of the proof's lines. -/
def viewLine (proof : Proof) (line : Line) : LineView where
  id := line.id
  number := line.number
  level := line.level
  assumption := line.assumption
  text := line.text
  premises := proof.premiseNumbers line
  rule? := line.rule?
  mark := line.mark

/-- The view of a goal. -/
def viewGoal (goal : Goal) : GoalView :=
  ⟨goal.id, goal.number, goal.text, goal.mark⟩

/-- The view of the line at a position. -/
def lineView? (proof : Proof) (index : Nat) : Option LineView :=
  proof.lines[index]?.map proof.viewLine

/-- The view of the goal at a position. -/
def goalView? (proof : Proof) (index : Nat) : Option GoalView :=
  proof.goals[index]?.map viewGoal

/-- The claim that was checked when the line at a position was last verified. -/
def claim? (proof : Proof) (index : Nat) : Option Claim :=
  proof.lines[index]?.bind Line.claim?

/-- The views of all lines and goals. -/
def snapshot (proof : Proof) : Snapshot :=
  ⟨proof.lines.map proof.viewLine, proof.goals.map viewGoal⟩

/-! ## Saved proofs -/

/-- The text that a proof is saved as. -/
def toText (proof : Proof) : String :=
  proof.document.toText

/-- Loads a proof from a text. -/
def ofText (text : String) : Except LoadError Proof := do
  (ofDocument (← Document.ofText text)).mapError .invalid

/-- Saves the proof and goes on with what was loaded. The clock and the external checker know
nothing of it. -/
def reloaded (proof : Proof) : Except LoadError Proof := do
  let loaded ← ofText proof.toText
  return { loaded with consulted := proof.consulted, now := proof.now }

end Proof

end NaturalDeduction
