/-
  Proofs.

  A proof is its lines in order, its goals in order, and the rules that it is
  restricted to. Lines cite each other by identity, so that a citation survives
  when lines move. Identities are issued in ascending order and never twice. How
  lines are kept under their identities, apart from their order, is up to the
  store; here they are one list.

  The rows of the lines, their positions and the citations between them are
  kept beside the lines, so that they need not be searched for.
-/

import NaturalDeduction.Checker.Verdict
import NaturalDeduction.Proof.Index

namespace NaturalDeduction

/-- A proof under construction. The rows of the lines are its `layout`; `positions` and `citations`
say where lines stand and who cites them. An empty restriction allows every rule. `edits` counts the
changes made; like the identities that come next, it is taken never to outgrow a word of 64 bits.
`consulted` holds the requests that the external checker was sent, oldest first, and `now` is the
time on the clock that pending verifications wait for. -/
structure Proof where
  lines : List Line
  layout : Layout
  positions : Positions
  citations : Citations
  goals : List Goal
  restriction : List Rule
  nextLine : LineId
  nextGoal : GoalId
  edits : Nat
  consulted : List CheckRequest
  now : Nat
  deriving DecidableEq, Repr

/-- What a proof works with: an external checker, and how many milliseconds after an edit a line
is verified by itself. -/
structure Setting where
  checker? : Option ExternalChecker := none
  debounce? : Option Nat := none

/-- The result of an operation: its answer, the proof afterwards, and what was announced. -/
structure Outcome (α : Type) where
  answer : α
  proof : Proof
  events : List Event

namespace Proof

/-- An empty proof with one blank goal. -/
def new (restriction : List Rule) : Proof where
  lines := []
  layout := []
  positions := []
  citations := []
  goals := [Goal.new 1 0]
  restriction := Rule.setOf restriction
  nextLine := 1
  nextGoal := 2
  edits := 0
  consulted := []
  now := 0

/-! ## Looking lines up -/

/-- The position of the line with an identity. -/
def position? (proof : Proof) (id : LineId) : Option Nat :=
  proof.positions.lookup id

/-- The identity of the line at a position. -/
def lineId? (proof : Proof) (index : Nat) : Option LineId :=
  proof.lines[index]?.map Line.id

/-- The sentence that the line at a position states. -/
def sentenceAt? (proof : Proof) (index : Nat) : Option Sentence :=
  proof.lines[index]?.bind Line.sentence?

/-- The lines that cite a line, in the order of their identities. -/
def citing (proof : Proof) (id : LineId) : List LineId :=
  proof.citations.citing id

/-- The positions of the lines that a line cites, in order. -/
def premiseNumbers (proof : Proof) (line : Line) : List Nat :=
  Ascending.ofList (line.premises.filterMap proof.position?)

/-- Accepts the index of a line. -/
def checkLine (proof : Proof) (index : Nat) : Except StructureError Unit :=
  if index < proof.lines.length then .ok ()
  else .error (.indexOutOfBounds index proof.lines.length)

/-- Accepts the index of a goal. -/
def checkGoal (proof : Proof) (index : Nat) : Except StructureError Unit :=
  if index < proof.goals.length then .ok ()
  else .error (.indexOutOfBounds index proof.goals.length)

/-! ## Documents -/

/-- The record that a document keeps of a line. -/
def record (proof : Proof) (line : Line) : LineRecord where
  text := line.text
  assumption := line.assumption
  depth := line.level
  premises := proof.premiseNumbers line
  rule? := line.rule?

/-- The document of the proof. -/
def document (proof : Proof) : Document where
  version := Document.currentVersion
  restriction := proof.restriction
  lines := proof.lines.map proof.record
  goals := proof.goals.map Goal.text

/-- The line that a record describes, at the position `number`. Identities count from 1, so the
line at position `n` has the identity `n + 1`. -/
def ofRecord (number : Nat) (record : LineRecord) : Line :=
  { Line.new (number + 1) number ⟨record.depth, record.assumption⟩ with
    text := record.text
    premises := Ascending.ofList (record.premises.map (· + 1))
    rule? := record.rule? }

/-- The goal that a document's text describes, at the position `number`. -/
def goalOfText (number : Nat) (text : String) : Goal :=
  { Goal.new (number + 1) number with text }

/-- The proof that a valid document describes. Nothing in it is verified. No line is settled here:
`Store.ofDocument` and `Machine.load` drop citations that are not allowed, but a valid document has
none, and both give this proof. -/
def ofDocument (document : Document) : Except DocumentError Proof := do
  document.validate
  let lines := document.lines.mapIdx ofRecord
  return {
    lines
    layout := document.layout
    positions := .ofLines lines
    citations := .ofLines lines
    goals := document.goals.mapIdx goalOfText
    restriction := document.restriction
    nextLine := document.lines.length + 1
    nextGoal := document.goals.length + 1
    edits := 0
    consulted := []
    now := 0 }

end Proof

end NaturalDeduction
