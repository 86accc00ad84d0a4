/-
  Rearranging lines.

  When lines are added or removed, the others are renumbered, citations that
  are no longer allowed are dropped, and every line whose checked claim may
  have changed goes back to the blank mark: a line that lost a citation, and a
  line that cites a subproof whose lines changed. All goals go back as well.
-/

import NaturalDeduction.Layout.Scope
import NaturalDeduction.Proof.Basic

namespace NaturalDeduction.Proof

/-! ## Invalidating lines -/

/-- Changes the line with an identity, if there is one. -/
def notingLine (proof : Proof) (id : LineId) (change : Line → Line × List Event) :
    Proof × List Event :=
  match proof.position? id with
  | none => (proof, [])
  | some index =>
    let (lines, events) := notingAt index change proof.lines
    ({ proof with lines }, events)

/-- Invalidates the lines with the identities, one after the other. -/
def invalidateEach (proof : Proof) : List LineId → Proof × List Event
  | [] => (proof, [])
  | id :: ids =>
    let (changed, events) := proof.notingLine id Line.invalidate
    let (last, more) := changed.invalidateEach ids
    (last, events ++ more)

/-- Drops the marks of all goals. -/
def resetGoals (proof : Proof) : Proof × List Event :=
  let (goals, events) := noting Goal.reset proof.goals
  ({ proof with goals }, events)

/-! ## Renumbering -/

/-- The citations of a line at a position that the layout allows. -/
def keptPremises (proof : Proof) (index : Nat) (line : Line) : List LineId :=
  line.premises.filter fun id => (proof.position? id).any (proof.layout.isAccessible · index)

/-- Moves a line to its position, and drops the citations that are not allowed there. -/
def place (proof : Proof) (index : Nat) (line : Line) : Line × List Event :=
  let (moved, events) := line.setNumber index
  let kept := proof.keptPremises index line
  if kept = line.premises then (moved, events)
  else
    let (cut, more) := moved.setPremises kept
    let (invalid, last) := cut.invalidate
    (invalid, events ++ more ++ last)

/-- Installs the rows of the lines, moves every line to its position, and drops the citations that
are not allowed there. -/
def placeAll (rows : Layout) (proof : Proof) : Proof × List Event :=
  let indexed := { proof with layout := rows, positions := .ofLines proof.lines }
  let (placed, events) := noting (fun (line, index) =>
    let (placed, events) := indexed.place index line
    ((placed, index), events)) proof.lines.zipIdx
  let lines := placed.map Prod.fst
  ({ indexed with lines, citations := .ofLines lines }, events)

/-! ## Reshaped subproofs -/

/-- The lines of every subproof, keyed by the line that opens it. -/
def subproofs (proof : Proof) : List (LineId × List LineId) :=
  let layout := proof.layout
  ((List.range proof.lines.length).filter layout.opens).filterMap fun index => do
    let opener ← proof.lineId? index
    return (opener, (layout.subproofRange index).filterMap proof.lineId?)

/-- The lines that cite a subproof which has other lines than it had before. -/
def citingReshaped (before : List (LineId × List LineId)) (proof : Proof) : List LineId :=
  (proof.subproofs.filter fun (opener, lines) => before.lookup opener != some lines).flatMap
    fun (opener, _) => proof.citing opener

/-- Settles a proof after its lines were rearranged, given the subproofs as they were before and the
rows as they are now. -/
def rearranged (before : List (LineId × List LineId)) (rows : Layout) (proof : Proof) :
    Proof × List Event :=
  let (placed, events) := proof.placeAll rows
  let (invalid, more) := placed.invalidateEach (placed.citingReshaped before)
  let (settled, last) := invalid.resetGoals
  (settled, events ++ more ++ last)

/-! ## Adding and removing lines -/

/-- Adds a blank line at a position, where the row fits. -/
def insertLine (proof : Proof) (index : Nat) (row : Row) : Outcome LineId :=
  let id := proof.nextLine
  let rows := proof.layout.insertIdx index row
  let lines := proof.lines.insertIdx index (Line.new id index row)
  let (settled, events) :=
    rearranged proof.subproofs rows { proof with lines, nextLine := id + 1 }
  ⟨id, settled, .lineAdded id index row.level row.assumption :: events⟩

/-- Adds a blank line at a position, if the position exists and the row fits there. -/
def tryInsert (proof : Proof) (index : Nat) (row : Row) :
    Except StructureError (Outcome LineId) := do
  if proof.lines.length < index then .error (.indexOutOfBounds index proof.lines.length)
  Layout.validate (proof.layout.insertIdx index row)
  return proof.insertLine index row

/-- The rows without a line, or without its whole subproof if it opens one. -/
def rowsWithout (proof : Proof) (index : Nat) : Layout :=
  let range := proof.layout.subproofRange index
  proof.layout.take index ++ proof.layout.drop (index + range.length)

/-- Cuts out a line, or its whole subproof if it opens one, where the rows left are well nested. -/
def cutLines (proof : Proof) (index : Nat) : Outcome (List LineId) :=
  let range := proof.layout.subproofRange index
  let removed := range.filterMap proof.lineId?
  let lines := proof.lines.take index ++ proof.lines.drop (index + range.length)
  let (settled, events) :=
    rearranged proof.subproofs (proof.rowsWithout index) { proof with lines }
  ⟨removed, settled, removed.map .lineRemoved ++ events⟩

/-- Removes a line, or its whole subproof if it opens one. -/
def removeLines (proof : Proof) (index : Nat) : Except StructureError (Outcome (List LineId)) := do
  proof.checkLine index
  Layout.validate (proof.rowsWithout index)
  return proof.cutLines index

end NaturalDeduction.Proof
