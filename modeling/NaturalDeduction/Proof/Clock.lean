/-
  Pending verifications.

  An edit of a line's text makes its verification due after the quiet period;
  a later edit starts the period again, and a verification ends it. When time
  passes, the lines that have become due are verified, the earliest one first.
-/

import NaturalDeduction.Proof.Verify

namespace NaturalDeduction.Proof

/-- Puts a pending verification into its place in a list that is ordered by time. -/
def insertDue (entry : Nat × LineId) : List (Nat × LineId) → List (Nat × LineId)
  | [] => [entry]
  | other :: rest =>
    if entry.1 < other.1 then entry :: other :: rest else other :: insertDue entry rest

/-- The verifications that are due by a time, the earliest one first. -/
def dueBy (proof : Proof) (time : Nat) : List (Nat × LineId) :=
  let pending := proof.lines.filterMap fun line =>
    (line.due?.filter (· ≤ time)).map fun due => (due, line.id)
  pending.foldl (fun ordered entry => insertDue entry ordered) []

/-- Verifies the lines with the identities, one after the other. -/
def verifyDue (setting : Setting) : Proof → List LineId → Proof × List Event
  | proof, [] => (proof, [])
  | proof, id :: ids =>
    match proof.position? id with
    | none => verifyDue setting proof ids
    | some index =>
      let verified := verifyLineAt setting proof index
      let (last, events) := verifyDue setting verified.proof ids
      (last, verified.events ++ events)

/-- Lets time pass. -/
def advance (setting : Setting) (proof : Proof) (milliseconds : Nat) : Outcome Unit :=
  let time := proof.now + milliseconds
  let (verified, events) :=
    verifyDue setting { proof with now := time } ((proof.dueBy time).map Prod.snd)
  ⟨(), verified, events⟩

end NaturalDeduction.Proof
