/-
  Operations on a proof.

  Here everything that may be done to a proof is a value, the passing of time
  included, so that one can speak of sequences of operations. `perform` carries
  an operation out; one that is refused has no outcome.
-/

import NaturalDeduction.Proof.Clock
import NaturalDeduction.Proof.Edit

namespace NaturalDeduction

/-- What may be done to a proof. -/
inductive Operation where
  | addPremise
  | addLine (index : Nat) (row : Row)
  | startSubproof (index : Nat)
  | endSubproof (index : Nat)
  | delete (index : Nat)
  | setText (index : Nat) (text : String)
  | setRule (index : Nat) (rule? : Option Rule)
  | togglePremise (index premise : Nat)
  | restrict (rules : List Rule)
  | verifyLine (index : Nat)
  | verifyGoal (index : Nat)
  | verifyAll
  | autoFill (index : Nat)
  | addGoal (index : Nat)
  | removeGoal (index : Nat)
  | setGoalText (index : Nat) (text : String)
  | advance (milliseconds : Nat)
  deriving DecidableEq, Repr

/-- What an operation answers. -/
inductive Reply where
  | done
  | line (id : LineId)
  | removed (ids : List LineId)
  | goal (id : GoalId)
  | cited (isCited : Bool)
  | status (status : Status)
  | summary (summary : Proof.Summary)
  | filled (text? : Option String)
  deriving DecidableEq, Repr

/-- Changes the answer of an outcome. -/
def Outcome.map {α β : Type} (f : α → β) (outcome : Outcome α) : Outcome β :=
  ⟨f outcome.answer, outcome.proof, outcome.events⟩

namespace Proof

/-- Carries out an operation, unless it is refused. -/
def perform (setting : Setting) (proof : Proof) : Operation → Attempt (Outcome Reply)
  | .addPremise => return proof.addPremise.map .line
  | .addLine index row => return (← proof.addLine index row).map .line
  | .startSubproof index => return (← proof.startSubproof index).map .line
  | .endSubproof index => return (← proof.endSubproof index).map .line
  | .delete index => return (← proof.delete index).map .removed
  | .setText index text => return (← proof.setText setting index text).map fun _ => .done
  | .setRule index rule? => return (← proof.setRule setting index rule?).map .status
  | .togglePremise index premise =>
    return (← proof.togglePremise setting index premise).map .cited
  | .restrict rules => return (proof.restrict rules).map fun _ => .done
  | .verifyLine index => return (← proof.verifyLine setting index).map .status
  | .verifyGoal index => return (← proof.verifyGoal setting index).map .status
  | .verifyAll => return (proof.verifyAll setting).map .summary
  | .autoFill index => return (← proof.autoFill setting index).map .filled
  | .addGoal index => return (← proof.addGoal index).map .goal
  | .removeGoal index => return (← proof.removeGoal index).map fun _ => .done
  | .setGoalText index text => return (← proof.setGoalText index text).map fun _ => .done
  | .advance milliseconds => return (proof.advance setting milliseconds).map fun _ => .done

/-! ## Sequences of operations -/

/-- The proof after an operation was tried, and what was announced. A refused operation changes and
announces nothing. -/
def attempt (setting : Setting) (proof : Proof) (operation : Operation) : Proof × List Event :=
  match proof.perform setting operation with
  | .ok outcome => (outcome.proof, outcome.events)
  | .error _ => (proof, [])

/-- Tries operations one after the other. -/
def run (setting : Setting) : Proof → List Operation → Proof × List Event
  | proof, [] => (proof, [])
  | proof, operation :: operations =>
    let (next, events) := proof.attempt setting operation
    let (last, more) := run setting next operations
    (last, events ++ more)

/-- The proofs that work begins with: an empty one, or a loaded one. -/
inductive Initial : Proof → Prop where
  | new (restriction : List Rule) : Initial (Proof.new restriction)
  | loaded {document : Document} {proof : Proof} (h : ofDocument document = .ok proof) :
    Initial proof

/-- The proofs that operations lead to, refused operations among them. -/
def Reachable (setting : Setting) (proof : Proof) : Prop :=
  ∃ start operations, Initial start ∧ proof = (start.run setting operations).1

end Proof

end NaturalDeduction
