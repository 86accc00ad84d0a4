/-
  The lines that a verification visits.

  Verifying goals comes down to verifying lines one after the other. Which lines
  these are depends on what is found on the way, and the checker may answer each
  time as it likes. So the visited lines are computed along with the proofs that
  the visits lead through.
-/

import NaturalDeduction.Proof.Operation

namespace NaturalDeduction.Proof

/-! ## Lines visited one after the other -/

/-- Verifies the lines at the positions, one after the other. -/
def visit (setting : Setting) (p : Proof) (indices : List Nat) : Proof :=
  indices.foldl (fun q index => (verifyLineAt setting q index).proof) p

/-- The positions that are visited up to the first line that is not correct. -/
def visitedAmong (setting : Setting) : Proof → List Nat → List Nat
  | _, [] => []
  | p, index :: rest =>
    let verified := verifyLineAt setting p index
    index :: if verified.answer = .correct then visitedAmong setting verified.proof rest else []

/-- The positions that are visited in the derivations of the candidates, up to the first one that
is correct throughout. -/
def visitedFrom (setting : Setting) : Proof → List Nat → List Nat
  | _, [] => []
  | p, candidate :: others =>
    let steps := (p.derivation candidate).filter fun index => !p.layout.isAssumption index
    let tried := firstIncorrect setting p steps
    visitedAmong setting p steps ++
      if tried.answer = none then [] else visitedFrom setting tried.proof others

/-- The positions that are visited for a goal that states a sentence, unless the checker
answers. -/
def visitedFor (setting : Setting) (p : Proof) (index : Nat) : List Nat :=
  let stated := p.goals[index]?.map fun goal => Sentence.read goal.text
  match stated, consult setting p (.goal index) with
  | some (.ok (some sentence)), (none, asked) =>
    visitedFrom setting asked (asked.statedAt sentence)
  | _, _ => []

/-- The positions that are visited for goals, one after the other. -/
def visitedForEach (setting : Setting) : Proof → List Nat → List Nat
  | _, [] => []
  | p, goal :: goals =>
    p.visitedFor setting goal ++ visitedForEach setting (verifyGoalAt setting p goal).proof goals

/-- The positions that are visited when everything is verified. -/
def visitedForAll (setting : Setting) (p : Proof) : List Nat :=
  let lines := List.range p.lines.length
  let visited := visit setting p lines
  lines ++ visitedForEach setting visited (List.range visited.goals.length)

/-! ## Lines visited by an operation -/

/-- The positions that are visited by an operation that was carried out with an answer. What time
brings is not asked for, and so does not count here. -/
def visitedBy (setting : Setting) (p : Proof) : Operation → Reply → List Nat
  | .setRule index _, _ | .togglePremise index _, _ | .verifyLine index, _
  | .autoFill index, .filled (some _) => [index]
  | .verifyGoal index, _ => p.visitedFor setting index
  | .verifyAll, _ => p.visitedForAll setting
  | _, _ => []

end NaturalDeduction.Proof
