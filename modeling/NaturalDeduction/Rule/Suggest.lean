/-
  Suggesting conclusions.

  For the rules that can fill in a conclusion, `Rule.suggestions` lists the
  conclusions that the premises allow, the most likely one first, as texts
  without repeats.
-/

import NaturalDeduction.Rule.Conclusions

namespace NaturalDeduction.Rule

/-- The sentence with two negations taken away, if it has them, and with two put in front. -/
def doubleNegationConclusions (premise : Sentence) : List Sentence :=
  (premise.negated?.bind Sentence.negated?).toList ++ [.not (.not premise)]

/-- The implications from a subproof's assumption to its conclusions, the last one first. -/
def discharges : Sentence × List Sentence → List Sentence
  | (assumption, conclusions) =>
    conclusions.reverse.map fun conclusion => .implies assumption conclusion

/-- The sentences that the rule could conclude from the premises, the most likely one first. -/
def candidates (rule : Rule) (premises : List Premise) : List Sentence :=
  let lines := Premise.lines premises
  let subproofs := Premise.subproofs premises
  match rule with
  | reiteration => lines
  | conjunction => if 2 ≤ lines.length then [.and lines] else []
  | simplification => (lines.filterMap Sentence.conjuncts?).flatten
  | disjunctiveSyllogism => disjunctiveSyllogismConclusions lines
  | modusPonens => modusPonensConclusions lines
  | modusTollens => modusTollensConclusions lines
  | hypotheticalSyllogism => hypotheticalSyllogismConclusions lines
  | doubleNegation => lines.flatMap doubleNegationConclusions
  | biconditionalIntroduction => biconditionalIntroductionConclusions lines
  | biconditionalElimination => biconditionalEliminationConclusions lines
  | contradiction => if contradicts lines then [.falsum] else []
  | conditionalProof => subproofs.flatMap discharges
  | indirectProof =>
    (subproofs.filter fun (_, conclusions) => conclusions.contains .falsum).flatMap
      fun (assumption, _) => refutations assumption
  | proofByCases => commonConclusions subproofs
  | addition | principleOfExplosion | excludedMiddle | universalInstantiation
  | existentialGeneralization => []

/-- The texts of the candidates, each once. -/
def suggestions (rule : Rule) (premises : List Premise) : List String :=
  ((rule.candidates premises).map Sentence.render).eraseDups

end NaturalDeduction.Rule
