/-
  The conclusions that premises allow.

  For the rules whose conclusions are determined by their premises up to a
  short list, each function here computes that list. Both checking a claim and
  suggesting a conclusion rest on it.
-/

import NaturalDeduction.Rule.Claim

namespace NaturalDeduction.Rule

/-! ## Choosing premises -/

/-- Each element of a list together with the others, in order. -/
def selections {α : Type} : List α → List (α × List α)
  | [] => []
  | a :: as => (a, as) :: (selections as).map fun (b, others) => (b, a :: others)

/-- The ordered pairs of elements at two different places. -/
def pairs {α : Type} (as : List α) : List (α × α) :=
  (selections as).flatMap fun (a, others) => others.map (a, ·)

/-! ## Rules with two premises -/

/-- From an implication and its antecedent, the consequent. -/
def modusPonensConclusions (premises : List Sentence) : List Sentence :=
  (pairs premises).filterMap fun (implication, other) => do
    let (antecedent, consequent) ← implication.implication?
    if antecedent = other then some consequent else none

/-- From an implication and the negation of its consequent, the negation of the antecedent. -/
def modusTollensConclusions (premises : List Sentence) : List Sentence :=
  (pairs premises).filterMap fun (implication, other) => do
    let (antecedent, consequent) ← implication.implication?
    if other.negated? = some consequent then some (.not antecedent) else none

/-- From two implications of which the second begins where the first ends, the one across. -/
def hypotheticalSyllogismConclusions (premises : List Sentence) : List Sentence :=
  (pairs premises).filterMap fun (first, second) => do
    let (a, b) ← first.implication?
    let (b', c) ← second.implication?
    if b = b' then some (.implies a c) else none

/-- From an implication and its converse, the biconditional. -/
def biconditionalIntroductionConclusions (premises : List Sentence) : List Sentence :=
  (pairs premises).filterMap fun (forward, backward) => do
    let (a, b) ← forward.implication?
    let (b', a') ← backward.implication?
    if a = a' ∧ b = b' then some (.iff a b) else none

/-- From a biconditional and one of its sides, the other side. -/
def biconditionalEliminationConclusions (premises : List Sentence) : List Sentence :=
  (pairs premises).filterMap fun (biconditional, side) =>
    match biconditional with
    | .iff left right =>
      if left = side then some right
      else if right = side then some left
      else none
    | _ => none

/-- Whether one premise is the negation of another. -/
def contradicts (premises : List Sentence) : Bool :=
  (pairs premises).any fun (sentence, other) => other.negated? == some sentence

/-! ## Disjunctive syllogism -/

/-- The disjuncts that the premises deny, provided each premise denies one. -/
def denied? (disjuncts : List Sentence) (premises : List Sentence) : Option (List Sentence) :=
  premises.mapM fun premise => do
    let sentence ← premise.negated?
    if sentence ∈ disjuncts then some sentence else none

/-- What is left of a disjunction when the other premises each deny one of its disjuncts. -/
def remaining? (disjunction : Sentence) (others : List Sentence) : Option Sentence := do
  let disjuncts ← disjunction.disjuncts?
  let eliminated ← denied? disjuncts others
  if eliminated.isEmpty then none
  let left := disjuncts.filter fun disjunct => !eliminated.contains disjunct
  if left.isEmpty then none
  return Sentence.disjunction left

/-- From a disjunction and denials of some disjuncts, the disjunction of the others. -/
def disjunctiveSyllogismConclusions (premises : List Sentence) : List Sentence :=
  (selections premises).filterMap fun (disjunction, others) => remaining? disjunction others

/-! ## Rules on subproofs -/

/-- What a subproof that derives `⊥` refutes its assumption to: the sentence that the assumption
negates, if it is a negation, and the negation of the assumption. -/
def refutations (assumption : Sentence) : List Sentence :=
  assumption.negated?.toList ++ [.not assumption]

/-- The conclusions that all subproofs share, the last one of the first subproof first. -/
def commonConclusions : List (Sentence × List Sentence) → List Sentence
  | [] => []
  | (_, first) :: rest =>
    first.reverse.filter fun sentence =>
      rest.all fun (_, conclusions) => conclusions.contains sentence

end NaturalDeduction.Rule
