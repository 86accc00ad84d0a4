/-
  Why a rule does not license a claim.

  Every way in which a claim can break its rule is one constructor, which
  carries the sentences that the wording cites.
-/

import NaturalDeduction.Rule.Claim

namespace NaturalDeduction

/-- The pairs of premises that rules with two premises ask for. -/
inductive WantedPair where
  | implicationAndAntecedent
  | implicationAndNegatedConsequent
  | chainedImplications
  | implicationAndConverse
  | biconditionalAndSide
  | sentenceAndNegation
  deriving DecidableEq, Repr

namespace WantedPair

/-- How messages name the pair. -/
def describe : WantedPair → String
  | implicationAndAntecedent => "an implication and its antecedent"
  | implicationAndNegatedConsequent => "an implication and the negation of its consequent"
  | chainedImplications => "two chained implications"
  | implicationAndConverse => "an implication and its converse"
  | biconditionalAndSide => "a biconditional and one of its sides"
  | sentenceAndNegation => "a sentence and its negation"

end WantedPair

/-- The ways in which a claim breaks its rule. -/
inductive Violation where
  /- The premises have the wrong number or kind. -/
  | premiseCount (rule : Rule) (expected cited : Nat)
  | tooFewConjuncts (cited : Nat)
  | citesSubproof (rule : Rule) (assumption : Sentence)
  | noSubproof (rule : Rule)
  | subproofCount (rule : Rule) (cited : Nat)
  | emptySubproof (assumption : Sentence)
  | disjunctionCount (cited : Nat)
  /- A premise has the wrong form. -/
  | premiseNotConjunction (premise : Sentence)
  | premiseNotDisjunction (premise : Sentence)
  | premiseNotFalsum (premise : Sentence)
  | premiseNotUniversal (premise : Sentence)
  | premisesNotPair (premises : List Sentence) (wanted : WantedPair)
  | nothingToEliminate
  | falsumNotDerived
  | notACase (assumption disjunction : Sentence)
  | caseNotDerived (case conclusion : Sentence)
  /- The conclusion has the wrong form. -/
  | notConjunction (conclusion : Sentence)
  | notDisjunction (conclusion : Sentence)
  | notImplication (conclusion : Sentence)
  | notExistential (conclusion : Sentence)
  | notFalsum (conclusion : Sentence)
  | notExcludedMiddle (conclusion : Sentence)
  /- The conclusion does not fit the premises. -/
  | notThePremise (conclusion premise : Sentence)
  | extraConjunct (conjunct : Sentence)
  | unusedPremise (premise conclusion : Sentence)
  | notAConjunct (conclusion premise : Sentence)
  | notADisjunct (conclusion premise : Sentence)
  | notDoubleNegation (conclusion premise : Sentence)
  | doesNotFollow (rule : Rule) (conclusion : Sentence) (expected : List Sentence)
  | antecedentNotAssumed (antecedent assumption : Sentence)
  | consequentNotDerived (consequent : Sentence)
  | notNegatedAssumption (conclusion assumption : Sentence)
  | conclusionNotInstance (conclusion premise : Sentence)
  | premiseNotInstance (premise conclusion : Sentence)
  deriving DecidableEq, Repr

namespace Violation

/-- A number of premises in words. -/
def countPremises (n : Nat) : String :=
  if n = 1 then "1 premise" else toString n ++ " premises"

/-- How many premises were cited, in words. -/
def countCited (n : Nat) : String :=
  if n = 1 then "1 was" else toString n ++ " were"

/-- The wording of each violation. -/
def message : Violation → String
  | premiseCount rule expected cited =>
    rule.displayName ++ " requires exactly " ++ countPremises expected ++ ", but "
      ++ countCited cited ++ " cited"
  | tooFewConjuncts cited =>
    "Conjunction requires at least 2 premises, but " ++ countCited cited ++ " cited"
  | citesSubproof rule assumption =>
    rule.displayName ++ " cannot cite the subproof assumed by " ++ assumption.quoted
  | noSubproof rule =>
    rule.displayName ++ " requires a subproof premise whose assumption opens a subproof directly "
      ++ "inside this line's scope"
  | subproofCount rule cited =>
    rule.displayName ++ " requires exactly 1 subproof premise, but " ++ countCited cited ++ " cited"
  | emptySubproof assumption => "The subproof assuming " ++ assumption.quoted ++ " derives nothing"
  | disjunctionCount cited =>
    "Proof by Cases requires exactly one disjunction among its premises, but "
      ++ countCited cited ++ " cited"
  | premiseNotConjunction premise =>
    "The cited premise " ++ premise.quoted ++ " is not a conjunction"
  | premiseNotDisjunction premise =>
    "The cited premise " ++ premise.quoted ++ " is not a disjunction"
  | premiseNotFalsum premise => "The cited premise " ++ premise.quoted ++ " is not ⊥"
  | premiseNotUniversal premise => "The cited premise " ++ premise.quoted ++ " is not a universal"
  | premisesNotPair premises wanted =>
    "The cited premises " ++ String.intercalate " and " (premises.map Sentence.quoted)
      ++ " are not " ++ wanted.describe
  | nothingToEliminate =>
    "Disjunctive Syllogism requires a disjunction and the negation of each disjunct being "
      ++ "eliminated"
  | falsumNotDerived => "The subproof does not derive ⊥"
  | notACase assumption disjunction =>
    "The subproof assuming " ++ assumption.quoted ++ " is not a case of " ++ disjunction.quoted
  | caseNotDerived case conclusion =>
    "No cited subproof assumes the case " ++ case.quoted ++ " and derives " ++ conclusion.quoted
  | notConjunction conclusion => conclusion.quoted ++ " is not a conjunction"
  | notDisjunction conclusion => conclusion.quoted ++ " is not a disjunction"
  | notImplication conclusion => conclusion.quoted ++ " is not an implication"
  | notExistential conclusion => conclusion.quoted ++ " is not an existential"
  | notFalsum conclusion => "Contradiction concludes ⊥, not " ++ conclusion.quoted
  | notExcludedMiddle conclusion =>
    conclusion.quoted ++ " is not a sentence disjoined with its negation"
  | notThePremise conclusion premise =>
    conclusion.quoted ++ " is not the same as the cited premise " ++ premise.quoted
  | extraConjunct conjunct =>
    "The conjunct " ++ conjunct.quoted ++ " is not one of the cited premises"
  | unusedPremise premise conclusion =>
    "The cited premise " ++ premise.quoted ++ " does not appear in " ++ conclusion.quoted
  | notAConjunct conclusion premise =>
    conclusion.quoted ++ " is not a conjunct of " ++ premise.quoted
  | notADisjunct conclusion premise =>
    conclusion.quoted ++ " does not contain the cited premise " ++ premise.quoted
      ++ " as a disjunct"
  | notDoubleNegation conclusion premise =>
    conclusion.quoted ++ " and " ++ premise.quoted ++ " do not differ by a double negation"
  | doesNotFollow rule conclusion expected =>
    conclusion.quoted ++ " does not follow by " ++ rule.displayName ++ "; expected "
      ++ String.intercalate " or " (expected.map Sentence.quoted)
  | antecedentNotAssumed antecedent assumption =>
    "The antecedent " ++ antecedent.quoted ++ " is not the subproof's assumption "
      ++ assumption.quoted
  | consequentNotDerived consequent =>
    "The consequent " ++ consequent.quoted ++ " is not derived in the subproof"
  | notNegatedAssumption conclusion assumption =>
    conclusion.quoted ++ " is not the negation of the subproof's assumption " ++ assumption.quoted
  | conclusionNotInstance conclusion premise =>
    conclusion.quoted ++ " is not an instance of " ++ premise.quoted
  | premiseNotInstance premise conclusion =>
    "The cited premise " ++ premise.quoted ++ " is not an instance of " ++ conclusion.quoted

end Violation

end NaturalDeduction
