/-
  Checking a claim against its rule.

  `Claim.check` either accepts a claim or gives the first violation. The
  premises are looked at before the conclusion: first whether they are lines
  or subproofs as the rule requires, then how many there are, then their form.
-/

import NaturalDeduction.Rule.Conclusions
import NaturalDeduction.Rule.Violation
import NaturalDeduction.Sentence.Instance

namespace NaturalDeduction

namespace Rule

/-- The outcome of a check that yields a value. -/
abbrev Checked := Except Violation

/-! ## Premises of the required kind -/

/-- The sentences of the premises, none of which may be a subproof. -/
def plainPremises (rule : Rule) (premises : List Premise) : Checked (List Sentence) :=
  premises.mapM fun
    | .line sentence => .ok sentence
    | .subproof assumption _ => .error (.citesSubproof rule assumption)

/-- The sentence of the only premise, which may not be a subproof. -/
def onePremise (rule : Rule) (premises : List Premise) : Checked Sentence := do
  match ← plainPremises rule premises with
  | [premise] => return premise
  | others => .error (.premiseCount rule 1 others.length)

/-- The sentences of the premises, of which there must be two, neither one a subproof. -/
def twoPremises (rule : Rule) (premises : List Premise) : Checked (List Sentence) := do
  match ← plainPremises rule premises with
  | [first, second] => return [first, second]
  | others => .error (.premiseCount rule 2 others.length)

/-- The assumption and the conclusions of the only premise, a subproof that derives something. -/
def oneSubproof (rule : Rule) (premises : List Premise) :
    Checked (Sentence × List Sentence) := do
  match Premise.subproofs premises with
  | [] => .error (.noSubproof rule)
  | (assumption, conclusions) :: _ =>
    if premises.length ≠ 1 then .error (.subproofCount rule premises.length)
    else if conclusions.isEmpty then .error (.emptySubproof assumption)
    else return (assumption, conclusions)

/-! ## Conclusions of the required form -/

/-- Accepts when the condition holds. -/
def require (condition : Bool) (violation : Violation) : Checked Unit :=
  if condition then .ok () else .error violation

/-- Accepts a conclusion that is among the ones the premises allow. -/
def requireAmong (rule : Rule) (conclusion : Sentence) (allowed : List Sentence)
    (missing : Violation) : Checked Unit :=
  if allowed.isEmpty then .error missing
  else require (allowed.contains conclusion) (.doesNotFollow rule conclusion allowed)

/-- A conjunction of exactly the premises, in any order and with repeats. -/
def checkConjunction (premises : List Sentence) (conclusion : Sentence) : Checked Unit := do
  if premises.length < 2 then .error (.tooFewConjuncts premises.length)
  match conclusion.conjuncts? with
  | none => .error (.notConjunction conclusion)
  | some conjuncts =>
    -- Each direction by itself, so that order and repeats make no difference.
    if let some extra := conjuncts.find? fun conjunct => !premises.contains conjunct then
      .error (.extraConjunct extra)
    if let some unused := premises.find? fun premise => !conjuncts.contains premise then
      .error (.unusedPremise unused conclusion)

/-- A conjunct of the premise, or a conjunction of some of its conjuncts. -/
def checkSimplification (premise conclusion : Sentence) : Checked Unit :=
  match premise.conjuncts? with
  | none => .error (.premiseNotConjunction premise)
  | some conjuncts =>
    let isPart := match conclusion.conjuncts? with
      | some parts => parts.all conjuncts.contains
      | none => false
    require (conjuncts.contains conclusion || isPart) (.notAConjunct conclusion premise)

/-- A disjunction with the premise among its disjuncts. -/
def checkAddition (premise conclusion : Sentence) : Checked Unit :=
  match conclusion.disjuncts? with
  | none => .error (.notDisjunction conclusion)
  | some disjuncts => require (disjuncts.contains premise) (.notADisjunct conclusion premise)

/-- The premise with two negations put in front or taken away. -/
def checkDoubleNegation (premise conclusion : Sentence) : Checked Unit :=
  let added := conclusion.negated?.bind Sentence.negated? == some premise
  let removed := premise.negated?.bind Sentence.negated? == some conclusion
  require (added || removed) (.notDoubleNegation conclusion premise)

/-- The constant `⊥`, from a sentence and its negation. -/
def checkContradiction (premises : List Sentence) (conclusion : Sentence) : Checked Unit := do
  require (contradicts premises) (.premisesNotPair premises .sentenceAndNegation)
  require (conclusion == .falsum) (.notFalsum conclusion)

/-- A disjunction of a sentence and its negation, in either order. -/
def checkExcludedMiddle (conclusion : Sentence) : Checked Unit :=
  let excluded := match conclusion.disjuncts? with
    | some [a, b] => b.negated? == some a || a.negated? == some b
    | _ => false
  require excluded (.notExcludedMiddle conclusion)

/-- An implication from the subproof's assumption to one of its conclusions. -/
def checkConditionalProof (assumption : Sentence) (conclusions : List Sentence)
    (conclusion : Sentence) : Checked Unit := do
  match conclusion.implication? with
  | none => .error (.notImplication conclusion)
  | some (antecedent, consequent) =>
    require (antecedent == assumption) (.antecedentNotAssumed antecedent assumption)
    require (conclusions.contains consequent) (.consequentNotDerived consequent)

/-- What the subproof, which derives `⊥`, refutes its assumption to. -/
def checkIndirectProof (assumption : Sentence) (conclusions : List Sentence)
    (conclusion : Sentence) : Checked Unit := do
  require (conclusions.contains .falsum) .falsumNotDerived
  require ((refutations assumption).contains conclusion)
    (.notNegatedAssumption conclusion assumption)

/-- A sentence that is derived in a subproof for each case of the one cited disjunction; no
subproof may assume anything else. -/
def checkProofByCases (premises : List Premise) (conclusion : Sentence) : Checked Unit := do
  let subproofs := Premise.subproofs premises
  if subproofs.isEmpty then .error (.noSubproof .proofByCases)
  match Premise.lines premises with
  | [disjunction] =>
    match disjunction.disjuncts? with
    | none => .error (.premiseNotDisjunction disjunction)
    | some cases =>
      let isStray := fun (subproof : Sentence × List Sentence) => !cases.contains subproof.1
      -- A subproof for something else is found first, then a case that no subproof derives it for.
      if let some (other, _) := subproofs.find? isStray then
        .error (.notACase other disjunction)
      if let some case := cases.find? fun case =>
          !subproofs.any fun (assumption, conclusions) =>
            assumption == case && conclusions.contains conclusion then
        .error (.caseNotDerived case conclusion)
  | others => .error (.disjunctionCount others.length)

/-- An instance of the universal premise. -/
def checkUniversalInstantiation (premise conclusion : Sentence) : Checked Unit :=
  match premise with
  | .forAll var body =>
    require (body.isInstantiatedBy var conclusion) (.conclusionNotInstance conclusion premise)
  | _ => .error (.premiseNotUniversal premise)

/-- An existential sentence of which the premise is an instance. -/
def checkExistentialGeneralization (premise conclusion : Sentence) : Checked Unit :=
  match conclusion with
  | .thereExists var body =>
    require (body.isInstantiatedBy var premise) (.premiseNotInstance premise conclusion)
  | _ => .error (.notExistential conclusion)

/-- Checks a conclusion drawn from two premises by a rule that computes its conclusions. -/
def checkPair (rule : Rule) (premises : List Premise) (conclusion : Sentence)
    (conclusions : List Sentence → List Sentence) (wanted : WantedPair) : Checked Unit := do
  let sentences ← twoPremises rule premises
  requireAmong rule conclusion (conclusions sentences) (.premisesNotPair sentences wanted)

/-- Whether the rule licenses the conclusion from the premises, or why not. -/
def check (rule : Rule) (premises : List Premise) (conclusion : Sentence) : Checked Unit := do
  match rule with
  | reiteration =>
    let premise ← onePremise rule premises
    require (premise == conclusion) (.notThePremise conclusion premise)
  | conjunction => checkConjunction (← plainPremises rule premises) conclusion
  | simplification => checkSimplification (← onePremise rule premises) conclusion
  | addition => checkAddition (← onePremise rule premises) conclusion
  | disjunctiveSyllogism =>
    let sentences ← plainPremises rule premises
    requireAmong rule conclusion (disjunctiveSyllogismConclusions sentences) .nothingToEliminate
  | modusPonens =>
    checkPair rule premises conclusion modusPonensConclusions .implicationAndAntecedent
  | modusTollens =>
    checkPair rule premises conclusion modusTollensConclusions .implicationAndNegatedConsequent
  | hypotheticalSyllogism =>
    checkPair rule premises conclusion hypotheticalSyllogismConclusions .chainedImplications
  | doubleNegation => checkDoubleNegation (← onePremise rule premises) conclusion
  | biconditionalIntroduction =>
    checkPair rule premises conclusion biconditionalIntroductionConclusions .implicationAndConverse
  | biconditionalElimination =>
    checkPair rule premises conclusion biconditionalEliminationConclusions .biconditionalAndSide
  | contradiction => checkContradiction (← twoPremises rule premises) conclusion
  | principleOfExplosion =>
    let premise ← onePremise rule premises
    require (premise == .falsum) (.premiseNotFalsum premise)
  | excludedMiddle =>
    match ← plainPremises rule premises with
    | [] => checkExcludedMiddle conclusion
    | others => .error (.premiseCount rule 0 others.length)
  | conditionalProof =>
    let (assumption, conclusions) ← oneSubproof rule premises
    checkConditionalProof assumption conclusions conclusion
  | indirectProof =>
    let (assumption, conclusions) ← oneSubproof rule premises
    checkIndirectProof assumption conclusions conclusion
  | proofByCases => checkProofByCases premises conclusion
  | universalInstantiation =>
    checkUniversalInstantiation (← onePremise rule premises) conclusion
  | existentialGeneralization =>
    checkExistentialGeneralization (← onePremise rule premises) conclusion

end Rule

/-- Whether the claim's rule licenses it, or why not. -/
def Claim.check (claim : Claim) : Except Violation Unit :=
  claim.rule.check claim.premises claim.conclusion

end NaturalDeduction
