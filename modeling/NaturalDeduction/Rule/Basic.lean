/-
  The catalog of inference rules.

  Each rule has an identifier, used in documents and settings, and a display
  name, used in messages. `Rule.named?` reads either one. The catalog has a
  fixed order, in which sets of rules are listed.
-/

import NaturalDeduction.Text.Blank

namespace NaturalDeduction

/-- The inference rules, in catalog order. -/
inductive Rule where
  | reiteration
  | conjunction
  | simplification
  | addition
  | disjunctiveSyllogism
  | modusPonens
  | modusTollens
  | hypotheticalSyllogism
  | doubleNegation
  | biconditionalIntroduction
  | biconditionalElimination
  | contradiction
  | principleOfExplosion
  | excludedMiddle
  | conditionalProof
  | indirectProof
  | proofByCases
  | universalInstantiation
  | existentialGeneralization
  deriving DecidableEq, Repr, Inhabited

namespace Rule

/-- Every rule, in catalog order. -/
def all : List Rule :=
  [reiteration, conjunction, simplification, addition, disjunctiveSyllogism, modusPonens,
   modusTollens, hypotheticalSyllogism, doubleNegation, biconditionalIntroduction,
   biconditionalElimination, contradiction, principleOfExplosion, excludedMiddle,
   conditionalProof, indirectProof, proofByCases, universalInstantiation,
   existentialGeneralization]

theorem mem_all (rule : Rule) : rule ∈ all := by
  cases rule <;> decide

/-- The place of a rule in the catalog. -/
def ordinal (rule : Rule) : Nat :=
  all.idxOf rule

/-! ## Names -/

/-- The name that messages use. -/
def displayName : Rule → String
  | reiteration => "Reiteration"
  | conjunction => "Conjunction"
  | simplification => "Simplification"
  | addition => "Addition"
  | disjunctiveSyllogism => "Disjunctive Syllogism"
  | modusPonens => "Modus Ponens"
  | modusTollens => "Modus Tollens"
  | hypotheticalSyllogism => "Hypothetical Syllogism"
  | doubleNegation => "Double Negation"
  | biconditionalIntroduction => "Biconditional Introduction"
  | biconditionalElimination => "Biconditional Elimination"
  | contradiction => "Contradiction"
  | principleOfExplosion => "Principle of Explosion"
  | excludedMiddle => "Excluded Middle"
  | conditionalProof => "Conditional Proof"
  | indirectProof => "Indirect Proof"
  | proofByCases => "Proof by Cases"
  | universalInstantiation => "Universal Instantiation"
  | existentialGeneralization => "Existential Generalization"

/-- The name that documents and settings use. -/
def identifier : Rule → String
  | reiteration => "reiteration"
  | conjunction => "conjunction"
  | simplification => "simplification"
  | addition => "addition"
  | disjunctiveSyllogism => "disjunctive_syllogism"
  | modusPonens => "modus_ponens"
  | modusTollens => "modus_tollens"
  | hypotheticalSyllogism => "hypothetical_syllogism"
  | doubleNegation => "double_negation"
  | biconditionalIntroduction => "biconditional_introduction"
  | biconditionalElimination => "biconditional_elimination"
  | contradiction => "contradiction"
  | principleOfExplosion => "principle_of_explosion"
  | excludedMiddle => "excluded_middle"
  | conditionalProof => "conditional_proof"
  | indirectProof => "indirect_proof"
  | proofByCases => "proof_by_cases"
  | universalInstantiation => "universal_instantiation"
  | existentialGeneralization => "existential_generalization"

instance : ToString Rule := ⟨displayName⟩

/-- The rule with exactly this identifier. -/
def ofIdentifier? (name : String) : Option Rule :=
  all.find? fun rule => rule.identifier == name

/-- A text that names no rule, without the white space around it. -/
structure UnknownName where
  name : String
  deriving DecidableEq, Repr

/-- The wording of an unknown name. -/
def UnknownName.message (unknown : UnknownName) : String :=
  "unknown rule '" ++ unknown.name ++ "'"

/-- Reads the name of a rule: its identifier, or its display name in any case, with white space
around it. -/
def named? (text : String) : Except UnknownName Rule :=
  let name := Text.trim text
  match all.find? fun rule => rule.identifier == name || Text.sameName rule.displayName name with
  | some rule => .ok rule
  | none => .error ⟨name⟩

/-! ## Kinds of rules -/

/-- Rules that are justified by whole subproofs. -/
def consumesSubproof : Rule → Bool
  | conditionalProof | indirectProof | proofByCases => true
  | _ => false

/-- Rules whose conclusion can be suggested from the premises alone. -/
def canAutoFill : Rule → Bool
  | addition | principleOfExplosion | excludedMiddle | universalInstantiation
  | existentialGeneralization => false
  | _ => true

/-! ## Sets of rules -/

/-- The set of the rules in a list: each once, in catalog order. -/
def setOf (rules : List Rule) : List Rule :=
  all.filter fun rule => rules.contains rule

theorem setOf_setOf (rules : List Rule) : setOf (setOf rules) = setOf rules := by
  simp [setOf, mem_all]

end Rule

end NaturalDeduction
