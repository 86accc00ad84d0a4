/-
  Truth-functional meaning.

  A valuation gives a truth value to every predicate sentence and to every
  quantified sentence, which are taken as opaque. The truth tables extend it to
  all sentences: an empty conjunction is true, an empty disjunction false. A
  sentence follows from others when it is true wherever they all are.
-/

import NaturalDeduction.Sentence.Basic

namespace NaturalDeduction

/-- Truth values for the sentences that the truth tables do not take apart. -/
abbrev Valuation := Sentence → Bool

namespace Sentence

/-! ## Truth tables -/

mutual

/-- The truth value of a sentence. -/
def eval (v : Valuation) : Sentence → Bool
  | falsum => false
  | verum => true
  | predicate name terms => v (predicate name terms)
  | not body => !eval v body
  | and operands => evalAll v operands
  | or operands => evalAny v operands
  | implies antecedent consequent => !eval v antecedent || eval v consequent
  | iff left right => eval v left == eval v right
  | forAll var body => v (forAll var body)
  | thereExists var body => v (thereExists var body)

/-- Whether all sentences of a list are true. -/
def evalAll (v : Valuation) : List Sentence → Bool
  | [] => true
  | a :: as => eval v a && evalAll v as

/-- Whether some sentence of a list is true. -/
def evalAny (v : Valuation) : List Sentence → Bool
  | [] => false
  | a :: as => eval v a || evalAny v as

end

variable {v : Valuation}

attribute [local simp] eval evalAll evalAny

theorem evalAll_iff {as : List Sentence} : evalAll v as = true ↔ ∀ a ∈ as, eval v a = true := by
  induction as with
  | nil => simp [evalAll]
  | cons a as ih => simp [evalAll, ih]

theorem evalAny_iff {as : List Sentence} : evalAny v as = true ↔ ∃ a ∈ as, eval v a = true := by
  induction as with
  | nil => simp [evalAny]
  | cons a as ih => simp [evalAny, ih]

@[simp] theorem eval_falsum : eval v falsum = false := by rw [eval]

@[simp] theorem eval_not {a : Sentence} : eval v (not a) = !eval v a := by rw [eval]

@[simp] theorem eval_and {as : List Sentence} :
    eval v (and as) = true ↔ ∀ a ∈ as, eval v a = true := by
  rw [eval, evalAll_iff]

@[simp] theorem eval_or {as : List Sentence} :
    eval v (or as) = true ↔ ∃ a ∈ as, eval v a = true := by
  rw [eval, evalAny_iff]

@[simp] theorem eval_implies {a b : Sentence} :
    eval v (implies a b) = true ↔ (eval v a = true → eval v b = true) := by
  rw [eval]
  cases eval v a <;> simp

@[simp] theorem eval_iff {a b : Sentence} : eval v (iff a b) = true ↔ eval v a = eval v b := by
  rw [eval, beq_iff_eq]

/-- A disjunction of one sentence is that sentence, which makes no difference. -/
theorem eval_disjunction {as : List Sentence} :
    eval v (disjunction as) = true ↔ ∃ a ∈ as, eval v a = true := by
  unfold disjunction
  split
  · simp
  · exact eval_or

/-! ## Consequence -/

/-- The sentence is true under every valuation that makes all hypotheses true. -/
def FollowsFrom (sentence : Sentence) (hypotheses : List Sentence) : Prop :=
  ∀ v : Valuation, (∀ hypothesis ∈ hypotheses, eval v hypothesis = true) → eval v sentence = true

end Sentence

end NaturalDeduction
