/-
  Which rules the truth tables justify.

  A claim is a consequence when its conclusion is true under every valuation
  under which its premises hold. What a rule accepts is always a consequence,
  whatever the premises and however oddly built the sentences are, unless the
  rule is one of the two for quantifiers: a valuation takes quantified sentences
  as opaque, so it may tell them from their instances.
-/

import NaturalDeduction.Proofs.Rule.Quantifier

namespace NaturalDeduction

open Sentence

namespace Claim

/-- The conclusion is true under every valuation that makes the cited lines true, and for each cited
subproof its conclusions provided that its assumption is true. -/
def IsConsequence (claim : Claim) : Prop :=
  ∀ v : Valuation, (∀ premise ∈ claim.premises, premise.Holds v) → eval v claim.conclusion = true

/-- Sentences that the truth tables do not take apart say nothing about each other. -/
theorem not_isConsequence_of_opaque {premise conclusion : Sentence} {rule : Rule}
    (hpremise : ∀ v, eval v premise = v premise)
    (hconclusion : ∀ v, eval v conclusion = v conclusion)
    (hne : conclusion ≠ premise) : ¬ IsConsequence ⟨conclusion, [.line premise], rule⟩ := by
  intro hfollows
  -- Only the premise is true.
  have htrue := hfollows (fun s => s == premise) (by simp [Premise.Holds, hpremise])
  rw [hconclusion, beq_iff_eq] at htrue
  exact hne htrue

/-- A quantifier rule that puts one name for another accepts a claim that is no consequence. -/
theorem not_isConsequence_of_substitutes {claim : Claim}
    (h : claim.Substitutes (.predicate "P" ["x"]) "x" "a") : ¬ claim.IsConsequence := by
  have hinstance : (Sentence.predicate "P" ["x"]).replace "x" "a" = .predicate "P" ["a"] := by
    decide +kernel
  cases h with
  | universal =>
    rw [hinstance]
    exact not_isConsequence_of_opaque (fun v => by rw [eval]) (fun v => by rw [eval]) (by simp)
  | existential =>
    rw [hinstance]
    exact not_isConsequence_of_opaque (fun v => by rw [eval]) (fun v => by rw [eval]) (by simp)

end Claim

namespace Rule

/-- For every rule but the two quantifier rules, all claims that it accepts are consequences; for
those two some are not. -/
theorem check_isConsequence_iff (rule : Rule) :
    (rule ≠ universalInstantiation ∧ rule ≠ existentialGeneralization) ↔
      ∀ claim : Claim, claim.rule = rule → claim.check = .ok () → claim.IsConsequence := by
  constructor
  · rintro ⟨huniversal, hexistential⟩ claim rfl hcheck v hholds
    have hrule : claim.rule.isQuantifierRule = false := by
      unfold isQuantifierRule
      split <;> simp_all
    exact eval_of_check hrule hholds hcheck
  · intro hsound
    have hrefuted : ∀ claim : Claim, claim.Substitutes (.predicate "P" ["x"]) "x" "a" →
        claim.rule.isQuantifierRule = true → claim.rule ≠ rule := by
      intro claim hsubstitutes hrule heq
      have hcheck := (Claim.check_quantifierRule_iff hrule).2 ⟨_, _, _, hsubstitutes⟩
      exact Claim.not_isConsequence_of_substitutes hsubstitutes (hsound claim heq hcheck)
    exact ⟨fun h => hrefuted _ .universal rfl h.symm, fun h => hrefuted _ .existential rfl h.symm⟩

/-- An empty disjunction has no cases, and cited alone it licenses nothing by cases; an empty
conjunction may be drawn from any conjunction. -/
example : check .proofByCases [.line (.or [])] .falsum ≠ .ok () ∧
    check .simplification [.line (.and [.falsum])] (.and []) = .ok () := by
  decide +kernel

end Rule

end NaturalDeduction
