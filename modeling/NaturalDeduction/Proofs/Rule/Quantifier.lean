/-
  The quantifier rules.

  Both rules accept a claim exactly when one of its sentences arises from the
  body of the other one by a replacement of the bound variable. They preserve
  truth when the replacement is a legal substitution. That it is one is not
  checked: a term that a quantifier inside the body binds is accepted, and then
  the conclusion may be false where the premise is true.
-/

import NaturalDeduction.Proofs.Rule.Soundness
import NaturalDeduction.Proofs.Sentence.Interpretation

namespace NaturalDeduction

open Sentence

/-- The claims that relate a quantified sentence, with the variable `var` and the body `body`, to
the body with a term put for the variable. -/
inductive Claim.Substitutes (body : Sentence) (var term : String) : Claim → Prop where
  | universal : Substitutes body var term
      ⟨body.replace var term, [.line (.forAll var body)], .universalInstantiation⟩
  | existential : Substitutes body var term
      ⟨.thereExists var body, [.line (body.replace var term)], .existentialGeneralization⟩

namespace Rule

variable {rule : Rule} {premises : List Premise} {premise conclusion body : Sentence}
  {var term : String}

theorem onePremise_line (rule : Rule) (premise : Sentence) :
    onePremise rule [.line premise] = .ok premise := rfl

theorem check_universalInstantiation_iff :
    universalInstantiation.check premises conclusion = .ok () ↔
      ∃ body var term, premises = [.line (.forAll var body)] ∧
        conclusion = body.replace var term := by
  constructor
  · intro h
    obtain ⟨premise, hone, hcheck⟩ := Except.bind_eq_ok.1 h
    rw [onePremise_eq_ok hone]
    unfold checkUniversalInstantiation at hcheck
    split at hcheck
    · rename_i var body
      obtain ⟨term, hterm⟩ := isInstantiatedBy_iff.1 (require_eq_ok.1 hcheck)
      exact ⟨body, var, term, rfl, hterm⟩
    · cases hcheck
  · rintro ⟨body, var, term, rfl, rfl⟩
    refine Except.bind_eq_ok.2 ⟨_, onePremise_line _ _, ?_⟩
    exact require_eq_ok.2 (isInstantiatedBy_iff.2 ⟨term, rfl⟩)

theorem check_existentialGeneralization_iff :
    existentialGeneralization.check premises conclusion = .ok () ↔
      ∃ body var term, premises = [.line (body.replace var term)] ∧
        conclusion = .thereExists var body := by
  constructor
  · intro h
    obtain ⟨premise, hone, hcheck⟩ := Except.bind_eq_ok.1 h
    rw [onePremise_eq_ok hone]
    unfold checkExistentialGeneralization at hcheck
    split at hcheck
    · rename_i var body
      obtain ⟨term, rfl⟩ := isInstantiatedBy_iff.1 (require_eq_ok.1 hcheck)
      exact ⟨body, var, term, rfl, rfl⟩
    · cases hcheck
  · rintro ⟨body, var, term, rfl, rfl⟩
    refine Except.bind_eq_ok.2 ⟨_, onePremise_line _ _, ?_⟩
    exact require_eq_ok.2 (isInstantiatedBy_iff.2 ⟨term, rfl⟩)

end Rule

namespace Claim

variable {claim : Claim} {body : Sentence} {var term : String}

/-- A claim with a quantifier rule is accepted when it replaces the bound variable by a term,
whatever the term. -/
theorem check_quantifierRule_iff (hrule : claim.rule.isQuantifierRule = true) :
    claim.check = .ok () ↔ ∃ body var term, claim.Substitutes body var term := by
  obtain ⟨conclusion, premises, rule⟩ := claim
  -- All but the two quantifier rules are excluded.
  cases rule <;> simp only [Rule.isQuantifierRule, Bool.false_eq_true] at hrule
  · rw [check, Rule.check_universalInstantiation_iff]
    constructor
    · rintro ⟨body, var, term, rfl, rfl⟩
      exact ⟨body, var, term, .universal⟩
    · rintro ⟨body, var, term, hsubstitutes⟩
      cases hsubstitutes
      exact ⟨body, var, term, rfl, rfl⟩
  · rw [check, Rule.check_existentialGeneralization_iff]
    constructor
    · rintro ⟨body, var, term, rfl, rfl⟩
      exact ⟨body, var, term, .existential⟩
    · rintro ⟨body, var, term, hsubstitutes⟩
      cases hsubstitutes
      exact ⟨body, var, term, rfl, rfl⟩

/-- With a term that is free for the variable, what holds of all holds of what the term stands for,
and what holds of that holds of something. -/
theorem Substitutes.holds (h : claim.Substitutes body var term)
    (hfree : body.isFreeFor var term = true) {α : Type} {I : Interpretation α}
    {env : Assignment α} (hpremises : ∀ premise ∈ claim.premises, Holds I env premise.sentence) :
    Holds I env claim.conclusion := by
  cases h with
  | universal =>
    have hall : Holds I env (.forAll var body) := hpremises _ (.head _)
    rw [Holds] at hall
    exact (holds_replace hfree).2 (hall (env term))
  | existential =>
    have hinstance : Holds I env (body.replace var term) := hpremises _ (.head _)
    rw [Holds]
    exact ⟨env term, (holds_replace hfree).1 hinstance⟩

/-- The claims with a quantifier rule that are accepted are those that replace the bound variable by
a term. Where the term is free for the variable, the conclusion is true under every interpretation
and assignment that makes the premise true. -/
theorem holds_of_check_quantifierRule (hrule : claim.rule.isQuantifierRule = true) :
    (claim.check = .ok () ↔ ∃ body var term, claim.Substitutes body var term) ∧
      ∀ body var term, claim.Substitutes body var term → body.isFreeFor var term = true →
        ∀ (α : Type) (I : Interpretation α) (env : Assignment α),
          (∀ premise ∈ claim.premises, Holds I env premise.sentence) →
            Holds I env claim.conclusion :=
  ⟨check_quantifierRule_iff hrule, fun _ _ _ h hfree _ _ _ hpremises => h.holds hfree hpremises⟩

/-- From `∀x ∃y R(x, y)` to `∃y R(t, y)`, for a term `t`. -/
def instantiatedAt (term : String) : Claim where
  conclusion := .thereExists "y" (.predicate "R" [term, "y"])
  premises := [.line (.forAll "x" (.thereExists "y" (.predicate "R" ["x", "y"])))]
  rule := .universalInstantiation

theorem holds_of_check_instantiatedAt_a :
    (instantiatedAt "a").check = .ok () ∧
      ∀ (I : Interpretation Nat) (env : Assignment Nat),
        (∀ premise ∈ (instantiatedAt "a").premises, Holds I env premise.sentence) →
          Holds I env (instantiatedAt "a").conclusion := by
  have hrule : (instantiatedAt "a").rule.isQuantifierRule = true := rfl
  have hsubstitutes : (instantiatedAt "a").Substitutes
      (.thereExists "y" (.predicate "R" ["x", "y"])) "x" "a" := .universal
  have hsound := holds_of_check_quantifierRule hrule
  exact ⟨hsound.1.2 ⟨_, _, _, hsubstitutes⟩,
    hsound.2 _ _ _ hsubstitutes (by decide +kernel) Nat⟩

/-- Putting for `x` the variable that `∃y` binds is accepted, but on a domain of two elements the
premise is true and the conclusion false when `R` holds of different elements only. -/
theorem check_instantiatedAt_y_unsound :
    (instantiatedAt "y").check = .ok () ∧
      ∃ (I : Interpretation Bool) (env : Assignment Bool),
        (∀ premise ∈ (instantiatedAt "y").premises, Holds I env premise.sentence) ∧
          ¬ Holds I env (instantiatedAt "y").conclusion := by
  refine ⟨by decide +kernel, fun _ terms => terms[0]? ≠ terms[1]?, fun _ => true, ?_, ?_⟩
  · intro premise hpremise
    rw [instantiatedAt, List.mem_singleton] at hpremise
    subst hpremise
    simp only [Premise.sentence, Holds]
    intro d
    -- For each element the other one differs from it.
    exact ⟨!d, by cases d <;> simp [Function.update]⟩
  · simp [instantiatedAt, Holds]

end Claim

end NaturalDeduction
