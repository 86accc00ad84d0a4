/-
  Which sentences are instances of a pattern.

  An instance arises from the pattern by one term, put for every free occurrence
  of the variable at once, and by no other change. Where there is such an
  occurrence the instance tells the term; where there is none the pattern is its
  own only instance.
-/

import NaturalDeduction.Proofs.Sentence.Substitution

namespace NaturalDeduction.Sentence

variable {var t u : String}

/-- Two terms put for a variable that occurs free are told apart by the result. -/
theorem eq_of_replace_eq {s : Sentence} (hfree : s.isFree var = true)
    (h : s.replace var t = s.replace var u) : t = u := by
  -- In a chain the variable occurs in one of the operands.
  have hall : ∀ as : List Sentence,
      (∀ a ∈ as, a.isFree var = true → a.replace var t = a.replace var u → t = u) →
        isFreeInAny var as = true → replaceAll var t as = replaceAll var u as → t = u := by
    intro as has hfree h
    rw [isFreeInAny_eq_any, List.any_eq_true] at hfree
    obtain ⟨a, ha, hfree⟩ := hfree
    rw [replaceAll_eq_map, replaceAll_eq_map] at h
    exact has a ha hfree (List.map_inj_left.1 h a ha)
  induction s using induct with
  | falsum | verum => cases hfree
  | predicate name terms =>
    rw [isFree, List.contains_iff_mem] at hfree
    rw [replace, replace, predicate.injEq] at h
    simpa using List.map_inj_left.1 h.2 var hfree
  | not a ih =>
    rw [replace, replace, not.injEq] at h
    exact ih (by rwa [isFree] at hfree) h
  | and as ih =>
    rw [replace, replace, and.injEq] at h
    exact hall as ih (by rwa [isFree] at hfree) h
  | or as ih =>
    rw [replace, replace, or.injEq] at h
    exact hall as ih (by rwa [isFree] at hfree) h
  | implies a b iha ihb =>
    rw [replace, replace, implies.injEq] at h
    rw [isFree, Bool.or_eq_true] at hfree
    exact hfree.elim (fun ha => iha ha h.1) fun hb => ihb hb h.2
  | iff a b iha ihb =>
    rw [replace, replace, iff.injEq] at h
    rw [isFree, Bool.or_eq_true] at hfree
    exact hfree.elim (fun ha => iha ha h.1) fun hb => ihb hb h.2
  | forAll x a ih =>
    rw [isFree, Bool.and_eq_true, bne_iff_ne] at hfree
    rw [replace, replace, if_neg hfree.1, if_neg hfree.1, forAll.injEq] at h
    exact ih hfree.2 h.2
  | thereExists x a ih =>
    rw [isFree, Bool.and_eq_true, bne_iff_ne] at hfree
    rw [replace, replace, if_neg hfree.1, if_neg hfree.1, thereExists.injEq] at h
    exact ih hfree.2 h.2

/-- Matching an instance is uniform substitution: a sentence is accepted exactly when it is the
pattern with one term for every free occurrence of the variable and nothing else changed. The term
is the only one if the variable occurs free, and if it does not, the pattern alone is accepted. -/
theorem isInstantiatedBy_uniform (pattern sentence : Sentence) (var : String) :
    (pattern.isInstantiatedBy var sentence = true ↔
      ∃ term, sentence = pattern.replace var term) ∧
      (pattern.isFree var = true → ∀ term other, sentence = pattern.replace var term →
        sentence = pattern.replace var other → term = other) ∧
      (pattern.isFree var = false →
        (pattern.isInstantiatedBy var sentence = true ↔ sentence = pattern)) := by
  refine ⟨isInstantiatedBy_iff, fun hfree term other hterm hother => ?_, fun hbound => ?_⟩
  · exact eq_of_replace_eq hfree (hterm.symm.trans hother)
  · simp only [isInstantiatedBy_iff, replace_of_not_isFree hbound, exists_const]

/-- `P(t) → ∀y R(u, y)`, for two terms. -/
def farApart (t u : String) : Sentence :=
  .implies (.predicate "P" [t]) (.forAll "y" (.predicate "R" [u, "y"]))

theorem isInstantiatedBy_uniform_farApart :
    (farApart "x" "x").isInstantiatedBy "x" (farApart "a" "a") = true ∧
      ∀ term, farApart "a" "a" = (farApart "x" "x").replace "x" term → term = "a" := by
  have hfree : (farApart "x" "x").isFree "x" = true := by decide +kernel
  have hreplace : farApart "a" "a" = (farApart "x" "x").replace "x" "a" := by decide +kernel
  obtain ⟨hinstance, hunique, -⟩ :=
    isInstantiatedBy_uniform (farApart "x" "x") (farApart "a" "a") "x"
  exact ⟨hinstance.2 ⟨"a", hreplace⟩, fun term hterm => hunique hfree term "a" hterm hreplace⟩

/-- The two occurrences need one term, and the variable that a quantifier binds stays. -/
example : (farApart "x" "x").isInstantiatedBy "x" (farApart "a" "b") = false ∧
    (farApart "x" "x").isInstantiatedBy "y" (farApart "x" "x") = true ∧
    (farApart "x" "y").isInstantiatedBy "y" (farApart "x" "a") = false := by
  decide +kernel

end NaturalDeduction.Sentence
