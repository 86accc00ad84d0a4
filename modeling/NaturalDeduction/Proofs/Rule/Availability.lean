/-
  Where there is a suggestion.

  A rule that computes its conclusions suggests one wherever it licenses one. A
  proof by cases suggests what all of its subproofs conclude. If each case is
  assumed once, what is licensed is such a conclusion; if a case is assumed by
  two subproofs, only one of them needs to reach the conclusion, and then there
  may be nothing that all of them share.
-/

import Mathlib.Data.List.Nodup
import NaturalDeduction.Proofs.Rule.Licence

namespace NaturalDeduction.Rule

open Sentence

variable {rule : Rule} {premises : List Premise} {sentences : List Sentence}
  {s conclusion : Sentence}

/-! ## Candidates -/

theorem suggestions_eq_nil : rule.suggestions premises = [] ↔ rule.candidates premises = [] := by
  constructor
  · intro h
    refine List.eq_nil_iff_forall_not_mem.2 fun s hs => ?_
    have hmem : s.render ∈ rule.suggestions premises :=
      List.mem_eraseDups.2 (List.mem_map_of_mem hs)
    rw [h] at hmem
    cases hmem
  · intro h
    rw [suggestions, h]
    rfl

/-- A rule on pairs of premises that licenses something has computed it. -/
theorem mem_of_checkPair {conclusions : List Sentence → List Sentence} {wanted : WantedPair}
    {u : Unit} (h : checkPair rule premises conclusion conclusions wanted = .ok u) :
    conclusion ∈ conclusions (Premise.lines premises) := by
  obtain ⟨sentences, htwo, hamong⟩ := Except.bind_eq_ok.1 h
  rw [(twoPremises_eq_ok htwo).1, lines_map_line]
  exact mem_of_requireAmong hamong

/-- The premise of a simplification is a conjunction. -/
theorem exists_of_checkSimplification {premise : Sentence} {u : Unit}
    (h : checkSimplification premise conclusion = .ok u) :
    ∃ conjuncts, premise = .and conjuncts := by
  unfold checkSimplification at h
  split at h
  · cases h
  · exact ⟨_, conjuncts?_eq_some.1 ‹_›⟩

theorem exists_of_checkConditionalProof {assumption : Sentence} {conclusions : List Sentence}
    {u : Unit} (h : checkConditionalProof assumption conclusions conclusion = .ok u) :
    ∃ consequent, consequent ∈ conclusions := by
  unfold checkConditionalProof at h
  split at h
  · cases h
  · obtain ⟨_, -, hderived⟩ := Except.bind_eq_ok.1 h
    exact ⟨_, List.contains_iff_mem.1 (require_eq_ok.1 hderived)⟩

/-- Where a rule that fills in conclusions licenses one, it has a candidate, unless it goes by
cases. -/
theorem exists_mem_candidates {u : Unit} (hrule : rule.canAutoFill = true)
    (hcases : rule ≠ proofByCases) (hlines : .line (.and []) ∉ premises)
    (h : rule.check premises conclusion = .ok u) : ∃ s, s ∈ rule.candidates premises := by
  cases rule with
  | reiteration =>
    obtain ⟨premise, hone, -⟩ := Except.bind_eq_ok.1 h
    obtain rfl := onePremise_eq_ok hone
    exact ⟨premise, .head _⟩
  | conjunction =>
    obtain ⟨sentences, hplain, hcheck⟩ := Except.bind_eq_ok.1 h
    have hcount : 2 ≤ sentences.length := by
      by_contra hfew
      simp [checkConjunction, Nat.not_le.1 hfew, bind, Except.bind] at hcheck
    rw [← lines_of_plainPremises hplain] at hcount
    exact ⟨_, by simp only [candidates, if_pos hcount]; exact .head _⟩
  | simplification =>
    obtain ⟨premise, hone, hcheck⟩ := Except.bind_eq_ok.1 h
    obtain rfl := onePremise_eq_ok hone
    obtain ⟨conjuncts, rfl⟩ := exists_of_checkSimplification hcheck
    cases conjuncts with
    | nil => exact absurd (.head _) hlines
    | cons first conjuncts =>
      exact ⟨first, List.mem_flatten.2 ⟨_, List.mem_filterMap.2 ⟨_, .head _, rfl⟩, .head _⟩⟩
  | disjunctiveSyllogism =>
    obtain ⟨sentences, hplain, hamong⟩ := Except.bind_eq_ok.1 h
    obtain rfl := lines_of_plainPremises hplain
    exact ⟨conclusion, mem_of_requireAmong hamong⟩
  | modusPonens | modusTollens | hypotheticalSyllogism | biconditionalIntroduction
  | biconditionalElimination => exact ⟨conclusion, mem_of_checkPair h⟩
  | doubleNegation =>
    obtain ⟨premise, hone, -⟩ := Except.bind_eq_ok.1 h
    obtain rfl := onePremise_eq_ok hone
    have hdoubled : .not (.not premise) ∈ doubleNegationConclusions premise :=
      List.mem_append_right _ (.head _)
    exact ⟨_, List.mem_flatMap.2 ⟨premise, .head _, hdoubled⟩⟩
  | contradiction =>
    obtain ⟨sentences, htwo, hcheck⟩ := Except.bind_eq_ok.1 h
    obtain ⟨_, hpair, -⟩ := Except.bind_eq_ok.1 hcheck
    obtain ⟨rfl, -⟩ := twoPremises_eq_ok htwo
    rw [require_eq_ok, ← lines_map_line sentences] at hpair
    exact ⟨_, by simp only [candidates, if_pos hpair]; exact .head _⟩
  | conditionalProof =>
    obtain ⟨⟨assumption, conclusions⟩, hone, hcheck⟩ := Except.bind_eq_ok.1 h
    obtain rfl := oneSubproof_eq_ok hone
    obtain ⟨consequent, hmem⟩ := exists_of_checkConditionalProof hcheck
    have hdischarged : .implies assumption consequent ∈ discharges (assumption, conclusions) :=
      List.mem_map.2 ⟨consequent, List.mem_reverse.2 hmem, rfl⟩
    exact ⟨_, List.mem_flatMap.2 ⟨_, .head _, hdischarged⟩⟩
  | indirectProof =>
    obtain ⟨⟨assumption, conclusions⟩, hone, hcheck⟩ := Except.bind_eq_ok.1 h
    obtain rfl := oneSubproof_eq_ok hone
    obtain ⟨_, hfalsum, -⟩ := Except.bind_eq_ok.1 hcheck
    have hrefuted : .not assumption ∈ refutations assumption :=
      List.mem_append_right _ (.head _)
    refine ⟨_, List.mem_flatMap.2 ⟨(assumption, conclusions), ?_, hrefuted⟩⟩
    exact List.mem_filter.2 ⟨.head _, require_eq_ok.1 hfalsum⟩
  | proofByCases => exact absurd rfl hcases
  | addition | principleOfExplosion | excludedMiddle | universalInstantiation
  | existentialGeneralization => cases hrule

/-! ## Proofs by cases -/

section Cases

variable {subproofs : List (Sentence × List Sentence)}

/-- The candidates of a proof by cases are what all subproofs conclude. -/
theorem mem_commonConclusions_iff (hsome : subproofs ≠ []) :
    s ∈ commonConclusions subproofs ↔ ∀ subproof ∈ subproofs, s ∈ subproof.2 := by
  constructor
  · exact fun h subproof hmem => mem_of_mem_commonConclusions h hmem
  · intro h
    cases subproofs with
    | nil => exact absurd rfl hsome
    | cons first rest =>
      obtain ⟨hfirst, hrest⟩ := List.forall_mem_cons.1 h
      refine List.mem_filter.2 ⟨List.mem_reverse.2 hfirst, List.all_eq_true.2 ?_⟩
      exact fun subproof hmem => List.contains_iff_mem.2 (hrest subproof hmem)

theorem commonConclusions_eq_nil_iff (hsome : subproofs ≠ []) :
    commonConclusions subproofs = [] ↔ ∀ s, ∃ subproof ∈ subproofs, s ∉ subproof.2 := by
  rw [List.eq_nil_iff_forall_not_mem]
  refine forall_congr' fun s => ?_
  rw [mem_commonConclusions_iff hsome]
  push Not
  rfl

/-- If no two subproofs assume the same, each of them reaches what is concluded by cases. -/
theorem mem_of_checkProofByCases {u : Unit}
    (hnodup : ((Premise.subproofs premises).map Prod.fst).Nodup)
    (h : checkProofByCases premises conclusion = .ok u) :
    ∀ subproof ∈ Premise.subproofs premises, conclusion ∈ subproof.2 := by
  obtain ⟨-, cases, -, hassumed, hderived⟩ := checkProofByCases_eq_ok.1 h
  intro subproof hmem
  obtain ⟨conclusions, hcase, hconclusion⟩ := hderived subproof.1 (hassumed subproof hmem)
  rwa [List.inj_on_of_nodup_map hnodup hmem hcase rfl]

end Cases

/-! ## Suggestions -/

/-- A rule that fills in conclusions suggests one where it licenses one, unless it goes by cases and
the cited subproofs have no conclusion in common; and then two of them have the same assumption. No
cited line is taken to be the empty conjunction, which no text expresses. -/
theorem suggestions_eq_nil_iff (hrule : rule.canAutoFill = true)
    (hlines : .line (.and []) ∉ premises)
    (hlicensed : ∃ conclusion, rule.check premises conclusion = .ok ()) :
    (rule.suggestions premises = [] ↔
      rule = proofByCases ∧ ∀ s, ∃ subproof ∈ Premise.subproofs premises, s ∉ subproof.2) ∧
      (rule.suggestions premises = [] →
        ¬ ((Premise.subproofs premises).map Prod.fst).Nodup) := by
  obtain ⟨conclusion, hcheck⟩ := hlicensed
  rw [suggestions_eq_nil]
  by_cases hcases : rule = proofByCases
  · subst hcases
    have hcommon := commonConclusions_eq_nil_iff (checkProofByCases_eq_ok.1 hcheck).1
    refine ⟨hcommon.trans (by simp), fun hnone hnodup => ?_⟩
    obtain ⟨subproof, hmem, hnot⟩ := hcommon.1 hnone conclusion
    exact hnot (mem_of_checkProofByCases hnodup hcheck subproof hmem)
  · obtain ⟨s, hs⟩ := exists_mem_candidates hrule hcases hlines hcheck
    have hsome := List.ne_nil_of_mem hs
    exact ⟨⟨fun hnone => absurd hnone hsome, fun h => absurd h.1 hcases⟩,
      fun hnone => absurd hnone hsome⟩

theorem suggestions_eq_nil_iff_coveredCases :
    proofByCases.check coveredCases (.atom "R") = .ok () ∧
      proofByCases.suggestions coveredCases ≠ [] := by
  have hlines : .line (.and []) ∉ coveredCases := by decide +kernel
  have hcheck : proofByCases.check coveredCases (.atom "R") = .ok () := by decide +kernel
  have hnodup : ((Premise.subproofs coveredCases).map Prod.fst).Nodup := by decide +kernel
  exact ⟨hcheck, fun hnone => (suggestions_eq_nil_iff rfl hlines ⟨_, hcheck⟩).2 hnone hnodup⟩

/-- Two subproofs for one case, of which the second reaches another conclusion. -/
def caseTwice : List Premise :=
  [.line (.or [.atom "P", .atom "Q"]), .subproof (.atom "P") [.atom "R"],
    .subproof (.atom "P") [.atom "S"], .subproof (.atom "Q") [.atom "R"]]

/-- Each case has a subproof that reaches `R`, so `R` is licensed, but nothing is suggested. -/
theorem suggestions_caseTwice :
    proofByCases.canAutoFill = true ∧
      (∀ premise ∈ caseTwice, ∀ sentence ∈ premise.stated,
        read sentence.render = .ok (some sentence)) ∧
      proofByCases.check caseTwice (.atom "R") = .ok () ∧
      proofByCases.suggestions caseTwice = [] := by
  decide +kernel

end NaturalDeduction.Rule
