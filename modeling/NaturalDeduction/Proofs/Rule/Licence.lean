/-
  Suggested conclusions are licensed.

  Checking a claim and suggesting a conclusion look at the premises in two
  ways: the check asks for premises of the kinds and in the number that its rule
  needs, the suggestions pass over premises of another kind. Where some
  conclusion is licensed the premises are as the rule needs them, and then it
  licenses every candidate. A candidate is suggested as a text, which is read
  back to it unless it is nested too deeply.
-/

import NaturalDeduction.Proofs.Rule.Suggestion
import NaturalDeduction.Proofs.Sentence.Rejection

namespace NaturalDeduction

/-- The sentences that a premise states: that of a line, or the assumption and the conclusions of a
subproof. -/
def Premise.stated : Premise → List Sentence
  | .line sentence => [sentence]
  | .subproof assumption conclusions => assumption :: conclusions

namespace Rule

open Sentence

variable {rule : Rule} {premises : List Premise} {sentences : List Sentence}
  {s conclusion : Sentence}

/-! ## Premises of one kind -/

@[simp] theorem lines_map_line (sentences : List Sentence) :
    Premise.lines (sentences.map .line) = sentences := by
  simp [Premise.lines, List.filterMap_map, Function.comp_def, Premise.line?]

theorem lines_of_plainPremises (h : plainPremises rule premises = .ok sentences) :
    Premise.lines premises = sentences := by
  rw [plainPremises_eq_ok h, lines_map_line]

/-! ## Candidates -/

theorem requireAmong_of_mem {allowed : List Sentence} (h : s ∈ allowed) (missing : Violation) :
    requireAmong rule s allowed missing = .ok () := by
  rw [requireAmong, if_neg (by simpa using List.ne_nil_of_mem h), require_eq_ok]
  simpa using h

/-- A rule that computes its conclusions licenses each of them, if it licenses one. -/
theorem checkPair_of_mem {conclusions : List Sentence → List Sentence} {wanted : WantedPair}
    {u : Unit} (h : checkPair rule premises conclusion conclusions wanted = .ok u)
    (hs : s ∈ conclusions (Premise.lines premises)) :
    checkPair rule premises s conclusions wanted = .ok () := by
  obtain ⟨sentences, htwo, -⟩ := Except.bind_eq_ok.1 h
  rw [(twoPremises_eq_ok htwo).1, lines_map_line] at hs
  exact Except.bind_eq_ok.2 ⟨sentences, htwo, requireAmong_of_mem hs _⟩

/-- A conjunction of the premises has no other conjuncts and leaves none out. -/
theorem checkConjunction_and (h : 2 ≤ sentences.length) :
    checkConjunction sentences (.and sentences) = .ok () := by
  have hextra : sentences.find? (fun conjunct => !sentences.contains conjunct) = none :=
    List.find?_eq_none.2 fun conjunct hmem => by simpa using hmem
  simp only [checkConjunction, Nat.not_lt.2 h, conjuncts?, hextra]
  rfl

theorem checkDoubleNegation_of_mem {premise : Sentence}
    (hs : s ∈ doubleNegationConclusions premise) : checkDoubleNegation premise s = .ok () := by
  rw [checkDoubleNegation, require_eq_ok, Bool.or_eq_true, beq_iff_eq, beq_iff_eq]
  rw [doubleNegationConclusions, List.mem_append, Option.mem_toList, List.mem_singleton] at hs
  rcases hs with hremoved | rfl
  · exact .inr hremoved
  · exact .inl rfl

/-- What all subproofs conclude is a conclusion of each of them. -/
theorem mem_of_mem_commonConclusions {subproofs : List (Sentence × List Sentence)}
    (h : s ∈ commonConclusions subproofs) {assumption : Sentence} {conclusions : List Sentence}
    (hsubproof : (assumption, conclusions) ∈ subproofs) : s ∈ conclusions := by
  cases subproofs with
  | nil => cases hsubproof
  | cons first rest =>
    obtain ⟨hfirst, hrest⟩ := List.mem_filter.1 h
    rcases List.mem_cons.1 hsubproof with rfl | hmem
    · exact List.mem_reverse.1 hfirst
    · simpa using List.all_eq_true.1 hrest _ hmem

/-- If every case is covered for one conclusion, it is for each that all subproofs share. -/
theorem checkProofByCases_of_mem {u : Unit} (h : checkProofByCases premises conclusion = .ok u)
    (hs : s ∈ commonConclusions (Premise.subproofs premises)) :
    checkProofByCases premises s = .ok () := by
  obtain ⟨hsome, cases, hlines, hassumed, hderived⟩ := checkProofByCases_eq_ok.1 h
  refine checkProofByCases_eq_ok.2 ⟨hsome, cases, hlines, hassumed, fun case hcase => ?_⟩
  obtain ⟨conclusions, hmem, -⟩ := hderived case hcase
  exact ⟨conclusions, hmem, mem_of_mem_commonConclusions hs hmem⟩

/-- Where a rule licenses some conclusion, it licenses all its candidates. -/
theorem check_of_mem_candidates {u : Unit} (h : rule.check premises conclusion = .ok u)
    (hs : s ∈ rule.candidates premises) : rule.check premises s = .ok () := by
  -- One case for each rule. What the check found out about the premises holds for the candidate as
  -- well, and the premises are then of the one kind that the candidates are taken from.
  cases rule with
  | reiteration =>
    obtain ⟨premise, hone, -⟩ := Except.bind_eq_ok.1 h
    refine Except.bind_eq_ok.2 ⟨premise, hone, require_eq_ok.2 ?_⟩
    obtain rfl := onePremise_eq_ok hone
    exact beq_iff_eq.2 (List.mem_singleton.1 hs).symm
  | conjunction =>
    obtain ⟨sentences, hplain, -⟩ := Except.bind_eq_ok.1 h
    refine Except.bind_eq_ok.2 ⟨sentences, hplain, ?_⟩
    simp only [candidates, lines_of_plainPremises hplain] at hs
    split at hs
    · rename_i hcount
      rw [List.mem_singleton.1 hs]
      exact checkConjunction_and hcount
    · cases hs
  | simplification =>
    obtain ⟨premise, hone, -⟩ := Except.bind_eq_ok.1 h
    refine Except.bind_eq_ok.2 ⟨premise, hone, ?_⟩
    obtain rfl := onePremise_eq_ok hone
    obtain ⟨conjuncts, hmem, hconjunct⟩ := List.mem_flatten.1 hs
    obtain ⟨_, hpremise, hconjuncts⟩ := List.mem_filterMap.1 hmem
    obtain rfl := List.mem_singleton.1 hpremise
    simp only [checkSimplification, hconjuncts, require_eq_ok, Bool.or_eq_true,
      List.contains_iff_mem]
    exact .inl hconjunct
  | disjunctiveSyllogism =>
    obtain ⟨sentences, hplain, -⟩ := Except.bind_eq_ok.1 h
    refine Except.bind_eq_ok.2 ⟨sentences, hplain, requireAmong_of_mem ?_ _⟩
    rwa [← lines_of_plainPremises hplain]
  | modusPonens => exact checkPair_of_mem h hs
  | modusTollens => exact checkPair_of_mem h hs
  | hypotheticalSyllogism => exact checkPair_of_mem h hs
  | doubleNegation =>
    obtain ⟨premise, hone, -⟩ := Except.bind_eq_ok.1 h
    refine Except.bind_eq_ok.2 ⟨premise, hone, ?_⟩
    obtain rfl := onePremise_eq_ok hone
    obtain ⟨_, hpremise, hconclusion⟩ := List.mem_flatMap.1 hs
    obtain rfl := List.mem_singleton.1 hpremise
    exact checkDoubleNegation_of_mem hconclusion
  | biconditionalIntroduction => exact checkPair_of_mem h hs
  | biconditionalElimination => exact checkPair_of_mem h hs
  | contradiction =>
    obtain ⟨sentences, htwo, hcheck⟩ := Except.bind_eq_ok.1 h
    obtain ⟨_, hpair, -⟩ := Except.bind_eq_ok.1 hcheck
    -- The check has found the pair, so `⊥` is the one candidate.
    refine Except.bind_eq_ok.2 ⟨sentences, htwo, Except.bind_eq_ok.2 ⟨(), hpair, ?_⟩⟩
    simp only [candidates] at hs
    split at hs
    · exact require_eq_ok.2 (beq_iff_eq.2 (List.mem_singleton.1 hs))
    · cases hs
  | conditionalProof =>
    obtain ⟨⟨assumption, conclusions⟩, hcited, -⟩ := Except.bind_eq_ok.1 h
    refine Except.bind_eq_ok.2 ⟨_, hcited, ?_⟩
    obtain rfl := oneSubproof_eq_ok hcited
    obtain ⟨_, hsubproof, hdischarged⟩ := List.mem_flatMap.1 hs
    obtain rfl := List.mem_singleton.1 hsubproof
    obtain ⟨conclusion, hconclusion, rfl⟩ := List.mem_map.1 hdischarged
    refine Except.bind_eq_ok.2 ⟨(), require_eq_ok.2 (beq_self_eq_true _), require_eq_ok.2 ?_⟩
    exact List.contains_iff_mem.2 (List.mem_reverse.1 hconclusion)
  | indirectProof =>
    obtain ⟨⟨assumption, conclusions⟩, hcited, hcheck⟩ := Except.bind_eq_ok.1 h
    obtain ⟨_, hfalsum, -⟩ := Except.bind_eq_ok.1 hcheck
    refine Except.bind_eq_ok.2 ⟨_, hcited, Except.bind_eq_ok.2 ⟨(), hfalsum, require_eq_ok.2 ?_⟩⟩
    obtain rfl := oneSubproof_eq_ok hcited
    obtain ⟨_, hsubproof, hrefuted⟩ := List.mem_flatMap.1 hs
    obtain rfl := List.mem_singleton.1 (List.mem_filter.1 hsubproof).1
    exact List.contains_iff_mem.2 hrefuted
  | proofByCases => exact checkProofByCases_of_mem h hs
  | addition | principleOfExplosion | excludedMiddle | universalInstantiation
  | existentialGeneralization => cases hs

/-! ## Suggestions -/

theorem nodup_eraseDups {α : Type} [BEq α] [LawfulBEq α] (as : List α) : as.eraseDups.Nodup := by
  cases as with
  | nil => exact .nil
  | cons a as =>
    rw [List.eraseDups_cons, List.nodup_cons, List.mem_eraseDups, List.mem_filter]
    exact ⟨by simp, nodup_eraseDups _⟩
termination_by as.length
decreasing_by exact Nat.lt_succ_of_le (List.length_filter_le _ _)

/-- What is read from texts is grammatical. -/
theorem grammatical_of_read (hread : ∀ premise ∈ premises, ∀ sentence ∈ premise.stated,
    ∃ text, read text = .ok (some sentence)) : ∀ premise ∈ premises, premise.Grammatical := by
  intro premise hpremise
  have hgrammatical : ∀ sentence ∈ premise.stated, Grammatical sentence := by
    intro sentence hsentence
    obtain ⟨text, htext⟩ := hread premise hpremise sentence hsentence
    exact (expressible_of_read htext).grammatical
  cases premise with
  | line sentence => exact hgrammatical sentence (.head _)
  | subproof assumption conclusions =>
    exact ⟨hgrammatical assumption (.head _),
      fun conclusion hmem => hgrammatical conclusion (.tail _ hmem)⟩

/-- Suggested conclusions are licensed. Let all sentences of the premises be read from texts, and
let the rule license some conclusion from these premises. Then every text that it suggests is read
to a conclusion that the rule licenses from them, or is rejected since it is nested too deeply, and
no text is suggested twice. -/
theorem licensed_of_mem_suggestions
    (hread : ∀ premise ∈ premises, ∀ sentence ∈ premise.stated,
      ∃ text, read text = .ok (some sentence))
    (hlicensed : ∃ conclusion, rule.check premises conclusion = .ok ()) :
    (∀ text ∈ rule.suggestions premises,
      (∃ failure, read text = .error failure ∧ failure.cause = .tooDeep) ∨
        ∃ conclusion, read text = .ok (some conclusion) ∧
          rule.check premises conclusion = .ok ()) ∧
      (rule.suggestions premises).Nodup := by
  refine ⟨fun text htext => ?_, nodup_eraseDups _⟩
  obtain ⟨conclusion, hconclusion⟩ := hlicensed
  obtain ⟨s, hs, rfl⟩ := List.mem_map.1 (List.mem_eraseDups.1 htext)
  have hgrammatical := grammatical_of_mem_candidates (grammatical_of_read hread) hs
  rcases read_render_or_tooDeep hgrammatical with hok | herror
  · exact .inr ⟨s, hok, check_of_mem_candidates hconclusion hs⟩
  · exact .inl herror

/-- A disjunction with a repeated disjunct, and a subproof for each case. -/
def coveredCases : List Premise :=
  [.line (.or [.atom "P", .atom "Q", .atom "P"]),
    .subproof (.atom "P") [.atom "R", .not (.atom "Q"), .atom "S"],
    .subproof (.atom "Q") [.atom "S", .atom "R"]]

/-- In both cases `R` and `S` are derived, so either one may be concluded. -/
theorem licensed_of_mem_suggestions_coveredCases :
    proofByCases.suggestions coveredCases = ["S", "R"] ∧
      (∀ text ∈ ["S", "R"],
        (∃ failure, read text = .error failure ∧ failure.cause = .tooDeep) ∨
          ∃ conclusion, read text = .ok (some conclusion) ∧
            proofByCases.check coveredCases conclusion = .ok ()) ∧
      ["S", "R"].Nodup := by
  have hsuggestions : proofByCases.suggestions coveredCases = ["S", "R"] := by decide +kernel
  have hread : ∀ premise ∈ coveredCases, ∀ sentence ∈ premise.stated,
      read sentence.render = .ok (some sentence) := by decide +kernel
  have hlicensed : proofByCases.check coveredCases (.atom "R") = .ok () := by decide +kernel
  refine ⟨hsuggestions, hsuggestions ▸ licensed_of_mem_suggestions ?_ ⟨_, hlicensed⟩⟩
  exact fun premise hpremise sentence hsentence => ⟨_, hread premise hpremise sentence hsentence⟩

end Rule

end NaturalDeduction
