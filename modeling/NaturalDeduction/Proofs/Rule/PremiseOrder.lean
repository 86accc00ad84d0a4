/-
  The order of premises.

  What a rule licenses does not depend on the order in which its premises are
  cited. A rule that cites at most one premise cannot tell; the others choose
  premises by their places, so that the same choices are there in any order, or
  ask only which sentences and subproofs are cited at all. The violation that is
  found first may depend on the order.
-/

import Mathlib.Data.List.Perm.Basic
import NaturalDeduction.Proofs.Rule.Licence

namespace NaturalDeduction.Rule

open Sentence

variable {α : Type} {rule : Rule} {premises others : List Premise}
  {sentences rearranged : List Sentence} {conclusion : Sentence}

/-! ## Choices from a rearranged list -/

theorem exists_mem_selections {as : List α} {a : α} (h : a ∈ as) :
    ∃ others, (a, others) ∈ selections as := by
  induction as with
  | nil => cases h
  | cons first as ih =>
    rcases List.mem_cons.1 h with rfl | h
    · exact ⟨as, .head _⟩
    · obtain ⟨others, hselect⟩ := ih h
      exact ⟨first :: others, .tail _ (List.mem_map.2 ⟨_, hselect, rfl⟩)⟩

/-- What can be selected from a list can be from the rearranged one, and leaves the same others. -/
theorem exists_mem_selections_of_perm {as bs : List α} {a : α} {others : List α}
    (hperm : as.Perm bs) (h : (a, others) ∈ selections as) :
    ∃ others', (a, others') ∈ selections bs ∧ others.Perm others' := by
  have hselected := perm_of_mem_selections h
  have hmem : a ∈ bs := hperm.mem_iff.1 (hselected.mem_iff.2 (.head _))
  obtain ⟨others', hselect⟩ := exists_mem_selections hmem
  have hcons : (a :: others).Perm (a :: others') :=
    hselected.symm.trans (hperm.trans (perm_of_mem_selections hselect))
  exact ⟨others', hselect, hcons.cons_inv⟩

theorem mem_pairs_of_perm {as bs : List α} {pair : α × α} (hperm : as.Perm bs)
    (h : pair ∈ pairs as) : pair ∈ pairs bs := by
  obtain ⟨⟨a, others⟩, hselect, hpair⟩ := List.mem_flatMap.1 h
  obtain ⟨others', hselect', hothers⟩ := exists_mem_selections_of_perm hperm hselect
  exact List.mem_flatMap.2 ⟨_, hselect', (hothers.map _).mem_iff.1 hpair⟩

/-- What is computed from some pair is computed from the same pair of the rearranged premises. -/
theorem mem_filterMap_pairs_of_perm {compute : Sentence × Sentence → Option Sentence}
    (hperm : sentences.Perm rearranged) (h : conclusion ∈ (pairs sentences).filterMap compute) :
    conclusion ∈ (pairs rearranged).filterMap compute := by
  obtain ⟨pair, hpair, hfound⟩ := List.mem_filterMap.1 h
  exact List.mem_filterMap.2 ⟨pair, mem_pairs_of_perm hperm hpair, hfound⟩

theorem contradicts_of_perm (hperm : sentences.Perm rearranged)
    (h : contradicts sentences = true) : contradicts rearranged = true := by
  obtain ⟨pair, hpair, hnegated⟩ := List.any_eq_true.1 h
  exact List.any_eq_true.2 ⟨pair, mem_pairs_of_perm hperm hpair, hnegated⟩

/-- The rearranged premises deny the same disjuncts. -/
theorem exists_denied_of_perm {disjuncts denied : List Sentence}
    (hperm : sentences.Perm rearranged) (h : denied? disjuncts sentences = some denied) :
    ∃ denied', denied? disjuncts rearranged = some denied' ∧ denied'.Perm denied := by
  obtain ⟨denied', hdenied, hsame⟩ :=
    List.perm_comp_forall₂ hperm.symm (Option.mapM_eq_some.1 h)
  exact ⟨denied', Option.mapM_eq_some.2 hdenied, hsame⟩

/-- What is left of a disjunction depends only on which disjuncts are denied. -/
theorem remaining?_of_perm {disjunction : Sentence} (hperm : sentences.Perm rearranged)
    (h : remaining? disjunction sentences = some conclusion) :
    remaining? disjunction rearranged = some conclusion := by
  obtain ⟨disjuncts, hdisjuncts, hrest⟩ := Option.bind_eq_some_iff.1 h
  obtain ⟨denied, hdenied, hleft⟩ := Option.bind_eq_some_iff.1 hrest
  obtain ⟨denied', hdenied', hsame⟩ := exists_denied_of_perm hperm hdenied
  have hempty : denied'.isEmpty = denied.isEmpty := hsame.isEmpty_eq
  have hcontains : ∀ s, denied'.contains s = denied.contains s := fun s => by
    rw [Bool.eq_iff_iff, List.contains_iff_mem, List.contains_iff_mem, hsame.mem_iff]
  refine Option.bind_eq_some_iff.2 ⟨disjuncts, hdisjuncts, ?_⟩
  refine Option.bind_eq_some_iff.2 ⟨denied', hdenied', ?_⟩
  simpa only [hempty, hcontains] using hleft

theorem mem_disjunctiveSyllogismConclusions_of_perm (hperm : sentences.Perm rearranged)
    (h : conclusion ∈ disjunctiveSyllogismConclusions sentences) :
    conclusion ∈ disjunctiveSyllogismConclusions rearranged := by
  obtain ⟨⟨disjunction, rest⟩, hselect, hleft⟩ := List.mem_filterMap.1 h
  obtain ⟨rest', hselect', hrest⟩ := exists_mem_selections_of_perm hperm hselect
  exact List.mem_filterMap.2 ⟨_, hselect', remaining?_of_perm hrest hleft⟩

/-! ## Rearranged premises -/

theorem plainPremises_map_line (rule : Rule) (sentences : List Sentence) :
    plainPremises rule (sentences.map .line) = .ok sentences :=
  Except.mapM_eq_ok.2 (List.forall₂_map_left_iff.2 (List.forall₂_same.2 fun _ _ => rfl))

/-- Single lines stay single lines. -/
theorem exists_plainPremises_of_perm (hperm : premises.Perm others)
    (h : plainPremises rule premises = .ok sentences) :
    ∃ rearranged, plainPremises rule others = .ok rearranged ∧ sentences.Perm rearranged := by
  obtain rfl := plainPremises_eq_ok h
  have hmap := congrFun (congrFun (List.eq_map_comp_perm Premise.line) others) sentences
  obtain ⟨rearranged, rfl, hsame⟩ := hmap.mpr hperm.symm
  exact ⟨rearranged, plainPremises_map_line rule rearranged, hsame.symm⟩

theorem exists_twoPremises_of_perm (hperm : premises.Perm others)
    (h : twoPremises rule premises = .ok sentences) :
    ∃ rearranged, twoPremises rule others = .ok rearranged ∧ sentences.Perm rearranged := by
  obtain ⟨plain, hplain, htwo⟩ := Except.bind_eq_ok.1 h
  obtain ⟨rearranged, hrearranged, hsame⟩ := exists_plainPremises_of_perm hperm hplain
  split at htwo
  · cases htwo
    match rearranged, hsame.length_eq with
    | [first, second], _ => exact ⟨_, Except.bind_eq_ok.2 ⟨_, hrearranged, rfl⟩, hsame⟩
  · cases htwo

/-- A single premise is the only one in any order. -/
theorem eq_of_perm_singleton {premise : Premise} (hperm : premises.Perm others)
    (h : premises = [premise]) : others = premises :=
  h ▸ List.perm_singleton.1 (h ▸ hperm).symm

/-! ## Checks that look at several premises -/

/-- A conjunction has at least two premises, all of its conjuncts are among them, and none is
missing. -/
theorem checkConjunction_eq_ok {u : Unit} : checkConjunction sentences conclusion = .ok u ↔
    2 ≤ sentences.length ∧ ∃ conjuncts, conclusion = .and conjuncts ∧
      (∀ conjunct ∈ conjuncts, conjunct ∈ sentences) ∧
      ∀ sentence ∈ sentences, sentence ∈ conjuncts := by
  have hextra : ∀ conjuncts : List Sentence,
      (conjuncts.find? fun conjunct => !sentences.contains conjunct) = none ↔
        ∀ conjunct ∈ conjuncts, conjunct ∈ sentences := by
    simp [List.find?_eq_none]
  have hunused : ∀ conjuncts : List Sentence,
      (sentences.find? fun sentence => !conjuncts.contains sentence) = none ↔
        ∀ sentence ∈ sentences, sentence ∈ conjuncts := by
    simp [List.find?_eq_none]
  unfold checkConjunction
  by_cases hfew : sentences.length < 2
  · simp only [hfew, if_true, bind, Except.bind, reduceCtorEq, false_iff]
    exact fun h => absurd h.1 (Nat.not_le.2 hfew)
  simp only [hfew, if_false]
  cases hconjuncts : conclusion.conjuncts? with
  | none =>
    simp only [reduceCtorEq, false_iff]
    rintro ⟨-, conjuncts, rfl, -⟩
    cases hconjuncts
  | some conjuncts =>
    obtain rfl := conjuncts?_eq_some.1 hconjuncts
    simp only [Sentence.and.injEq, exists_eq_left', Nat.not_lt.1 hfew, true_and]
    rw [← hextra, ← hunused]
    cases conjuncts.find? fun conjunct => !sentences.contains conjunct with
    | some extra => simp [bind, Except.bind]
    | none =>
      cases sentences.find? fun sentence => !conjuncts.contains sentence with
      | some unused => simp
      | none => simp [pure, Except.pure]

theorem checkConjunction_of_perm {u : Unit} (hperm : sentences.Perm rearranged)
    (h : checkConjunction sentences conclusion = .ok u) :
    checkConjunction rearranged conclusion = .ok u := by
  obtain ⟨hcount, conjuncts, rfl, hextra, hunused⟩ := checkConjunction_eq_ok.1 h
  exact checkConjunction_eq_ok.2 ⟨hperm.length_eq ▸ hcount, conjuncts, rfl,
    fun conjunct hconjunct => hperm.mem_iff.1 (hextra conjunct hconjunct),
    fun sentence hsentence => hunused sentence (hperm.mem_iff.2 hsentence)⟩

/-- A conclusion among those that pairs of premises allow is among them in any order. -/
theorem checkPair_of_perm {conclusions : List Sentence → List Sentence} {wanted : WantedPair}
    {u : Unit} (hperm : premises.Perm others)
    (hconclusions : ∀ {sentences rearranged : List Sentence}, sentences.Perm rearranged →
      conclusion ∈ conclusions sentences → conclusion ∈ conclusions rearranged)
    (h : checkPair rule premises conclusion conclusions wanted = .ok u) :
    checkPair rule others conclusion conclusions wanted = .ok u := by
  obtain ⟨sentences, htwo, hamong⟩ := Except.bind_eq_ok.1 h
  obtain ⟨rearranged, htwo', hsame⟩ := exists_twoPremises_of_perm hperm htwo
  exact Except.bind_eq_ok.2 ⟨rearranged, htwo',
    requireAmong_of_mem (hconclusions hsame (mem_of_requireAmong hamong)) _⟩

theorem checkProofByCases_of_perm {u : Unit} (hperm : premises.Perm others)
    (h : checkProofByCases premises conclusion = .ok u) :
    checkProofByCases others conclusion = .ok u := by
  obtain ⟨hsome, cases, hlines, hassumed, hderived⟩ := checkProofByCases_eq_ok.1 h
  have hsubproofs : (Premise.subproofs premises).Perm (Premise.subproofs others) :=
    hperm.filterMap _
  have hdisjunction : (Premise.lines premises).Perm (Premise.lines others) := hperm.filterMap _
  rw [hlines] at hdisjunction
  refine checkProofByCases_eq_ok.2 ⟨?_, cases, List.perm_singleton.1 hdisjunction.symm, ?_, ?_⟩
  · exact fun hnone => hsome (List.perm_nil.1 (hnone ▸ hsubproofs))
  · exact fun subproof hmem => hassumed subproof (hsubproofs.mem_iff.2 hmem)
  · intro case hcase
    obtain ⟨conclusions, hmem, hconclusion⟩ := hderived case hcase
    exact ⟨conclusions, hsubproofs.mem_iff.1 hmem, hconclusion⟩

/-! ## All rules -/

theorem check_of_perm {u : Unit} (hperm : premises.Perm others)
    (h : rule.check premises conclusion = .ok u) : rule.check others conclusion = .ok u := by
  cases rule with
  | reiteration | simplification | addition | doubleNegation | principleOfExplosion
  | universalInstantiation | existentialGeneralization =>
    obtain ⟨premise, hone, -⟩ := Except.bind_eq_ok.1 h
    rwa [eq_of_perm_singleton hperm (onePremise_eq_ok hone)]
  | conditionalProof | indirectProof =>
    obtain ⟨⟨assumption, conclusions⟩, hone, -⟩ := Except.bind_eq_ok.1 h
    rwa [eq_of_perm_singleton hperm (oneSubproof_eq_ok hone)]
  | excludedMiddle =>
    obtain ⟨sentences, hplain, hcheck⟩ := Except.bind_eq_ok.1 h
    split at hcheck
    · obtain rfl := plainPremises_eq_ok hplain
      rwa [List.nil_perm.1 hperm]
    · cases hcheck
  | conjunction =>
    obtain ⟨sentences, hplain, hcheck⟩ := Except.bind_eq_ok.1 h
    obtain ⟨rearranged, hplain', hsame⟩ := exists_plainPremises_of_perm hperm hplain
    exact Except.bind_eq_ok.2 ⟨rearranged, hplain', checkConjunction_of_perm hsame hcheck⟩
  | disjunctiveSyllogism =>
    obtain ⟨sentences, hplain, hamong⟩ := Except.bind_eq_ok.1 h
    obtain ⟨rearranged, hplain', hsame⟩ := exists_plainPremises_of_perm hperm hplain
    refine Except.bind_eq_ok.2 ⟨rearranged, hplain', requireAmong_of_mem ?_ _⟩
    exact mem_disjunctiveSyllogismConclusions_of_perm hsame (mem_of_requireAmong hamong)
  | modusPonens | modusTollens | hypotheticalSyllogism | biconditionalIntroduction
  | biconditionalElimination =>
    exact checkPair_of_perm hperm (fun hsame => mem_filterMap_pairs_of_perm hsame) h
  | contradiction =>
    obtain ⟨sentences, htwo, hcheck⟩ := Except.bind_eq_ok.1 h
    obtain ⟨rearranged, htwo', hsame⟩ := exists_twoPremises_of_perm hperm htwo
    obtain ⟨_, hpair, hfalsum⟩ := Except.bind_eq_ok.1 hcheck
    have hpair' := contradicts_of_perm hsame (require_eq_ok.1 hpair)
    exact Except.bind_eq_ok.2 ⟨rearranged, htwo',
      Except.bind_eq_ok.2 ⟨(), require_eq_ok.2 hpair', hfalsum⟩⟩
  | proofByCases => exact checkProofByCases_of_perm hperm h

/-- Rules do not depend on the order of the premises: of two lists of premises that differ only in
their order, a rule licenses a conclusion from both or from neither. -/
theorem check_iff_of_perm (rule : Rule) (conclusion : Sentence) {premises others : List Premise}
    (hperm : premises.Perm others) :
    rule.check premises conclusion = .ok () ↔ rule.check others conclusion = .ok () :=
  ⟨check_of_perm hperm, check_of_perm hperm.symm⟩

/-- A disjunction among the subproofs for its cases, one of which is cited twice. -/
def scatteredCases : List Premise :=
  [.subproof (.atom "P") [.atom "R"], .line (.or [.atom "P", .atom "Q"]),
    .subproof (.atom "Q") [.atom "S", .atom "R"], .subproof (.atom "P") [.atom "R"]]

/-- The same premises with the disjunction in front, as a proof by cases is usually written. -/
def gatheredCases : List Premise :=
  [.line (.or [.atom "P", .atom "Q"]), .subproof (.atom "P") [.atom "R"],
    .subproof (.atom "P") [.atom "R"], .subproof (.atom "Q") [.atom "S", .atom "R"]]

theorem check_iff_of_perm_scatteredCases :
    scatteredCases.Perm gatheredCases ∧
      proofByCases.check scatteredCases (.atom "R") = .ok () ∧
      proofByCases.check gatheredCases (.atom "R") = .ok () := by
  have hperm : scatteredCases.Perm gatheredCases := by decide +kernel
  have hscattered : proofByCases.check scatteredCases (.atom "R") = .ok () := by decide +kernel
  exact ⟨hperm, hscattered, (check_iff_of_perm _ _ hperm).1 hscattered⟩

end NaturalDeduction.Rule
