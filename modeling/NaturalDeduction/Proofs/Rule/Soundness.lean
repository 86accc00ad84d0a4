/-
  The rules preserve truth.

  A cited line counts as true when its sentence is, a cited subproof when its
  conclusions are true provided that its assumption is. Under any valuation
  that makes the premises of an accepted claim true, the conclusion is true;
  only the two quantifier rules are left out, since a valuation does not look
  into quantified sentences.
-/

import NaturalDeduction.Proofs.Sentence.Valuation
import NaturalDeduction.Proofs.Success
import NaturalDeduction.Rule.Check

namespace NaturalDeduction

open Sentence

/-- What a premise says under a valuation. -/
def Premise.Holds (v : Valuation) : Premise → Prop
  | line sentence => eval v sentence = true
  | subproof assumption conclusions =>
    eval v assumption = true → ∀ conclusion ∈ conclusions, eval v conclusion = true

namespace Rule

variable {v : Valuation} {rule : Rule} {premises : List Premise} {sentences : List Sentence}
  {conclusion : Sentence}

/-! ## Premises -/

/-- Premises that are accepted as single lines are their sentences. -/
theorem plainPremises_eq_ok (h : plainPremises rule premises = .ok sentences) :
    premises = sentences.map Premise.line := by
  have hall := Except.mapM_eq_ok.1 h
  -- The induction is on the premises paired with the sentences read off them.
  induction hall with
  | nil => rfl
  | @cons premise sentence premises sentences hfirst hrest ih =>
    cases premise with
    | line sentence =>
      cases hfirst
      rw [List.map_cons, ih (Except.mapM_eq_ok.2 hrest)]
    | subproof assumption conclusions => cases hfirst

theorem onePremise_eq_ok {premise : Sentence} (h : onePremise rule premises = .ok premise) :
    premises = [.line premise] := by
  obtain ⟨sentences, hplain, hone⟩ := Except.bind_eq_ok.1 h
  rw [plainPremises_eq_ok hplain]
  split at hone
  · cases hone
    rfl
  · cases hone

theorem twoPremises_eq_ok (h : twoPremises rule premises = .ok sentences) :
    premises = sentences.map .line ∧ sentences.length = 2 := by
  obtain ⟨plain, hplain, htwo⟩ := Except.bind_eq_ok.1 h
  split at htwo
  · cases htwo
    exact ⟨plainPremises_eq_ok hplain, rfl⟩
  · cases htwo

theorem oneSubproof_eq_ok {assumption : Sentence} {conclusions : List Sentence}
    (h : oneSubproof rule premises = .ok (assumption, conclusions)) :
    premises = [.subproof assumption conclusions] := by
  unfold oneSubproof at h
  split at h
  · cases h
  · rename_i assumption' conclusions' rest hsubproofs
    split at h
    · cases h
    · rename_i hlength
      split at h
      · cases h
      · cases h
        -- There is one premise, and it is the subproof that was found.
        obtain ⟨premise, rfl⟩ := List.length_eq_one_iff.1 (not_not.1 hlength)
        cases premise with
        | line sentence => cases hsubproofs
        | subproof assumption conclusions =>
          cases hsubproofs
          rfl

/-! ## Conclusions -/

theorem require_eq_ok {condition : Bool} {violation : Violation} {u : Unit} :
    require condition violation = .ok u ↔ condition = true := by
  unfold require
  split <;> simp_all

theorem mem_of_requireAmong {allowed : List Sentence} {missing : Violation} {u : Unit}
    (h : requireAmong rule conclusion allowed missing = .ok u) : conclusion ∈ allowed := by
  unfold requireAmong at h
  split at h
  · cases h
  · simpa using require_eq_ok.1 h

/-! ### Chosen premises -/

/-- A selection takes one element out of the list. -/
theorem perm_of_mem_selections {α : Type} {as : List α} {a : α} {others : List α}
    (h : (a, others) ∈ selections as) : as.Perm (a :: others) := by
  induction as generalizing a others with
  | nil => cases h
  | cons first rest ih =>
    rw [selections, List.mem_cons, List.mem_map] at h
    rcases h with h | ⟨⟨b, bs⟩, hmem, heq⟩
    · cases h
      exact .refl _
    · cases heq
      exact ((ih hmem).cons first).trans (.swap _ _ _)

theorem mem_of_mem_pairs {α : Type} {as : List α} {a b : α} (h : (a, b) ∈ pairs as) :
    a ∈ as ∧ b ∈ as := by
  obtain ⟨⟨a', others⟩, hselect, hmem⟩ := List.mem_flatMap.1 h
  obtain ⟨b', hb, heq⟩ := List.mem_map.1 hmem
  cases heq
  have hperm := perm_of_mem_selections hselect
  exact ⟨hperm.mem_iff.2 (.head _), hperm.mem_iff.2 (.tail _ hb)⟩

/-- What is left of a disjunction is the disjunction of what is not denied. -/
theorem eq_disjunction_of_remaining? {disjunction : Sentence} {others : List Sentence}
    (h : remaining? disjunction others = some conclusion) :
    ∃ disjuncts denied, disjunction = .or disjuncts ∧ denied? disjuncts others = some denied ∧
      conclusion = Sentence.disjunction
        (disjuncts.filter fun disjunct => !denied.contains disjunct) := by
  obtain ⟨disjuncts, hdisjuncts, hrest⟩ := Option.bind_eq_some_iff.1 h
  obtain ⟨denied, hdenied, hleft⟩ := Option.bind_eq_some_iff.1 hrest
  refine ⟨disjuncts, denied, disjuncts?_eq_some.1 hdisjuncts, hdenied, ?_⟩
  simp only [Option.bind_eq_bind, Option.bind_none, Option.pure_def] at hleft
  split at hleft
  · cases hleft
  · split at hleft
    · cases hleft
    · exact (Option.some.inj hleft).symm

/-! ### Rules that compute their conclusions -/

variable (hall : ∀ sentence ∈ sentences, eval v sentence = true)
include hall

/-- What is computed from pairs of premises comes from two true sentences. -/
theorem exists_of_mem_filterMap_pairs {compute : Sentence × Sentence → Option Sentence}
    (h : conclusion ∈ (pairs sentences).filterMap compute) :
    ∃ first second, eval v first = true ∧ eval v second = true ∧
      compute (first, second) = some conclusion := by
  obtain ⟨⟨first, second⟩, hpair, hfound⟩ := List.mem_filterMap.1 h
  obtain ⟨hfirst, hsecond⟩ := mem_of_mem_pairs hpair
  exact ⟨first, second, hall _ hfirst, hall _ hsecond, hfound⟩

theorem eval_of_mem_modusPonensConclusions (h : conclusion ∈ modusPonensConclusions sentences) :
    eval v conclusion = true := by
  obtain ⟨implication, other, hfirst, hsecond, hfound⟩ := exists_of_mem_filterMap_pairs hall h
  obtain ⟨⟨a, b⟩, himplies, heq⟩ := Option.bind_eq_some_iff.1 hfound
  rw [implication?_eq_some] at himplies
  subst himplies
  simp only [Option.ite_none_right_eq_some, Option.some.injEq] at heq
  obtain ⟨rfl, rfl⟩ := heq
  exact eval_implies.1 hfirst hsecond

theorem eval_of_mem_modusTollensConclusions (h : conclusion ∈ modusTollensConclusions sentences) :
    eval v conclusion = true := by
  obtain ⟨implication, other, hfirst, hsecond, hfound⟩ := exists_of_mem_filterMap_pairs hall h
  obtain ⟨⟨a, b⟩, himplies, heq⟩ := Option.bind_eq_some_iff.1 hfound
  rw [implication?_eq_some] at himplies
  subst himplies
  simp only [Option.ite_none_right_eq_some, Option.some.injEq, negated?_eq_some] at heq
  obtain ⟨rfl, rfl⟩ := heq
  have himplies := eval_implies.1 hfirst
  rw [eval_not] at hsecond ⊢
  -- Were the antecedent true, so would be the consequent, which is denied.
  cases ha : eval v a with
  | false => rfl
  | true => simp [himplies ha] at hsecond

theorem eval_of_mem_hypotheticalSyllogismConclusions
    (h : conclusion ∈ hypotheticalSyllogismConclusions sentences) : eval v conclusion = true := by
  obtain ⟨first, second, hfirst, hsecond, hfound⟩ := exists_of_mem_filterMap_pairs hall h
  obtain ⟨⟨a, b⟩, hone, hrest⟩ := Option.bind_eq_some_iff.1 hfound
  obtain ⟨⟨b', c⟩, htwo, heq⟩ := Option.bind_eq_some_iff.1 hrest
  rw [implication?_eq_some] at hone htwo
  subst hone htwo
  simp only [Option.ite_none_right_eq_some, Option.some.injEq] at heq
  obtain ⟨rfl, rfl⟩ := heq
  exact eval_implies.2 fun ha =>
    eval_implies.1 hsecond (eval_implies.1 hfirst ha)

theorem eval_of_mem_biconditionalIntroductionConclusions
    (h : conclusion ∈ biconditionalIntroductionConclusions sentences) :
    eval v conclusion = true := by
  obtain ⟨forward, backward, hfirst, hsecond, hfound⟩ := exists_of_mem_filterMap_pairs hall h
  obtain ⟨⟨a, b⟩, hone, hrest⟩ := Option.bind_eq_some_iff.1 hfound
  obtain ⟨⟨b', a'⟩, htwo, heq⟩ := Option.bind_eq_some_iff.1 hrest
  rw [implication?_eq_some] at hone htwo
  subst hone htwo
  simp only [Option.ite_none_right_eq_some, Option.some.injEq] at heq
  obtain ⟨⟨rfl, rfl⟩, rfl⟩ := heq
  have hforward := eval_implies.1 hfirst
  have hbackward := eval_implies.1 hsecond
  exact eval_iff.2 (Bool.eq_iff_iff.2 ⟨hforward, hbackward⟩)

theorem eval_of_mem_biconditionalEliminationConclusions
    (h : conclusion ∈ biconditionalEliminationConclusions sentences) :
    eval v conclusion = true := by
  obtain ⟨biconditional, side, hfirst, hside, hfound⟩ := exists_of_mem_filterMap_pairs hall h
  cases biconditional with
  | iff left right =>
    -- Both sides have one value, and the cited side is true.
    have hequal := eval_iff.1 hfirst
    simp only at hfound
    split at hfound
    · rename_i hleft
      cases hfound
      rw [← hequal, hleft]
      exact hside
    · split at hfound
      · rename_i hright
        cases hfound
        rw [hequal, hright]
        exact hside
      · cases hfound
  | _ => cases hfound

/-- What the premises deny is false. -/
theorem eval_of_mem_denied {disjuncts denied : List Sentence}
    (h : denied? disjuncts sentences = some denied) {sentence : Sentence}
    (hmem : sentence ∈ denied) : eval v sentence = false := by
  obtain ⟨premise, hpremise, hdenies⟩ :=
    exists_of_mem_of_forall₂ (Option.mapM_eq_some.1 h) hmem
  obtain ⟨negated, hnegated, hfound⟩ := Option.bind_eq_some_iff.1 hdenies
  simp only [Option.ite_none_right_eq_some, Option.some.injEq] at hfound
  obtain ⟨-, rfl⟩ := hfound
  have hnot := hall premise hpremise
  rw [negated?_eq_some.1 hnegated, eval_not] at hnot
  simpa using hnot

/-- When denied disjuncts are false, one of those left is true. -/
theorem eval_of_mem_disjunctiveSyllogismConclusions
    (h : conclusion ∈ disjunctiveSyllogismConclusions sentences) : eval v conclusion = true := by
  obtain ⟨⟨disjunction, others⟩, hselect, hfound⟩ := List.mem_filterMap.1 h
  have hperm := perm_of_mem_selections hselect
  have hdisjunction := hall _ (hperm.mem_iff.2 (.head _))
  have hothers : ∀ other ∈ others, eval v other = true := fun other hother =>
    hall other (hperm.mem_iff.2 (.tail _ hother))
  obtain ⟨disjuncts, denied, rfl, hdenied, rfl⟩ := eq_disjunction_of_remaining? hfound
  obtain ⟨disjunct, hmem, htrue⟩ := eval_or.1 hdisjunction
  -- The true disjunct is not denied, so it is left.
  refine eval_disjunction.2 ⟨disjunct, List.mem_filter.2 ⟨hmem, ?_⟩, htrue⟩
  by_contra hdenies
  have hfalse := eval_of_mem_denied hothers hdenied (by simpa using hdenies)
  rw [htrue] at hfalse
  cases hfalse

/-- A sentence and its negation are not both true. -/
theorem not_contradicts : contradicts sentences = false := by
  rw [contradicts, List.any_eq_false]
  rintro ⟨sentence, other⟩ hpair hnegated
  obtain ⟨hfirst, hsecond⟩ := mem_of_mem_pairs hpair
  have hother := negated?_eq_some.1 (beq_iff_eq.1 hnegated)
  have hnot := hall _ hsecond
  rw [hother, eval_not, hall _ hfirst] at hnot
  cases hnot

/-- A conjunction of exactly the premises is true. -/
theorem eval_of_checkConjunction {u : Unit} (h : checkConjunction sentences conclusion = .ok u) :
    eval v conclusion = true := by
  unfold checkConjunction at h
  by_cases hfew : sentences.length < 2
  · simp only [hfew, if_true, bind, Except.bind, reduceCtorEq] at h
  simp only [hfew, if_false] at h
  cases hconjuncts : conclusion.conjuncts? with
  | none => simp only [hconjuncts, reduceCtorEq] at h
  | some conjuncts =>
    simp only [hconjuncts] at h
    cases hextra : conjuncts.find? fun conjunct => !sentences.contains conjunct with
    | some extra => simp only [hextra, bind, Except.bind, reduceCtorEq] at h
    | none =>
      rw [conjuncts?_eq_some.1 hconjuncts, eval_and]
      -- No conjunct is missing among the premises.
      intro conjunct hconjunct
      have hmem := List.find?_eq_none.1 hextra conjunct hconjunct
      exact hall conjunct (by simpa using hmem)

omit hall

/-! ### Rules on one premise -/

theorem eval_of_checkSimplification {premise : Sentence} {u : Unit}
    (hpremise : eval v premise = true) (h : checkSimplification premise conclusion = .ok u) :
    eval v conclusion = true := by
  unfold checkSimplification at h
  split at h
  · cases h
  · rename_i conjuncts hconjuncts
    rw [conjuncts?_eq_some.1 hconjuncts, eval_and] at hpremise
    rw [require_eq_ok, Bool.or_eq_true, List.contains_iff_mem] at h
    -- The conclusion is one conjunct, or a conjunction of several.
    rcases h with hmem | hparts
    · exact hpremise conclusion hmem
    · split at hparts
      · rename_i parts hconclusion
        rw [conjuncts?_eq_some.1 hconclusion, eval_and]
        intro part hpart
        have hmem := List.all_eq_true.1 hparts part hpart
        exact hpremise part (by simpa using hmem)
      · cases hparts

theorem eval_of_checkAddition {premise : Sentence} {u : Unit} (hpremise : eval v premise = true)
    (h : checkAddition premise conclusion = .ok u) : eval v conclusion = true := by
  unfold checkAddition at h
  split at h
  · cases h
  · rename_i disjuncts hdisjuncts
    rw [require_eq_ok, List.contains_iff_mem] at h
    rw [disjuncts?_eq_some.1 hdisjuncts, eval_or]
    exact ⟨premise, h, hpremise⟩

theorem eval_of_checkDoubleNegation {premise : Sentence} {u : Unit}
    (hpremise : eval v premise = true) (h : checkDoubleNegation premise conclusion = .ok u) :
    eval v conclusion = true := by
  have hdouble : ∀ {s t : Sentence}, s.negated?.bind negated? = some t → eval v s = eval v t := by
    intro s t hst
    obtain ⟨body, hbody, hinner⟩ := Option.bind_eq_some_iff.1 hst
    rw [negated?_eq_some.1 hbody, negated?_eq_some.1 hinner]
    simp
  rw [checkDoubleNegation, require_eq_ok, Bool.or_eq_true, beq_iff_eq, beq_iff_eq] at h
  rcases h with hadded | hremoved
  · rw [hdouble hadded, hpremise]
  · rw [← hdouble hremoved, hpremise]

theorem eval_of_checkExcludedMiddle {u : Unit} (h : checkExcludedMiddle conclusion = .ok u) :
    eval v conclusion = true := by
  rw [checkExcludedMiddle, require_eq_ok] at h
  split at h
  · rename_i a b hdisjuncts
    rw [Bool.or_eq_true, beq_iff_eq, beq_iff_eq, negated?_eq_some, negated?_eq_some] at h
    rw [disjuncts?_eq_some.1 hdisjuncts, eval_or]
    rcases h with rfl | rfl
    · cases ha : eval v a <;> simp [ha]
    · cases hb : eval v b <;> simp [hb]
  · cases h

/-! ### Rules on subproofs -/

variable {assumption : Sentence} {conclusions : List Sentence}

theorem eval_of_checkConditionalProof {u : Unit}
    (hsubproof : Premise.Holds v (.subproof assumption conclusions))
    (h : checkConditionalProof assumption conclusions conclusion = .ok u) :
    eval v conclusion = true := by
  unfold checkConditionalProof at h
  split at h
  · cases h
  · rename_i antecedent consequent himplies
    obtain ⟨_, hassumed, hderived⟩ := Except.bind_eq_ok.1 h
    rw [require_eq_ok, beq_iff_eq] at hassumed
    rw [require_eq_ok, List.contains_iff_mem] at hderived
    rw [implication?_eq_some.1 himplies, eval_implies, hassumed]
    exact fun ha => hsubproof ha consequent hderived

theorem eval_of_checkIndirectProof {u : Unit}
    (hsubproof : Premise.Holds v (.subproof assumption conclusions))
    (h : checkIndirectProof assumption conclusions conclusion = .ok u) :
    eval v conclusion = true := by
  obtain ⟨_, hfalsum, hrefutes⟩ := Except.bind_eq_ok.1 h
  rw [require_eq_ok, List.contains_iff_mem] at hfalsum hrefutes
  -- The subproof derives a falsehood, so its assumption is false.
  have hfalse : eval v assumption = false := by
    by_contra htrue
    have := hsubproof (by simpa using htrue) .falsum hfalsum
    simp at this
  rw [refutations, List.mem_append, Option.mem_toList, List.mem_singleton] at hrefutes
  -- The conclusion is what the assumption negates, or its negation.
  rcases hrefutes with hnegated | rfl
  · rw [negated?_eq_some.1 hnegated, eval_not] at hfalse
    simpa using hfalse
  · simp [hfalse]

theorem mem_of_mem_lines {sentence : Sentence} (h : sentence ∈ Premise.lines premises) :
    .line sentence ∈ premises := by
  obtain ⟨premise, hmem, hline⟩ := List.mem_filterMap.1 h
  cases premise with
  | line s =>
    cases hline
    exact hmem
  | subproof a cs => cases hline

theorem mem_of_mem_subproofs (h : (assumption, conclusions) ∈ Premise.subproofs premises) :
    .subproof assumption conclusions ∈ premises := by
  obtain ⟨premise, hmem, hsubproof⟩ := List.mem_filterMap.1 h
  cases premise with
  | line s => cases hsubproof
  | subproof a cs =>
    cases hsubproof
    exact hmem

/-- A proof by cases cites one disjunction and subproofs of its disjuncts only, and for each of them
there is one that derives the conclusion. -/
theorem checkProofByCases_eq_ok {u : Unit} : checkProofByCases premises conclusion = .ok u ↔
    Premise.subproofs premises ≠ [] ∧ ∃ cases, Premise.lines premises = [.or cases] ∧
      (∀ subproof ∈ Premise.subproofs premises, subproof.1 ∈ cases) ∧
      ∀ case ∈ cases, ∃ conclusions, (case, conclusions) ∈ Premise.subproofs premises ∧
        conclusion ∈ conclusions := by
  have hstrays : ∀ cases : List Sentence, ((Premise.subproofs premises).find? fun subproof =>
      !cases.contains subproof.1) = none ↔
        ∀ subproof ∈ Premise.subproofs premises, subproof.1 ∈ cases := by
    intro cases
    simp [List.find?_eq_none]
  constructor
  · intro h
    unfold checkProofByCases at h
    by_cases hempty : (Premise.subproofs premises).isEmpty = true
    · simp only [hempty, if_true, bind, Except.bind, reduceCtorEq] at h
    simp only [hempty, Bool.false_eq_true, if_false] at h
    refine ⟨by simpa using hempty, ?_⟩
    cases hlines : Premise.lines premises with
    | nil => simp only [hlines, reduceCtorEq] at h
    | cons disjunction others =>
      cases others with
      | cons => simp only [hlines, reduceCtorEq] at h
      | nil =>
        simp only [hlines] at h
        cases hdisjuncts : disjunction.disjuncts? with
        | none => simp only [hdisjuncts, reduceCtorEq] at h
        | some cases =>
          simp only [hdisjuncts] at h
          cases hstray : (Premise.subproofs premises).find? fun subproof =>
              !cases.contains subproof.1 with
          | some stray => simp only [hstray, bind, Except.bind, reduceCtorEq] at h
          | none =>
            simp only [hstray] at h
            refine ⟨cases, by rw [disjuncts?_eq_some.1 hdisjuncts], (hstrays cases).1 hstray,
              fun case hcase => ?_⟩
            split at h
            · cases h
            -- No case was found open: each has a subproof that derives the conclusion.
            · rename_i hopen
              have hnone := Option.eq_none_iff_forall_ne_some.2 hopen
              have hderived := List.find?_eq_none.1 hnone case hcase
              simp only [Bool.not_eq_true', Bool.not_eq_false, List.any_eq_true,
                Bool.and_eq_true, beq_iff_eq, List.contains_iff_mem] at hderived
              obtain ⟨⟨assumption, conclusions⟩, hmem, rfl, hconclusion⟩ := hderived
              exact ⟨conclusions, hmem, hconclusion⟩
  · rintro ⟨hsome, cases, hlines, hassumed, hderived⟩
    have hempty : (Premise.subproofs premises).isEmpty = false := by simpa using hsome
    simp only [checkProofByCases, hempty, hlines, disjuncts?, (hstrays cases).2 hassumed]
    rw [List.find?_eq_none.2 fun case hcase => ?_]
    · rfl
    · obtain ⟨conclusions, hmem, hconclusion⟩ := hderived case hcase
      simp only [Bool.not_eq_true', Bool.not_eq_false, List.any_eq_true, Bool.and_eq_true,
        beq_iff_eq, List.contains_iff_mem]
      exact ⟨_, hmem, rfl, hconclusion⟩

/-- When every case of a true disjunction leads to the conclusion, the conclusion is true. -/
theorem eval_of_checkProofByCases {u : Unit} (hholds : ∀ premise ∈ premises, premise.Holds v)
    (h : checkProofByCases premises conclusion = .ok u) : eval v conclusion = true := by
  obtain ⟨-, cases, hlines, -, hderived⟩ := checkProofByCases_eq_ok.1 h
  have hdisjunction : .line (.or cases) ∈ premises := mem_of_mem_lines (hlines ▸ .head _)
  obtain ⟨case, hcase, htrue⟩ := eval_or.1 (hholds _ hdisjunction)
  obtain ⟨conclusions, hsubproof, hmem⟩ := hderived case hcase
  exact hholds _ (mem_of_mem_subproofs hsubproof) htrue conclusion hmem

/-! ## All rules -/

section Holds

variable (hholds : ∀ premise ∈ premises, premise.Holds v)
include hholds

theorem eval_of_onePremise {premise : Sentence} (h : onePremise rule premises = .ok premise) :
    eval v premise = true :=
  hholds (.line premise) (onePremise_eq_ok h ▸ .head _)

theorem eval_of_plainPremises (h : plainPremises rule premises = .ok sentences) :
    ∀ sentence ∈ sentences, eval v sentence = true := by
  intro sentence hsentence
  exact hholds (.line sentence) (plainPremises_eq_ok h ▸ List.mem_map_of_mem hsentence)

theorem eval_of_twoPremises (h : twoPremises rule premises = .ok sentences) :
    ∀ sentence ∈ sentences, eval v sentence = true := by
  intro sentence hsentence
  exact hholds (.line sentence) ((twoPremises_eq_ok h).1 ▸ List.mem_map_of_mem hsentence)

theorem holds_of_oneSubproof (h : oneSubproof rule premises = .ok (assumption, conclusions)) :
    Premise.Holds v (.subproof assumption conclusions) :=
  hholds _ (oneSubproof_eq_ok h ▸ .head _)

theorem eval_of_checkPair {computed : List Sentence → List Sentence} {wanted : WantedPair}
    {u : Unit}
    (hcomputed : ∀ {sentences}, (∀ sentence ∈ sentences, eval v sentence = true) →
      conclusion ∈ computed sentences → eval v conclusion = true)
    (h : checkPair rule premises conclusion computed wanted = .ok u) :
    eval v conclusion = true := by
  obtain ⟨sentences, htwo, hamong⟩ := Except.bind_eq_ok.1 h
  exact hcomputed (eval_of_twoPremises hholds htwo) (mem_of_requireAmong hamong)

end Holds

/-- The rules that look into quantified sentences. -/
def isQuantifierRule : Rule → Bool
  | universalInstantiation | existentialGeneralization => true
  | _ => false

/-- A conclusion that a rule licenses is true when its premises hold. -/
theorem eval_of_check {u : Unit} (hrule : rule.isQuantifierRule = false)
    (hholds : ∀ premise ∈ premises, premise.Holds v)
    (h : rule.check premises conclusion = .ok u) : eval v conclusion = true := by
  cases rule with
  | reiteration =>
    obtain ⟨premise, hpremise, hsame⟩ := Except.bind_eq_ok.1 h
    rw [require_eq_ok, beq_iff_eq] at hsame
    exact hsame ▸ eval_of_onePremise hholds hpremise
  | conjunction =>
    obtain ⟨sentences, hsentences, hcheck⟩ := Except.bind_eq_ok.1 h
    exact eval_of_checkConjunction (eval_of_plainPremises hholds hsentences) hcheck
  | simplification =>
    obtain ⟨premise, hpremise, hcheck⟩ := Except.bind_eq_ok.1 h
    exact eval_of_checkSimplification (eval_of_onePremise hholds hpremise) hcheck
  | addition =>
    obtain ⟨premise, hpremise, hcheck⟩ := Except.bind_eq_ok.1 h
    exact eval_of_checkAddition (eval_of_onePremise hholds hpremise) hcheck
  | disjunctiveSyllogism =>
    obtain ⟨sentences, hsentences, hamong⟩ := Except.bind_eq_ok.1 h
    exact eval_of_mem_disjunctiveSyllogismConclusions (eval_of_plainPremises hholds hsentences)
      (mem_of_requireAmong hamong)
  | modusPonens => exact eval_of_checkPair hholds eval_of_mem_modusPonensConclusions h
  | modusTollens => exact eval_of_checkPair hholds eval_of_mem_modusTollensConclusions h
  | hypotheticalSyllogism =>
    exact eval_of_checkPair hholds eval_of_mem_hypotheticalSyllogismConclusions h
  | doubleNegation =>
    obtain ⟨premise, hpremise, hcheck⟩ := Except.bind_eq_ok.1 h
    exact eval_of_checkDoubleNegation (eval_of_onePremise hholds hpremise) hcheck
  | biconditionalIntroduction =>
    exact eval_of_checkPair hholds eval_of_mem_biconditionalIntroductionConclusions h
  | biconditionalElimination =>
    exact eval_of_checkPair hholds eval_of_mem_biconditionalEliminationConclusions h
  | contradiction =>
    obtain ⟨sentences, htwo, hcheck⟩ := Except.bind_eq_ok.1 h
    obtain ⟨_, hpair, -⟩ := Except.bind_eq_ok.1 hcheck
    rw [require_eq_ok] at hpair
    -- The premises are never true together.
    have hnot := not_contradicts (eval_of_twoPremises hholds htwo)
    rw [hpair] at hnot
    cases hnot
  | principleOfExplosion =>
    obtain ⟨premise, hpremise, hcheck⟩ := Except.bind_eq_ok.1 h
    rw [require_eq_ok, beq_iff_eq] at hcheck
    have hfalsum := eval_of_onePremise hholds hpremise
    rw [hcheck, eval_falsum] at hfalsum
    cases hfalsum
  | excludedMiddle =>
    obtain ⟨sentences, -, hcheck⟩ := Except.bind_eq_ok.1 h
    split at hcheck
    · exact eval_of_checkExcludedMiddle hcheck
    · cases hcheck
  | conditionalProof =>
    obtain ⟨⟨assumption, conclusions⟩, hcited, hcheck⟩ := Except.bind_eq_ok.1 h
    exact eval_of_checkConditionalProof (holds_of_oneSubproof hholds hcited) hcheck
  | indirectProof =>
    obtain ⟨⟨assumption, conclusions⟩, hcited, hcheck⟩ := Except.bind_eq_ok.1 h
    exact eval_of_checkIndirectProof (holds_of_oneSubproof hholds hcited) hcheck
  | proofByCases => exact eval_of_checkProofByCases hholds h
  | universalInstantiation => cases hrule
  | existentialGeneralization => cases hrule

end Rule

end NaturalDeduction
