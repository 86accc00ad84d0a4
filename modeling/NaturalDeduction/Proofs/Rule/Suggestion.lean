/-
  What a rule suggests.

  A rule builds its suggestions from the sentences of its premises, so they are
  grammatical where these are. The text of a grammatical sentence holds a name
  or a connective, so a suggestion is never blank.
-/

import NaturalDeduction.Proof.Edit
import NaturalDeduction.Proofs.Rule.Soundness
import NaturalDeduction.Proofs.Sentence.Reading

namespace NaturalDeduction

/-! ## Texts that are not blank -/

theorem Text.isBlankText_append (first more : String) :
    isBlankText (first ++ more) = (isBlankText first && isBlankText more) := by
  simp [isBlankText]

namespace Sentence

theorem not_isBlankText_of_isName {name : String} (h : isName name = true) :
    Text.isBlankText name = false := by
  obtain ⟨c, cs, hname, hc, -⟩ := Token.isName_iff.1 h
  simp [Text.isBlankText, hname, Token.isBlank_eq_false_of_startsWord hc]

/-- A chain holds its connective, since it has more than one operand. -/
theorem not_isBlankText_intercalate {separator : String} {texts : List String}
    (hseparator : Text.isBlankText separator = false) (hcount : 2 ≤ texts.length) :
    Text.isBlankText (separator.intercalate texts) = false := by
  match texts, hcount with
  | first :: second :: others, _ =>
    simp [String.intercalate_cons_cons, Text.isBlankText_append, hseparator]

theorem not_isBlankText_render {s : Sentence} (hs : Grammatical s) :
    Text.isBlankText s.render = false := by
  cases hs with
  | falsum | verum => decide
  | predicate hname => simp [render, Text.isBlankText_append, not_isBlankText_of_isName hname]
  | and hcount | or hcount =>
    exact not_isBlankText_intercalate (by decide) (by simpa [renderOperands_eq_map] using hcount)
  | not | implies | iff | forAll | thereExists =>
    simp only [render, Text.isBlankText_append]
    simp [show Text.isBlankText "¬" = false by decide,
      show Text.isBlankText " → " = false by decide,
      show Text.isBlankText " ↔ " = false by decide, show Text.isBlankText "∀" = false by decide,
      show Text.isBlankText "∃" = false by decide]

end Sentence

/-! ## Sentences built from grammatical ones -/

/-- What a premise states is grammatical. -/
def Premise.Grammatical : Premise → Prop
  | .line sentence => sentence.Grammatical
  | .subproof assumption conclusions =>
    assumption.Grammatical ∧ ∀ conclusion ∈ conclusions, conclusion.Grammatical

namespace Rule

open Sentence (Grammatical)

variable {rule : Rule} {sentences : List Sentence} {s t : Sentence}

theorem grammatical_of_negated? (hs : Grammatical s) (h : s.negated? = some t) :
    Grammatical t := by
  rw [Sentence.negated?_eq_some.1 h] at hs
  cases hs
  assumption

theorem grammatical_of_implication? {a b : Sentence} (hs : Grammatical s)
    (h : s.implication? = some (a, b)) : Grammatical a ∧ Grammatical b := by
  rw [Sentence.implication?_eq_some.1 h] at hs
  cases hs
  exact ⟨‹_›, ‹_›⟩

theorem grammatical_disjunction (h : ∀ s ∈ sentences, Grammatical s) (hne : sentences ≠ []) :
    Grammatical (Sentence.disjunction sentences) := by
  match sentences, hne with
  | [s], _ => exact h s (.head _)
  | _ :: _ :: _, _ => exact .or (by simp) h

section Lines

variable (hall : ∀ sentence ∈ sentences, Grammatical sentence)

include hall

/-- What is computed from pairs of grammatical sentences is grammatical if each result is. -/
theorem grammatical_of_mem_filterMap_pairs {compute : Sentence × Sentence → Option Sentence}
    (hcompute : ∀ {first second}, Grammatical first → Grammatical second →
      compute (first, second) = some s → Grammatical s)
    (h : s ∈ (pairs sentences).filterMap compute) : Grammatical s := by
  obtain ⟨⟨first, second⟩, hpair, hfound⟩ := List.mem_filterMap.1 h
  obtain ⟨hfirst, hsecond⟩ := mem_of_mem_pairs hpair
  exact hcompute (hall _ hfirst) (hall _ hsecond) hfound

theorem grammatical_of_mem_simplification
    (h : s ∈ (sentences.filterMap Sentence.conjuncts?).flatten) : Grammatical s := by
  obtain ⟨operands, hoperands, hs⟩ := List.mem_flatten.1 h
  obtain ⟨sentence, hsentence, hconjuncts⟩ := List.mem_filterMap.1 hoperands
  have hgrammatical := hall sentence hsentence
  rw [Sentence.conjuncts?_eq_some.1 hconjuncts] at hgrammatical
  cases hgrammatical with
  | and _ hoperand => exact hoperand s hs

theorem grammatical_of_mem_modusPonensConclusions (h : s ∈ modusPonensConclusions sentences) :
    Grammatical s := by
  refine grammatical_of_mem_filterMap_pairs hall (fun hfirst _ hfound => ?_) h
  obtain ⟨⟨a, b⟩, himplies, heq⟩ := Option.bind_eq_some_iff.1 hfound
  simp only [Option.ite_none_right_eq_some, Option.some.injEq] at heq
  obtain ⟨-, rfl⟩ := heq
  exact (grammatical_of_implication? hfirst himplies).2

theorem grammatical_of_mem_modusTollensConclusions (h : s ∈ modusTollensConclusions sentences) :
    Grammatical s := by
  refine grammatical_of_mem_filterMap_pairs hall (fun hfirst _ hfound => ?_) h
  obtain ⟨⟨a, b⟩, himplies, heq⟩ := Option.bind_eq_some_iff.1 hfound
  simp only [Option.ite_none_right_eq_some, Option.some.injEq] at heq
  obtain ⟨-, rfl⟩ := heq
  exact .not (grammatical_of_implication? hfirst himplies).1

theorem grammatical_of_mem_hypotheticalSyllogismConclusions
    (h : s ∈ hypotheticalSyllogismConclusions sentences) : Grammatical s := by
  refine grammatical_of_mem_filterMap_pairs hall (fun hfirst hsecond hfound => ?_) h
  obtain ⟨⟨a, b⟩, hone, hrest⟩ := Option.bind_eq_some_iff.1 hfound
  obtain ⟨⟨b', c⟩, htwo, heq⟩ := Option.bind_eq_some_iff.1 hrest
  simp only [Option.ite_none_right_eq_some, Option.some.injEq] at heq
  obtain ⟨-, rfl⟩ := heq
  exact .implies (grammatical_of_implication? hfirst hone).1
    (grammatical_of_implication? hsecond htwo).2

theorem grammatical_of_mem_biconditionalIntroductionConclusions
    (h : s ∈ biconditionalIntroductionConclusions sentences) : Grammatical s := by
  refine grammatical_of_mem_filterMap_pairs hall (fun hfirst _ hfound => ?_) h
  obtain ⟨⟨a, b⟩, hone, hrest⟩ := Option.bind_eq_some_iff.1 hfound
  obtain ⟨⟨_, _⟩, -, heq⟩ := Option.bind_eq_some_iff.1 hrest
  simp only [Option.ite_none_right_eq_some, Option.some.injEq] at heq
  obtain ⟨-, rfl⟩ := heq
  obtain ⟨ha, hb⟩ := grammatical_of_implication? hfirst hone
  exact .iff ha hb

theorem grammatical_of_mem_biconditionalEliminationConclusions
    (h : s ∈ biconditionalEliminationConclusions sentences) : Grammatical s := by
  refine grammatical_of_mem_filterMap_pairs hall (fun hfirst _ hfound => ?_) h
  cases hfirst with
  | iff hleft hright =>
    dsimp only at hfound
    split at hfound
    · cases hfound
      exact hright
    · split at hfound <;> cases hfound
      exact hleft
  | _ => cases hfound

theorem grammatical_of_mem_disjunctiveSyllogismConclusions
    (h : s ∈ disjunctiveSyllogismConclusions sentences) : Grammatical s := by
  obtain ⟨⟨disjunction, others⟩, hselect, hfound⟩ := List.mem_filterMap.1 h
  have hdisjunction := hall _ ((perm_of_mem_selections hselect).mem_iff.2 (.head _))
  obtain ⟨disjuncts, hdisjuncts, hrest⟩ := Option.bind_eq_some_iff.1 hfound
  obtain ⟨eliminated, -, hleft⟩ := Option.bind_eq_some_iff.1 hrest
  rw [Sentence.disjuncts?_eq_some.1 hdisjuncts] at hdisjunction
  simp only [Option.bind_eq_bind, Option.bind_none, Option.pure_def] at hleft
  -- Some disjunct is left, and those that are left were disjuncts.
  split at hleft
  · cases hleft
  · split at hleft
    · cases hleft
    · rename_i hsome
      cases hleft
      cases hdisjunction with
      | or _ hdisjunct =>
        refine grammatical_disjunction (fun a ha => hdisjunct a (List.mem_filter.1 ha).1) ?_
        simpa using hsome

theorem grammatical_of_mem_doubleNegation
    (h : s ∈ sentences.flatMap doubleNegationConclusions) : Grammatical s := by
  obtain ⟨sentence, hsentence, hs⟩ := List.mem_flatMap.1 h
  have hgrammatical := hall sentence hsentence
  rcases List.mem_append.1 hs with hinner | houter
  · obtain ⟨negated, hnegated, hinner⟩ :=
      Option.bind_eq_some_iff.1 (Option.mem_toList.1 hinner)
    exact grammatical_of_negated? (grammatical_of_negated? hgrammatical hnegated) hinner
  · rw [List.mem_singleton.1 houter]
    exact .not (.not hgrammatical)

end Lines

section Subproofs

variable {subproofs : List (Sentence × List Sentence)}
  (hall : ∀ subproof ∈ subproofs, Grammatical subproof.1 ∧ ∀ s ∈ subproof.2, Grammatical s)

include hall

theorem grammatical_of_mem_discharges (h : s ∈ subproofs.flatMap discharges) : Grammatical s := by
  obtain ⟨⟨assumption, conclusions⟩, hsubproof, hs⟩ := List.mem_flatMap.1 h
  obtain ⟨hassumption, hconclusions⟩ := hall _ hsubproof
  obtain ⟨conclusion, hconclusion, rfl⟩ := List.mem_map.1 hs
  exact .implies hassumption (hconclusions conclusion (List.mem_reverse.1 hconclusion))

theorem grammatical_of_mem_refutations
    (h : s ∈ subproofs.flatMap fun (assumption, _) => refutations assumption) :
    Grammatical s := by
  obtain ⟨⟨assumption, _⟩, hsubproof, hs⟩ := List.mem_flatMap.1 h
  have hassumption := (hall _ hsubproof).1
  rcases List.mem_append.1 hs with hnegated | hnot
  · exact grammatical_of_negated? hassumption (Option.mem_toList.1 hnegated)
  · rw [List.mem_singleton.1 hnot]
    exact .not hassumption

theorem grammatical_of_mem_commonConclusions (h : s ∈ commonConclusions subproofs) :
    Grammatical s := by
  cases subproofs with
  | nil => cases h
  | cons first rest =>
    have hs := (List.mem_filter.1 h).1
    exact (hall first (.head _)).2 s (List.mem_reverse.1 hs)

end Subproofs

/-! ## Suggestions -/

variable {premises : List Premise}

theorem grammatical_of_mem_candidates (hpremises : ∀ premise ∈ premises, premise.Grammatical)
    (h : s ∈ rule.candidates premises) : Grammatical s := by
  have hlines : ∀ sentence ∈ Premise.lines premises, Grammatical sentence :=
    fun sentence hsentence => hpremises _ (mem_of_mem_lines hsentence)
  have hsubproofs : ∀ subproof ∈ Premise.subproofs premises,
      Grammatical subproof.1 ∧ ∀ s ∈ subproof.2, Grammatical s :=
    fun _ hsubproof => hpremises _ (mem_of_mem_subproofs hsubproof)
  cases rule with
  | reiteration => exact hlines s h
  | conjunction =>
    simp only [candidates] at h
    split at h
    · rename_i hcount
      rw [List.mem_singleton.1 h]
      exact .and hcount hlines
    · cases h
  | simplification => exact grammatical_of_mem_simplification hlines h
  | disjunctiveSyllogism => exact grammatical_of_mem_disjunctiveSyllogismConclusions hlines h
  | modusPonens => exact grammatical_of_mem_modusPonensConclusions hlines h
  | modusTollens => exact grammatical_of_mem_modusTollensConclusions hlines h
  | hypotheticalSyllogism => exact grammatical_of_mem_hypotheticalSyllogismConclusions hlines h
  | doubleNegation => exact grammatical_of_mem_doubleNegation hlines h
  | biconditionalIntroduction =>
    exact grammatical_of_mem_biconditionalIntroductionConclusions hlines h
  | biconditionalElimination =>
    exact grammatical_of_mem_biconditionalEliminationConclusions hlines h
  | contradiction =>
    simp only [candidates] at h
    split at h
    · rw [List.mem_singleton.1 h]
      exact .falsum
    · cases h
  | conditionalProof => exact grammatical_of_mem_discharges hsubproofs h
  | indirectProof =>
    exact grammatical_of_mem_refutations
      (fun subproof hmem => hsubproofs subproof (List.mem_filter.1 hmem).1) h
  | proofByCases => exact grammatical_of_mem_commonConclusions hsubproofs h
  | addition | principleOfExplosion | excludedMiddle | universalInstantiation
  | existentialGeneralization => cases h

/-- What a rule suggests from grammatical premises is not blank. -/
theorem not_isBlankText_of_mem_suggestions
    (hpremises : ∀ premise ∈ premises, premise.Grammatical) {text : String}
    (h : text ∈ rule.suggestions premises) : Text.isBlankText text = false := by
  obtain ⟨s, hs, rfl⟩ := List.mem_map.1 (List.mem_eraseDups.1 h)
  exact Sentence.not_isBlankText_render (grammatical_of_mem_candidates hpremises hs)

end Rule

namespace Line

variable {line : Line} {s : Sentence}

theorem read_of_sentence? (h : line.sentence? = some s) :
    Sentence.read line.text = .ok (some s) := by
  unfold sentence? at h
  split at h
  · rename_i sentence? hread
    exact h ▸ hread
  · cases h

/-- What a line states is read from its text. -/
theorem grammatical_of_sentence? (h : line.sentence? = some s) : s.Grammatical :=
  (Sentence.expressible_of_read (read_of_sentence? h)).grammatical

end Line

namespace Proof

variable {p : Proof} {index : Nat}

/-! ## Texts filled in -/

theorem grammatical_of_sentenceAt {s : Sentence} (h : p.sentenceAt index = .ok s) :
    s.Grammatical := by
  unfold sentenceAt at h
  split at h
  · rename_i stated hstated
    cases h
    obtain ⟨line, -, hline⟩ := Option.bind_eq_some_iff.1 hstated
    exact Line.grammatical_of_sentence? hline
  · cases h

/-- The premises of a line are read from texts. -/
theorem grammatical_of_premisesOf {line : Line} {premises : List Premise}
    (h : p.premisesOf index line = .ok premises) : ∀ premise ∈ premises, premise.Grammatical := by
  intro premise hpremise
  obtain ⟨cited, -, hcited⟩ := exists_of_mem_of_forall₂ (Except.mapM_eq_ok.1 h) hpremise
  obtain ⟨sentence, hsentence, hrest⟩ := Except.bind_eq_ok.1 hcited
  split at hrest
  · obtain ⟨conclusions, hconclusions, hdone⟩ := Except.bind_eq_ok.1 hrest
    cases hdone
    refine ⟨grammatical_of_sentenceAt hsentence, fun conclusion hconclusion => ?_⟩
    obtain ⟨_, -, hat⟩ :=
      exists_of_mem_of_forall₂ (Except.mapM_eq_ok.1 hconclusions) hconclusion
    exact grammatical_of_sentenceAt hat
  · cases hrest
    exact grammatical_of_sentenceAt hsentence

/-- What is filled into a line is another text than the blank one that it has. -/
theorem suggestionFor?_ne {text : String} (h : p.suggestionFor? index = some text) :
    ∃ line, p.lines[index]? = some line ∧ line.text ≠ text := by
  obtain ⟨line, hline, hrest⟩ := Option.bind_eq_some_iff.1 h
  refine ⟨line, hline, ?_⟩
  by_cases hunfit : (line.assumption || !Text.isBlankText line.text) = true
  · simp [hunfit] at hrest
  simp only [hunfit, Bool.false_eq_true, if_false] at hrest
  obtain ⟨rule, -, hrest⟩ := Option.bind_eq_some_iff.1 hrest
  obtain ⟨premises, hpremises, hchosen⟩ := Option.bind_eq_some_iff.1 hrest
  -- Whether it is the first one that is not taken or the first of all, it is a suggestion.
  have hmem : text ∈ rule.suggestions premises := by
    rcases Option.or_eq_some_iff.1 hchosen with hfound | ⟨-, hhead⟩
    · exact List.mem_of_find?_eq_some hfound
    · exact List.mem_of_mem_head? hhead
  have hread : p.premisesOf index line = .ok premises := by
    cases hoption : p.premisesOf index line with
    | ok found =>
      rw [hoption] at hpremises
      exact congrArg _ (Option.some.inj hpremises)
    | error _ =>
      rw [hoption] at hpremises
      cases hpremises
  have hnot := Rule.not_isBlankText_of_mem_suggestions (grammatical_of_premisesOf hread) hmem
  rintro rfl
  simp [hnot] at hunfit

end Proof

end NaturalDeduction
