/-
  What no checker can overrule.

  The verdict of an external checker is taken as it is. But a checker is asked
  only about a line that is no assumption, states a sentence, has a rule that
  the restriction allows and cites nothing that states no sentence. Whatever it
  answers, what a line shows is what a verification could find with some
  verdict; and as long as the line shows it, the edits of the proof leave what
  the line was asked about as it was.
-/

import NaturalDeduction.Proofs.Verdict.Upkeep

namespace NaturalDeduction.Proof

/-- The mark that verification finds for a line if the verdict on its claim, where it comes to one,
is the given one. -/
def markUnder (verdict : Verdict) (p : Proof) (index : Nat) (line : Line) : Mark :=
  match examine p.restriction line with
  | .settled mark => mark
  | .claims _ _ =>
    match p.premisesOf index line with
    | .error unreadable => .invalid (unreadableMessage unreadable)
    | .ok _ => lineMark verdict

/-- A sentence stands at a position. -/
def HasSentence (p : Proof) (index : Nat) : Prop :=
  ∃ line sentence, p.lines[index]? = some line ∧ Sentence.read line.text = .ok (some sentence)

/-- What the status of lines and goals promises, whoever gave the verdict. -/
structure MeetsRequirements (p : Proof) : Prop where
  /-- A correct line is no assumption, states a sentence and has a rule that the restriction allows;
  the lines that it cites state sentences, and so do the conclusions of the subproofs it cites. -/
  correct_line : ∀ (index : Nat) (line : Line), p.lines[index]? = some line →
    line.mark.status = .correct →
    line.assumption = false ∧ p.HasSentence index ∧
    (∃ rule, line.rule? = some rule ∧ (p.restriction ≠ [] → rule ∈ p.restriction)) ∧
    ∀ id ∈ line.premises, ∃ cited, p.lineId? cited = some id ∧ p.HasSentence cited ∧
      (p.layout.isSubproofPremise cited index = true →
        ∀ position ∈ p.layout.subproofConclusions cited, p.HasSentence position)
  assumption : ∀ line ∈ p.lines, line.assumption = true →
    line.mark.status = .unmarked ∨ line.mark.status = .invalidExpression
  correct_goal : ∀ goal ∈ p.goals, goal.mark.status = .correct →
    ∃ sentence, Sentence.read goal.text = .ok (some sentence)

variable {setting : Setting} {p q : Proof} {index : Nat} {line : Line} {verdict : Verdict}

/-! ## What a verification can find -/

theorem exists_lineFinding_eq_markUnder (setting : Setting) (p : Proof) (index : Nat)
    (line : Line) :
    ∃ verdict, (p.lineFinding setting index line).1 = p.markUnder verdict index line := by
  unfold lineFinding judgeLine markUnder
  cases examine p.restriction line with
  | settled mark => exact ⟨.valid, rfl⟩
  | claims conclusion rule =>
    cases p.premisesOf index line with
    | error unreadable => exact ⟨.valid, rfl⟩
    | ok premises =>
      exact
        ⟨(consult setting p (.line index)).1.getD (ruleVerdict ⟨conclusion, premises, rule⟩), rfl⟩

theorem status_markUnder_congr (verdict : Verdict) {i j : Nat} {line other : Line}
    (hexamine : examine q.restriction other = examine p.restriction line)
    (hpremises : (q.premisesOf j other).toOption = (p.premisesOf i line).toOption) :
    (q.markUnder verdict j other).status = (p.markUnder verdict i line).status := by
  unfold markUnder
  rw [hexamine]
  cases examine p.restriction line with
  | settled mark => rfl
  | claims conclusion rule =>
    -- One list of premises is readable just when the other is.
    cases hp : p.premisesOf i line <;> cases hq : q.premisesOf j other <;>
      rw [hp, hq] at hpremises <;> first | rfl | cases hpremises

/-- A line can be found correct only where it makes a claim with readable premises. -/
theorem exists_of_markUnder_correct (h : (p.markUnder verdict index line).status = .correct) :
    ∃ conclusion rule premises, examine p.restriction line = .claims conclusion rule ∧
      p.premisesOf index line = .ok premises := by
  unfold markUnder at h
  cases hexamine : examine p.restriction line with
  | settled mark =>
    rw [hexamine] at h
    exact absurd h (status_ne_correct_of_examine hexamine)
  | claims conclusion rule =>
    rw [hexamine] at h
    cases hpremises : p.premisesOf index line with
    | error unreadable =>
      rw [hpremises] at h
      cases h
    | ok premises => exact ⟨conclusion, rule, premises, rfl, rfl⟩

/-- An assumption is never put to a checker: it is left unmarked, or its text is no sentence. -/
theorem status_markUnder_of_assumption (verdict : Verdict) (p : Proof) (index : Nat)
    (h : line.assumption = true) :
    (p.markUnder verdict index line).status = .unmarked ∨
      (p.markUnder verdict index line).status = .invalidExpression := by
  unfold markUnder examine
  cases Sentence.read line.text with
  | error failure => exact .inr rfl
  | ok sentence? =>
    cases sentence? with
    | none => exact .inl rfl
    | some sentence =>
      rw [h]
      exact .inl rfl

/-- Only a goal that states a sentence can be found reached. -/
theorem exists_sentence_of_goalFinding_correct {goal : Goal}
    (h : (p.goalFinding setting index goal).status = .correct) :
    ∃ sentence, Sentence.read goal.text = .ok (some sentence) := by
  unfold goalFinding judgeGoal at h
  cases hread : Sentence.read goal.text with
  | error failure =>
    rw [hread] at h
    cases h
  | ok sentence? =>
    cases sentence? with
    | none =>
      rw [hread] at h
      cases h
    | some sentence => exact ⟨sentence, rfl⟩

/-! ## It stays what a verification can find -/

/-- The condition of lines that show nothing or what a verification can find, and of goals that
show no success without a sentence. -/
def possibility : Condition where
  onLine p index line := line.mark.status ≠ .unmarked →
    ∃ verdict, line.mark.status = (p.markUnder verdict index line).status
  onGoal _ goal := goal.mark.status = .correct →
    ∃ sentence, Sentence.read goal.text = .ok (some sentence)
  congr_line {p q i j line other} hline hmark _ hexamine hpremises := by
    rw [hmark]
    intro hmarked
    obtain ⟨verdict, hverdict⟩ := hline hmarked
    exact ⟨verdict, hverdict.trans (status_markUnder_congr verdict hexamine
      (toOption_premisesOf_eq_of_premisesById hpremises)).symm⟩
  line_blank _ _ _ hmark _ h := absurd (congrArg Mark.status hmark) h
  congr_goal {p q goal other} hgoal _ htext hmark := by
    rw [htext, hmark]
    exact hgoal
  goal_blank _ goal hmark h := by
    rw [hmark] at h
    cases h

/-- Every checker leaves what a verification can find. -/
theorem established_possibility (setting : Setting) (p : Proof) :
    possibility.Established setting p := by
  refine ⟨fun {q} _ index line _ => ?_, fun _ _ _ hcorrect => ?_⟩
  · obtain ⟨verdict, hverdict⟩ := exists_lineFinding_eq_markUnder setting q index line
    exact ⟨verdict, congrArg Mark.status hverdict⟩
  · exact exists_sentence_of_goalFinding_correct hcorrect

/-! ## What follows from it -/

theorem hasSentence_of_sentenceAt? {sentence : Sentence} (h : p.sentenceAt? index = some sentence) :
    p.HasSentence index := by
  obtain ⟨line, hline, hsentence⟩ := Option.bind_eq_some_iff.1 h
  refine ⟨line, sentence, hline, ?_⟩
  unfold Line.sentence? at hsentence
  cases hread : Sentence.read line.text with
  | error failure =>
    rw [hread] at hsentence
    cases hsentence
  | ok sentence? =>
    rw [hread] at hsentence
    exact congrArg Except.ok hsentence

/-- Where a cited line gives a premise, it states a sentence, and so do the conclusions of the
subproof that it opens. -/
theorem hasSentence_of_premiseAt {cited : Nat} {premise : Premise}
    (h : (p.premiseAt index cited).toOption = some premise) :
    p.HasSentence cited ∧ (p.layout.isSubproofPremise cited index = true →
      ∀ position ∈ p.layout.subproofConclusions cited, p.HasSentence position) := by
  rw [toOption_premiseAt] at h
  obtain ⟨sentence, hsentence, hrest⟩ := Option.bind_eq_some_iff.1 h
  refine ⟨hasSentence_of_sentenceAt? hsentence, fun hsubproof position hposition => ?_⟩
  rw [if_pos hsubproof] at hrest
  obtain ⟨conclusions, hconclusions, -⟩ := Option.map_eq_some_iff.1 hrest
  obtain ⟨conclusion, -, hconclusion⟩ :=
    exists_of_mem_of_forall₂ (Option.mapM_eq_some.1 hconclusions).flip hposition
  exact hasSentence_of_sentenceAt? hconclusion

theorem allows_eq_true {restriction : List Rule} {rule : Rule}
    (h : allows restriction rule = true) : restriction ≠ [] → rule ∈ restriction := by
  intro hne
  simpa [allows, hne] using h

/-- What a verification can find meets the requirements. -/
theorem MeetsRequirements.of_holds (hwell : WellFormedLines p) (h : possibility.Holds p) :
    MeetsRequirements p := by
  refine ⟨fun index line hline hcorrect => ?_, fun line hmem hassumption => ?_,
    fun goal hmem => h.goal goal hmem⟩
  · have hmarked : line.mark.status ≠ .unmarked := by
      rw [hcorrect]
      exact Status.noConfusion
    obtain ⟨verdict, hverdict⟩ := h.line index line id hline hmarked
    obtain ⟨conclusion, rule, premises, hexamine, hpremises⟩ :=
      exists_of_markUnder_correct (hverdict.symm.trans hcorrect)
    obtain ⟨hsentence, hassumption, hrule, hallows⟩ := examine_eq_claims_iff.1 hexamine
    have hstates : p.sentenceAt? index = some conclusion := by
      rw [sentenceAt?, hline, Option.bind_some, hsentence]
    refine ⟨hassumption, hasSentence_of_sentenceAt? hstates,
      ⟨rule, hrule, allows_eq_true hallows⟩, fun id hid => ?_⟩
    -- Every cited line has a position, and gives one of the premises there.
    obtain ⟨cited, hposition, -⟩ := hwell.premise_accessible index line hline id hid
    have hcited : cited ∈ p.premiseNumbers line := mem_premiseNumbers.2 ⟨id, hid, hposition⟩
    have hall : (p.premisesOf index line).toOption = some premises := by
      rw [hpremises]
      rfl
    rw [toOption_premisesOf] at hall
    obtain ⟨premise, -, hpremise⟩ :=
      exists_of_mem_of_forall₂ (Option.mapM_eq_some.1 hall).flip hcited
    exact ⟨cited, (hwell.position_iff id cited).1 hposition, hasSentence_of_premiseAt hpremise⟩
  · obtain ⟨index, hline⟩ := List.mem_iff_getElem?.1 hmem
    by_cases hmarked : line.mark.status = .unmarked
    · exact .inl hmarked
    · obtain ⟨verdict, hverdict⟩ := h.line index line id hline hmarked
      rw [hverdict]
      exact status_markUnder_of_assumption verdict p index hassumption

/-- No checker overrules the basic requirements, whatever it answers, on whatever it was sent
before, or whether it answers at all: every proof that operations lead to meets them. -/
theorem requirements_run (setting : Setting) (operations : List Operation) {start : Proof}
    (hstart : Initial start) : MeetsRequirements (start.run setting operations).1 := by
  have hwell := WellFormed.initial hstart
  have hholds := (Condition.Holds.initial possibility hstart).run hwell
    (established_possibility setting) operations
  exact .of_holds (hwell.run setting operations).1.toWellFormedLines hholds

/-- A checker that finds everything right. -/
def credulous : Setting := { checker? := some fun _ _ => .ok .valid }

/-- A line that its rule does not give from the assumption that it cites. -/
def contested : List Operation :=
  [.addPremise, .setText 0 "P", .addLine 1 ⟨0, false⟩, .setText 1 "Q", .togglePremise 1 0,
    .setRule 1 (some .reiteration), .verifyLine 0]

/-- The checker has the line accepted, until the assumption states no sentence any more. -/
theorem requirements_run_credulous :
    Initial (.new []) ∧
    MeetsRequirements ((Proof.new []).run credulous contested).1 ∧
    ((Proof.new []).run credulous contested).1.lines.map (·.mark.status) = [.unmarked, .correct] ∧
    MeetsRequirements
      ((Proof.new []).run credulous (contested ++ [.setText 0 "P ∧", .verifyAll])).1 ∧
    ((Proof.new []).run credulous (contested ++ [.setText 0 "P ∧", .verifyAll])).1.lines.map
      (·.mark.status) = [.invalidExpression, .invalidClaim] :=
  ⟨.new [], requirements_run credulous _ (.new []), by decide +kernel,
    requirements_run credulous _ (.new []), by decide +kernel⟩

end NaturalDeduction.Proof
