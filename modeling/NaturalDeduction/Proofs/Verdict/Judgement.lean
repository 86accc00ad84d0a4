/-
  What verification would find.

  Without an external checker, what is found for a line or a goal is a function
  of the lines with their rows and positions, and of the restriction: `judgement`
  for lines, `goalJudgement` for goals. Proofs that agree in this are `Alike`, a
  proof and its reloaded copy among them. The verifications carried out one after
  the other, which leave marks on the way, are shown to find exactly this.
-/

import NaturalDeduction.Proofs.Store.Content
import NaturalDeduction.Proofs.Success

namespace NaturalDeduction.Proof

/-! ## Lines -/

/-- The mark and the claim of a line, decided by the rules alone. -/
def judgement (p : Proof) (index : Nat) (line : Line) : Mark × Option Claim :=
  match examine p.restriction line with
  | .settled mark => (mark, none)
  | .claims conclusion rule =>
    match p.premisesOf index line with
    | .error unreadable => (.invalid (unreadableMessage unreadable), none)
    | .ok premises =>
      (lineMark (ruleVerdict ⟨conclusion, premises, rule⟩), some ⟨conclusion, premises, rule⟩)

/-- Whether a verification of the line at a position finds it correct. -/
def isCorrectAt (p : Proof) (index : Nat) : Bool :=
  p.lines[index]?.any fun line => (p.judgement index line).1.status == .correct

variable {setting : Setting} {p q : Proof}

theorem judgeLine_eq (h : setting.checker? = none) (p : Proof) (index : Nat) (line : Line) :
    judgeLine setting p index line =
      ((p.judgement index line).1, (p.judgement index line).2, p) := by
  unfold judgeLine judgement consult
  rw [h]
  -- Without a checker, a claim is decided by its rule.
  cases examine p.restriction line with
  | settled mark => rfl
  | claims conclusion rule => cases hpremises : p.premisesOf index line <;> simp

/-- A verified line shows what was found and waits no more. -/
theorem verifyLineAt_proof (h : setting.checker? = none) {index : Nat} {line : Line}
    (hline : p.lines[index]? = some line) :
    (verifyLineAt setting p index).proof =
      { p with
        lines := p.lines.set index
          { line with
            due? := none
            mark := (p.judgement index line).1
            claim? := (p.judgement index line).2 } } := by
  simp only [verifyLineAt, hline, judgeLine_eq h]
  rfl

theorem verifyLineAt_answer (h : setting.checker? = none) {index : Nat} {line : Line}
    (hline : p.lines[index]? = some line) :
    (verifyLineAt setting p index).answer = (p.judgement index line).1.status := by
  simp only [verifyLineAt, hline, judgeLine_eq h]

theorem verifyLineAt_answer_eq_correct (h : setting.checker? = none) (p : Proof) (index : Nat) :
    (verifyLineAt setting p index).answer = .correct ↔ p.isCorrectAt index = true := by
  cases hline : p.lines[index]? with
  | none => simp [verifyLineAt, isCorrectAt, hline]
  | some line => simp [verifyLineAt_answer h hline, isCorrectAt, hline]

/-! ## What judgements of lines look at -/

/-- The part of a proof that verification looks at: the contents of the lines with their rows and
positions, and the restriction. -/
def visible (p : Proof) : Proof :=
  { p.content with citations := [], goals := [], nextLine := 0, nextGoal := 0 }

theorem visible_eq_of_content_eq (h : q.content = p.content) : q.visible = p.visible := by
  rw [visible, visible, h]

/-- Proofs whose lines say and cite the same in the same rows, under the same restriction. What
verification finds in one of them it finds in the other. -/
structure Alike (p q : Proof) : Prop where
  records : q.lines.map q.record = p.lines.map p.record
  layout : q.layout = p.layout
  restriction : q.restriction = p.restriction

theorem record_eq_of_visible_eq (h : q.visible = p.visible) {line other : Line}
    (hline : other.content = line.content) : q.record other = p.record line := by
  have hpositions : q.visible.positions = p.visible.positions := congrArg Proof.positions h
  have hposition : q.position? = p.position? :=
    funext fun id => congrArg (List.lookup id) hpositions
  have hcontent : p.record other.content = p.record line.content := congrArg p.record hline
  have hrecord : p.record other = p.record line := hcontent
  rw [← hrecord, record, record, premiseNumbers, premiseNumbers, hposition]

theorem sentence?_eq_of_record_eq {line other : Line} (h : q.record other = p.record line) :
    other.sentence? = line.sentence? := by
  have htext : other.text = line.text := congrArg LineRecord.text h
  rw [Line.sentence?, Line.sentence?, htext]

theorem premiseNumbers_eq_of_record_eq {line other : Line} (h : q.record other = p.record line) :
    q.premiseNumbers other = p.premiseNumbers line :=
  congrArg LineRecord.premises h

namespace Alike

theorem of_visible_eq (h : q.visible = p.visible) : Alike p q := by
  have hlines : q.visible.lines = p.visible.lines := congrArg Proof.lines h
  have hlayout : q.visible.layout = p.visible.layout := congrArg Proof.layout h
  have hrestriction : q.visible.restriction = p.visible.restriction :=
    congrArg Proof.restriction h
  refine ⟨?_, hlayout, hrestriction⟩
  have hrecord : q.record = p.record := funext fun line => record_eq_of_visible_eq h rfl
  have hrecords := congrArg (List.map p.record) hlines
  simp only [visible, content, List.map_map] at hrecords
  rw [hrecord]
  exact hrecords

/-- A position is that of a line in both proofs or in neither. -/
theorem line_cases (h : Alike p q) (index : Nat) :
    (p.lines[index]? = none ∧ q.lines[index]? = none) ∨
      ∃ line other, p.lines[index]? = some line ∧ q.lines[index]? = some other ∧
        q.record other = p.record line := by
  have hat := congrArg (·[index]?) h.records
  simp only [List.getElem?_map] at hat
  cases hline : p.lines[index]? with
  | none =>
    rw [hline, Option.map_none, Option.map_eq_none_iff] at hat
    exact .inl ⟨rfl, hat⟩
  | some line =>
    rw [hline, Option.map_some, Option.map_eq_some_iff] at hat
    obtain ⟨other, hother, hrecord⟩ := hat
    exact .inr ⟨line, other, rfl, hother, hrecord⟩

theorem sentenceAt?_eq (h : Alike p q) : q.sentenceAt? = p.sentenceAt? := by
  funext index
  rcases h.line_cases index with ⟨hp, hq⟩ | ⟨line, other, hp, hq, hrecord⟩
  · rw [sentenceAt?, sentenceAt?, hp, hq]
  · rw [sentenceAt?, sentenceAt?, hp, hq]
    exact sentence?_eq_of_record_eq hrecord

theorem premiseAt_eq (h : Alike p q) : q.premiseAt = p.premiseAt := by
  have hsentence : q.sentenceAt = p.sentenceAt := by
    funext index
    rw [sentenceAt, sentenceAt, h.sentenceAt?_eq]
  funext index cited
  rw [premiseAt, premiseAt, hsentence, h.layout]

end Alike

theorem premisesOf_congr (h : Alike p q) {line other : Line}
    (hrecord : q.record other = p.record line) (index : Nat) :
    q.premisesOf index other = p.premisesOf index line := by
  rw [premisesOf, premisesOf, premiseNumbers_eq_of_record_eq hrecord, h.premiseAt_eq]

theorem examine_congr (h : Alike p q) {line other : Line}
    (hrecord : q.record other = p.record line) :
    examine q.restriction other = examine p.restriction line := by
  have htext : other.text = line.text := congrArg LineRecord.text hrecord
  have hassumption : other.assumption = line.assumption := congrArg LineRecord.assumption hrecord
  have hrule : other.rule? = line.rule? := congrArg LineRecord.rule? hrecord
  rw [examine, examine, htext, hassumption, hrule, h.restriction]

theorem judgement_congr (h : Alike p q) {line other : Line}
    (hrecord : q.record other = p.record line) (index : Nat) :
    q.judgement index other = p.judgement index line := by
  rw [judgement, judgement, examine_congr h hrecord, premisesOf_congr h hrecord]

theorem isCorrectAt_congr (h : Alike p q) (index : Nat) :
    q.isCorrectAt index = p.isCorrectAt index := by
  rcases h.line_cases index with ⟨hp, hq⟩ | ⟨line, other, hp, hq, hrecord⟩
  · rw [isCorrectAt, isCorrectAt, hp, hq]
    rfl
  · rw [isCorrectAt, isCorrectAt, hp, hq, Option.any_some, Option.any_some,
      judgement_congr h hrecord]

/-! ## Correct lines -/

theorem ruleVerdict_eq_valid {claim : Claim} :
    ruleVerdict claim = .valid ↔ claim.check = .ok () := by
  unfold ruleVerdict
  cases claim.check <;> simp

/-- A line makes a claim when it states a sentence, is no assumption and has an allowed rule. -/
theorem examine_eq_claims_iff {restriction : List Rule} {line : Line} {conclusion : Sentence}
    {rule : Rule} :
    examine restriction line = .claims conclusion rule ↔
      line.sentence? = some conclusion ∧ line.assumption = false ∧ line.rule? = some rule ∧
        allows restriction rule = true := by
  unfold examine Line.sentence?
  cases Sentence.read line.text with
  | error failure => simp
  | ok sentence? =>
    cases sentence? with
    | none => simp
    | some sentence =>
      cases hassumption : line.assumption with
      | true => simp
      | false =>
        cases hrule : line.rule? with
        | none => simp
        | some other =>
          simp only [Bool.false_eq_true, if_false, Option.some.injEq, true_and]
          cases hallows : allows restriction other with
          | true =>
            simp only [if_true, Finding.claims.injEq]
            exact and_congr_right fun _ => ⟨fun h => ⟨h, h ▸ hallows⟩, And.left⟩
          | false =>
            simp only [Bool.false_eq_true, if_false, reduceCtorEq, false_iff]
            rintro ⟨-, rfl, hallowed⟩
            rw [hallows] at hallowed
            cases hallowed

/-- What is settled without a claim is never correct. -/
theorem status_ne_correct_of_examine {restriction : List Rule} {line : Line} {mark : Mark}
    (h : examine restriction line = .settled mark) : mark.status ≠ .correct := by
  unfold examine at h
  split at h
  · cases h
    simp [Mark.blank]
  · cases h
    simp [Mark.malformed]
  · split at h
    · cases h
      simp [Mark.blank]
    · split at h
      · cases h
        simp [Mark.plain]
      · split at h
        · cases h
        · cases h
          simp [Mark.invalid, Mark.plain]

/-- A correct line states a sentence that its rule licenses from the premises it cites. -/
theorem exists_of_isCorrectAt {index : Nat} (h : p.isCorrectAt index = true) :
    ∃ line conclusion rule premises, p.lines[index]? = some line ∧
      line.sentence? = some conclusion ∧ line.rule? = some rule ∧
      p.premisesOf index line = .ok premises ∧ rule.check premises conclusion = .ok () := by
  unfold isCorrectAt at h
  rw [Option.any_eq_true] at h
  obtain ⟨line, hline, hcorrect⟩ := h
  simp only [judgement, beq_iff_eq] at hcorrect
  -- A settled line is never correct, and a claim is decided by its rule.
  cases hexamine : examine p.restriction line with
  | settled mark =>
    rw [hexamine] at hcorrect
    exact absurd hcorrect (status_ne_correct_of_examine hexamine)
  | claims conclusion rule =>
    rw [hexamine] at hcorrect
    obtain ⟨hsentence, -, hrule, -⟩ := examine_eq_claims_iff.1 hexamine
    cases hpremises : p.premisesOf index line with
    | error unreadable =>
      simp only [hpremises] at hcorrect
      cases hcorrect
    | ok premises =>
      simp only [hpremises] at hcorrect
      refine ⟨line, conclusion, rule, premises, hline, hsentence, hrule, hpremises, ?_⟩
      cases hverdict : ruleVerdict ⟨conclusion, premises, rule⟩ with
      | valid => exact ruleVerdict_eq_valid.1 hverdict
      | invalid message =>
        rw [hverdict] at hcorrect
        cases hcorrect

/-! ## Goals -/

/-- The lines to verify for a candidate: its derivation without assumptions. -/
def steps (p : Proof) (candidate : Nat) : List Nat :=
  (p.derivation candidate).filter fun index => !p.layout.isAssumption index

/-- The verdict on a goal, given the first failure so far and the candidates that are left. -/
def verdictFrom (p : Proof) : Option Nat → List Nat → Verdict
  | none, [] => .invalid "The goal has not been reached"
  | some broken, [] =>
    .invalid ("Line " ++ toString (broken + 1) ++ ", used to reach the goal, is not correct")
  | broken?, candidate :: others =>
    match (p.steps candidate).find? fun index => !p.isCorrectAt index with
    | none => .valid
    | some broken => p.verdictFrom (some (broken?.getD broken)) others

/-- The mark of a goal, decided by the rules alone. -/
def goalJudgement (p : Proof) (goal : Goal) : Mark :=
  match Sentence.read goal.text with
  | .ok none => .blank
  | .error failure => .malformed failure
  | .ok (some sentence) => goalMark (p.verdictFrom none (p.statedAt sentence))

/-! ### What judgements of goals look at -/

namespace Alike

theorem restsOn_eq (h : Alike p q) (index : Nat) : q.restsOn index = p.restsOn index := by
  rcases h.line_cases index with ⟨hp, hq⟩ | ⟨line, other, hp, hq, hrecord⟩
  · rw [restsOn, restsOn, hp, hq]
  · rw [restsOn, restsOn, hp, hq]
    simp only [premiseNumbers_eq_of_record_eq hrecord, h.layout]

theorem collectBelow_eq (h : Alike p q) (bound : Nat) (derivation : List Nat) :
    q.collectBelow bound derivation = p.collectBelow bound derivation := by
  induction bound generalizing derivation with
  | zero => rfl
  | succ bound ih => rw [collectBelow, collectBelow, ih, h.restsOn_eq]

theorem steps_eq (h : Alike p q) (candidate : Nat) : q.steps candidate = p.steps candidate := by
  rw [steps, steps, derivation, derivation, h.collectBelow_eq, h.layout]

theorem statedAt_eq (h : Alike p q) (sentence : Sentence) :
    q.statedAt sentence = p.statedAt sentence := by
  have hlength : q.lines.length = p.lines.length := by
    simpa using congrArg List.length h.records
  rw [statedAt, statedAt, h.sentenceAt?_eq, h.layout, hlength]

theorem verdictFrom_eq (h : Alike p q) (broken? : Option Nat) (candidates : List Nat) :
    q.verdictFrom broken? candidates = p.verdictFrom broken? candidates := by
  induction candidates generalizing broken? with
  | nil => cases broken? <;> rfl
  | cons candidate others ih => simp only [verdictFrom, h.steps_eq, isCorrectAt_congr h, ih]

end Alike

theorem goalJudgement_congr (h : Alike p q) {goal other : Goal} (htext : other.text = goal.text) :
    q.goalJudgement other = p.goalJudgement goal := by
  simp only [goalJudgement, htext, h.statedAt_eq, h.verdictFrom_eq]

/-! ### Verifying a goal finds its judgement -/

/-- Under a setting, and whatever verification left on the proof so far, verifying a line finds it
correct just when the rules alone do. -/
def Decides (setting : Setting) (p : Proof) : Prop :=
  ∀ q : Proof, q.content = p.content →
    ∀ index, (verifyLineAt setting q index).answer = .correct ↔ q.isCorrectAt index = true

theorem decides_of_local (h : setting.checker? = none) (p : Proof) : Decides setting p :=
  fun q _ => verifyLineAt_answer_eq_correct h q

theorem Decides.congr (h : q.content = p.content) (hp : Decides setting p) : Decides setting q :=
  fun r hr => hp r (hr.trans h)

theorem firstIncorrect_answer (h : Decides setting p) (steps : List Nat) :
    (firstIncorrect setting p steps).answer = steps.find? fun index => !p.isCorrectAt index := by
  induction steps generalizing p with
  | nil => rfl
  | cons index steps ih =>
    -- Verifying a line does not change what the others are found to be.
    have hcontent := content_verifyLineAt setting p index
    have hrest := ih (h.congr hcontent)
    simp only [isCorrectAt_congr (.of_visible_eq (visible_eq_of_content_eq hcontent))] at hrest
    simp only [firstIncorrect, h p rfl, List.find?_cons]
    cases hcorrect : p.isCorrectAt index with
    | true => exact hrest
    | false => rfl

theorem reachFrom_answer (h : Decides setting p) (broken? : Option Nat) (candidates : List Nat) :
    (reachFrom setting p broken? candidates).answer = p.verdictFrom broken? candidates := by
  induction candidates generalizing p broken? with
  | nil => cases broken? <;> rfl
  | cons candidate others ih =>
    -- The same for all lines of a candidate, so the other candidates are judged as at first.
    have hcontent := content_firstIncorrect setting p (p.steps candidate)
    have hfound := firstIncorrect_answer h (p.steps candidate)
    rw [verdictFrom, ← hfound, reachFrom, ← steps]
    cases (firstIncorrect setting p (p.steps candidate)).answer with
    | none => rfl
    | some broken =>
      simp only
      rw [ih (h.congr hcontent)]
      exact (Alike.of_visible_eq (visible_eq_of_content_eq hcontent)).verdictFrom_eq _ others

theorem judgeGoal_answer (h : setting.checker? = none) (p : Proof) (index : Nat) (goal : Goal) :
    (judgeGoal setting p index goal).answer = p.goalJudgement goal := by
  unfold judgeGoal goalJudgement consult
  rw [h]
  cases Sentence.read goal.text with
  | error failure => rfl
  | ok sentence? =>
    cases sentence? with
    | none => rfl
    | some sentence => simp only [reach, reachFrom_answer (decides_of_local h p)]

theorem verifyGoalAt_answer (h : setting.checker? = none) {index : Nat} {goal : Goal}
    (hgoal : p.goals[index]? = some goal) :
    (verifyGoalAt setting p index).answer = (p.goalJudgement goal).status := by
  simp only [verifyGoalAt, hgoal, judgeGoal_answer h]

end NaturalDeduction.Proof
