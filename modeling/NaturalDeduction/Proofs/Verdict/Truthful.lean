/-
  External checkers that agree with the rules.

  A checker that is asked about a row gets the document of the proof and none
  of its marks. The document says all that verification looks at, so loading
  it and verifying the row there finds what the proof itself would find. Hence
  a checker whose verdicts are found in this way makes no difference, however
  often it fails to answer.
-/

import NaturalDeduction.Checker.Server
import NaturalDeduction.Proofs.Document.Stored
import NaturalDeduction.Proofs.Store.Identity
import NaturalDeduction.Proofs.Verdict.Judgement

namespace NaturalDeduction

/-- A checker gives no verdicts but those of the rules. It may fail to give one at any time. -/
def ExternalChecker.Truthful (checker : ExternalChecker) : Prop :=
  ∀ past request verdict, checker past request = .ok verdict → request.answer = .ok verdict

/-- Under a setting, no verdict comes from elsewhere than the rules. -/
def Setting.Truthful (setting : Setting) : Prop :=
  ∀ checker, setting.checker? = some checker → checker.Truthful

/-! ## Answering a request -/

/-- The verdict that a mark on a row stands for. -/
def Mark.verdict (target : Target) (mark : Mark) : Verdict :=
  if mark.status = .correct then .valid
  else .invalid (mark.message?.getD (target.describe ++ " is " ++ mark.status.name))

theorem CheckRequest.answer_eq {request : CheckRequest} {p : Proof} {outcome : Outcome Status}
    {mark : Mark} (hloaded : Proof.ofDocument request.document = .ok p)
    (hverified : verifyTarget p request.target = .ok outcome)
    (hanswer : outcome.answer = mark.status)
    (hmark : markAt? outcome.proof request.target = some mark) :
    request.answer = .ok (mark.verdict request.target) := by
  refine Except.bind_eq_ok.2 ⟨p, hloaded, Except.bind_eq_ok.2 ⟨outcome, ?_, ?_⟩⟩
  · rw [hverified]
    rfl
  · rw [hanswer, hmark, Option.bind_some, Mark.verdict]
    split
    · rfl
    · cases mark.message? <;> rfl

namespace Proof

@[simp] theorem verdict_lineMark (target : Target) (verdict : Verdict) :
    (lineMark verdict).verdict target = verdict := by
  cases verdict <;> rfl

@[simp] theorem verdict_goalMark (target : Target) (verdict : Verdict) :
    (goalMark verdict).verdict target = verdict := by
  cases verdict <;> rfl

variable {setting other : Setting} {p q : Proof} {index : Nat}

/-! ## What verification makes known -/

/-- What the verification of a line makes known: the status, what the line shows, and its claim. -/
def lineReport (index : Nat) (outcome : Outcome Status) :
    Status × Option LineView × Option Claim :=
  (outcome.answer, outcome.proof.lineView? index, outcome.proof.claim? index)

/-- What the verification of a goal makes known: the status, and what the goal shows. -/
def goalReport (index : Nat) (outcome : Outcome Status) : Status × Option GoalView :=
  (outcome.answer, outcome.proof.goalView? index)

theorem lineReport_verifyLineAt {line : Line} (hline : p.lines[index]? = some line) {mark : Mark}
    {claim? : Option Claim} {asked : Proof}
    (hjudged : judgeLine setting p index line = (mark, claim?, asked)) :
    lineReport index (verifyLineAt setting p index) =
      (mark.status, some { p.viewLine line with mark }, claim?) := by
  obtain ⟨consulted, hasked⟩ := exists_judgeLine_eq setting p index line
  rw [hjudged] at hasked
  obtain rfl : asked = { p with consulted } := hasked
  have hlt := (List.getElem?_eq_some_iff.1 hline).1
  simp only [lineReport, verifyLineAt, hline, hjudged, lineView?, Proof.claim?,
    List.getElem?_set_self hlt]
  rfl

theorem goalReport_verifyGoalAt {goal : Goal} (hgoal : p.goals[index]? = some goal) :
    goalReport index (verifyGoalAt setting p index) =
      ((judgeGoal setting p index goal).answer.status,
        some { viewGoal goal with mark := (judgeGoal setting p index goal).answer }) := by
  have hkept := length_goals_of_content_eq (content_judgeGoal setting p index goal)
  have hlt := hkept ▸ (List.getElem?_eq_some_iff.1 hgoal).1
  simp only [goalReport, verifyGoalAt, hgoal, goalView?, List.getElem?_set_self hlt]
  rfl

/-! ## The answer about a row of a stored proof -/

/-- A document says all that verification looks at. -/
theorem Alike.of_document_eq (hp : WellFormedLines p) (hq : WellFormedLines q)
    (h : q.document = p.document) : Alike p q where
  records := congrArg Document.lines h
  layout := by rw [← hq.layout_document, h, hp.layout_document]
  restriction := congrArg Document.restriction h

/-- The document of a proof can be loaded, as a proof in which verification finds the same. -/
theorem WellFormedLines.exists_alike (hp : WellFormedLines p) :
    ∃ q, ofDocument p.document = .ok q ∧ Alike p q ∧
      q.goals.map Goal.text = p.goals.map Goal.text := by
  obtain ⟨q, hloaded, hdocument⟩ := hp.exists_ofDocument
  have hq := (wellFormed_ofDocument hloaded).toWellFormedLines
  exact ⟨q, hloaded, .of_document_eq hp hq hdocument, congrArg Document.goals hdocument⟩

/-- The rules answer about a line what the proof itself would find. -/
theorem WellFormedLines.answer_line (hp : WellFormedLines p) {line : Line}
    (hline : p.lines[index]? = some line) :
    CheckRequest.answer ⟨p.document, .line index⟩ =
      .ok ((p.judgement index line).1.verdict (.line index)) := by
  obtain ⟨q, hloaded, halike, -⟩ := hp.exists_alike
  rcases halike.line_cases index with ⟨hnone, -⟩ | ⟨found, loaded, hfound, hq, hrecord⟩
  · rw [hline] at hnone
    cases hnone
  · obtain rfl : line = found := Option.some.inj (hline.symm.trans hfound)
    have hlocal : ({} : Setting).checker? = none := rfl
    have hreport := lineReport_verifyLineAt hq (judgeLine_eq hlocal q index loaded)
    rw [judgement_congr halike hrecord] at hreport
    have hlt := (List.getElem?_eq_some_iff.1 hq).1
    refine CheckRequest.answer_eq hloaded (verifyLine_eq_ok {} hlt)
      (congrArg Prod.fst hreport) ?_
    exact congrArg (fun report => report.2.1.map LineView.mark) hreport

/-- The rules answer about a goal what the proof itself would find. -/
theorem WellFormedLines.answer_goal (hp : WellFormedLines p) {goal : Goal}
    (hgoal : p.goals[index]? = some goal) :
    CheckRequest.answer ⟨p.document, .goal index⟩ =
      .ok ((p.goalJudgement goal).verdict (.goal index)) := by
  obtain ⟨q, hloaded, halike, hgoals⟩ := hp.exists_alike
  obtain ⟨loaded, hq, htext⟩ : ∃ loaded : Goal, q.goals[index]? = some loaded ∧
      loaded.text = goal.text := by
    have hat := congrArg (·[index]?) hgoals
    simpa [hgoal] using hat
  have hlocal : ({} : Setting).checker? = none := rfl
  have hreport : goalReport index (verifyGoalAt {} q index) = _ := goalReport_verifyGoalAt hq
  rw [judgeGoal_answer hlocal, goalJudgement_congr halike htext] at hreport
  have hlt := (List.getElem?_eq_some_iff.1 hq).1
  refine CheckRequest.answer_eq hloaded (verifyGoal_eq_ok {} hlt) (congrArg Prod.fst hreport) ?_
  exact congrArg (fun report => report.2.map GoalView.mark) hreport

/-! ## Verifying with a truthful checker -/

/-- A truthful checker answers as the rules do, or not at all. -/
theorem consult_eq_none_or (h : setting.Truthful) {target : Target} {verdict : Verdict}
    (hanswer : CheckRequest.answer ⟨p.document, target⟩ = .ok verdict) :
    (consult setting p target).1 = none ∨ (consult setting p target).1 = some verdict := by
  unfold consult
  cases hchecker : setting.checker? with
  | none => exact .inl rfl
  | some checker =>
    simp only
    cases hchecked : checker p.consulted ⟨p.document, target⟩ with
    | error fault => exact .inl rfl
    | ok found =>
      have hfound := h checker hchecker _ _ _ hchecked
      rw [hanswer] at hfound
      cases hfound
      exact .inr rfl

theorem exists_judgeLine_eq_judgement (h : setting.Truthful) (hp : WellFormedLines p)
    {line : Line} (hline : p.lines[index]? = some line) :
    ∃ asked, judgeLine setting p index line =
      ((p.judgement index line).1, (p.judgement index line).2, asked) := by
  have hanswer := hp.answer_line hline
  unfold judgeLine
  unfold judgement at hanswer ⊢
  cases hexamine : examine p.restriction line with
  | settled mark => exact ⟨p, rfl⟩
  | claims conclusion rule =>
    rw [hexamine] at hanswer
    cases hpremises : p.premisesOf index line with
    | error unreadable => exact ⟨p, rfl⟩
    | ok premises =>
      simp only [hpremises, verdict_lineMark] at hanswer
      -- The claim is put to the checker, and its rule decides where there is no answer.
      refine ⟨(consult setting p (.line index)).2, ?_⟩
      rcases consult_eq_none_or h hanswer with hnone | hsome
      · simp only [hnone, Option.getD_none]
      · simp only [hsome, Option.getD_some]

theorem decides_of_truthful (h : setting.Truthful) (hp : WellFormedLines p) :
    Decides setting p := by
  intro q hcontent index
  have hq := hp.congr_outline (outline_eq_of_content_eq hcontent)
  cases hline : q.lines[index]? with
  | none => simp [verifyLineAt, isCorrectAt, hline]
  | some line =>
    obtain ⟨asked, hjudged⟩ := exists_judgeLine_eq_judgement h hq hline
    simp [verifyLineAt, isCorrectAt, hline, hjudged]

theorem judgeGoal_answer_of_truthful (h : setting.Truthful) (hp : WellFormedLines p)
    {goal : Goal} (hgoal : p.goals[index]? = some goal) :
    (judgeGoal setting p index goal).answer = p.goalJudgement goal := by
  have hanswer := hp.answer_goal hgoal
  obtain ⟨consulted, hasked⟩ := exists_consult_eq setting p (.goal index)
  unfold judgeGoal
  unfold goalJudgement at hanswer ⊢
  cases hread : Sentence.read goal.text with
  | error failure => rfl
  | ok sentence? =>
    cases sentence? with
    | none => rfl
    | some sentence =>
      simp only [hread, verdict_goalMark] at hanswer
      have hconsulted := consult_eq_none_or h hanswer
      generalize consult setting p (.goal index) = asked at hasked hconsulted ⊢
      obtain ⟨verdict?, asked⟩ := asked
      obtain rfl : asked = { p with consulted } := hasked
      rcases hconsulted with hnone | hsome
      · obtain rfl : verdict? = none := hnone
        -- Having asked in vain changes nothing that the search looks at.
        have hcontent : ({ p with consulted } : Proof).content = p.content := rfl
        have halike := Alike.of_visible_eq (visible_eq_of_content_eq hcontent)
        simp only [reach, reachFrom_answer ((decides_of_truthful h hp).congr hcontent),
          halike.statedAt_eq, halike.verdictFrom_eq]
      · obtain rfl : verdict? = some _ := hsome
        rfl

/-- Under all truthful settings, a verification makes the same known of a line. -/
theorem lineReport_congr (h : setting.Truthful) (hother : other.Truthful)
    (hp : WellFormedLines p) (index : Nat) :
    lineReport index (verifyLineAt other p index) =
      lineReport index (verifyLineAt setting p index) := by
  cases hline : p.lines[index]? with
  | none => simp only [verifyLineAt, hline]
  | some line =>
    obtain ⟨asked, hjudged⟩ := exists_judgeLine_eq_judgement h hp hline
    obtain ⟨asked', hjudged'⟩ := exists_judgeLine_eq_judgement hother hp hline
    rw [lineReport_verifyLineAt hline hjudged, lineReport_verifyLineAt hline hjudged']

/-- Under all truthful settings, a verification makes the same known of a goal. -/
theorem goalReport_congr (h : setting.Truthful) (hother : other.Truthful)
    (hp : WellFormedLines p) (index : Nat) :
    goalReport index (verifyGoalAt other p index) =
      goalReport index (verifyGoalAt setting p index) := by
  cases hgoal : p.goals[index]? with
  | none => simp only [verifyGoalAt, hgoal]
  | some goal =>
    rw [goalReport_verifyGoalAt hgoal, goalReport_verifyGoalAt hgoal,
      judgeGoal_answer_of_truthful h hp hgoal, judgeGoal_answer_of_truthful hother hp hgoal]

/-- A truthful checker makes no difference: in every state, verifying a line or a goal with it, and
with none, gives the same status and leaves the same on this line or goal. -/
theorem verify_eq_of_truthful {checker : ExternalChecker} (hchecker : checker.Truthful)
    (hreachable : Reachable setting p) (debounce? : Option Nat) (index : Nat) :
    (p.verifyLine ⟨some checker, debounce?⟩ index).map (lineReport index) =
        (p.verifyLine ⟨none, debounce?⟩ index).map (lineReport index) ∧
      (p.verifyGoal ⟨some checker, debounce?⟩ index).map (goalReport index) =
        (p.verifyGoal ⟨none, debounce?⟩ index).map (goalReport index) := by
  obtain ⟨start, operations, hstart, rfl⟩ := hreachable
  have hp := ((WellFormed.initial hstart).run setting operations).1.toWellFormedLines
  have hasked : Setting.Truthful ⟨some checker, debounce?⟩ := by
    rintro _ ⟨⟩
    exact hchecker
  have halone : Setting.Truthful ⟨none, debounce?⟩ := by
    rintro _ ⟨⟩
  refine ⟨?_, ?_⟩
  · unfold verifyLine
    cases (start.run setting operations).1.checkLine index with
    | error refused => rfl
    | ok _ => exact congrArg Except.ok (lineReport_congr halone hasked hp index)
  · unfold verifyGoal
    cases (start.run setting operations).1.checkGoal index with
    | error refused => rfl
    | ok _ => exact congrArg Except.ok (goalReport_congr halone hasked hp index)

/-! ### A checker that answers every second time -/

/-- The first request is lost, the second one is answered by the rules, and so on. -/
def intermittent : ExternalChecker := fun past request =>
  if past.length % 2 = 0 then .error (.timeout 5000)
  else request.answer.mapError fun _ => .rejected 0 "no verdict"

theorem truthful_intermittent : intermittent.Truthful := by
  intro past request verdict h
  unfold intermittent at h
  split at h
  · cases h
  · cases hanswer : request.answer with
    | error refused =>
      rw [hanswer] at h
      cases h
    | ok found =>
      rw [hanswer] at h
      cases h
      rfl

/-- A proof of `Q ∧ P` from `P ∧ Q`. -/
def exchangedConjuncts : Proof :=
  ((Proof.new []).run {} [.addPremise, .setText 0 "P ∧ Q",
    .addLine 1 ⟨0, false⟩, .setText 1 "P", .setRule 1 (some .simplification), .togglePremise 1 0,
    .addLine 2 ⟨0, false⟩, .setText 2 "Q", .setRule 2 (some .simplification), .togglePremise 2 0,
    .addLine 3 ⟨0, false⟩, .setText 3 "Q ∧ P", .setRule 3 (some .conjunction),
    .togglePremise 3 1, .togglePremise 3 2, .setGoalText 0 "Q ∧ P"]).1

theorem verify_eq_of_truthful_exchangedConjuncts :
    intermittent.Truthful ∧ Reachable {} exchangedConjuncts ∧
      (exchangedConjuncts.verifyLine ⟨some intermittent, none⟩ 3).map (lineReport 3) =
        (exchangedConjuncts.verifyLine ⟨none, none⟩ 3).map (lineReport 3) ∧
      (exchangedConjuncts.verifyGoal ⟨some intermittent, none⟩ 0).map (goalReport 0) =
        (exchangedConjuncts.verifyGoal ⟨none, none⟩ 0).map (goalReport 0) := by
  have hreachable : Reachable {} exchangedConjuncts := ⟨_, _, .new [], rfl⟩
  exact ⟨truthful_intermittent, hreachable,
    (verify_eq_of_truthful truthful_intermittent hreachable none 3).1,
    (verify_eq_of_truthful truthful_intermittent hreachable none 0).2⟩

-- The check of the goal is lost, so the lines are verified, and each of them is asked about.
example : (verifyGoalAt ⟨some intermittent, none⟩ exchangedConjuncts 0).answer = .correct ∧
    (verifyGoalAt ⟨some intermittent, none⟩ exchangedConjuncts 0).proof.consulted.map
      CheckRequest.target = [.goal 0, .line 1, .line 2, .line 3] := by
  decide +kernel

end Proof

end NaturalDeduction
