/-
  No verdict goes stale.

  Whatever is done to a proof whose claims are checked by their rules alone, a
  line or a goal that shows a verdict shows the one that verifying it now would
  find.
-/

import NaturalDeduction.Proofs.Verdict.Fresh

namespace NaturalDeduction.Proof

variable {setting : Setting} {p : Proof} {index : Nat} {line : Line}

theorem getElem?_verifyLineAt (h : setting.checker? = none)
    (hline : p.lines[index]? = some line) (i : Nat) :
    (verifyLineAt setting p index).proof.lines[i]? =
      if i = index then
        some { line with
          due? := none
          mark := (p.judgement index line).1
          claim? := (p.judgement index line).2 }
      else p.lines[i]? := by
  have hlt : index < p.lines.length := (List.getElem?_eq_some_iff.1 hline).1
  rw [verifyLineAt_proof h hline, List.getElem?_set]
  by_cases hi : i = index
  · subst hi
    simp [hlt]
  · simp [hi, Ne.symm hi]

/-! ## Verdicts are those that a verification finds -/

/-- What lines and goals show is what verifying them now would make them show; a line that shows
nothing has no checked claim. -/
structure Current (setting : Setting) (p : Proof) : Prop where
  claim_eq_none : ∀ (index : Nat) (line : Line), p.lines[index]? = some line →
    line.mark.status = .unmarked → line.claim? = none
  verifyLine_eq : ∀ (index : Nat) (line : Line), p.lines[index]? = some line →
    line.mark.status ≠ .unmarked → ∃ (outcome : Outcome Status) (verified : Line),
      p.verifyLine setting index = .ok outcome ∧ outcome.answer = line.mark.status ∧
      outcome.proof.lines[index]? = some verified ∧
      verified.mark.status = line.mark.status ∧ verified.mark.range? = line.mark.range? ∧
      verified.claim? = line.claim?
  verifyGoal_eq : ∀ (index : Nat) (goal : Goal), p.goals[index]? = some goal →
    goal.mark.status ≠ .unmarked → ∃ (outcome : Outcome Status) (verified : Goal),
      p.verifyGoal setting index = .ok outcome ∧ outcome.answer = goal.mark.status ∧
      outcome.proof.goals[index]? = some verified ∧ verified.mark = goal.mark

theorem Fresh.current (hp : Fresh p) (h : setting.checker? = none) : Current setting p := by
  refine ⟨fun index line hline => (hp.line index line id hline).claim_eq_none,
    fun index line hline hstatus => ?_, fun index goal hgoal hstatus => ?_⟩
  · have hshown := (hp.line index line id hline).shown_eq hstatus
    simp only [Line.shown, gist, Prod.mk.injEq] at hshown
    obtain ⟨hstatus', hrange, hclaim⟩ := hshown
    have hlt := (List.getElem?_eq_some_iff.1 hline).1
    refine ⟨Proof.verifyLineAt setting p index,
      { line with
        due? := none
        mark := (p.judgement index line).1
        claim? := (p.judgement index line).2 },
      verifyLine_eq_ok setting hlt, ?_, ?_, hstatus'.symm, hrange.symm, hclaim.symm⟩
    · rw [verifyLineAt_answer h hline, hstatus']
    · rw [getElem?_verifyLineAt h hline, if_pos rfl]
  · have hmark := hp.goal goal (List.mem_of_getElem? hgoal) hstatus
    have hlt := (List.getElem?_eq_some_iff.1 hgoal).1
    have hjudged := judgeGoal_answer h p index goal
    have hkept := length_goals_of_content_eq (content_judgeGoal setting p index goal)
    refine ⟨Proof.verifyGoalAt setting p index,
      (goal.setMark (Proof.judgeGoal setting p index goal).answer).1,
      verifyGoal_eq_ok setting hlt, ?_, ?_, ?_⟩
    · rw [verifyGoalAt_answer h hgoal, ← hmark]
    · simp only [Proof.verifyGoalAt, hgoal]
      rw [List.getElem?_set_self (hkept ▸ hlt)]
    · rw [hjudged, ← hmark]
      rfl

/-- No operation leaves a stale verdict behind, where claims are checked by their rules alone. -/
theorem current_run (h : setting.checker? = none) (operations : List Operation) {start : Proof}
    (hstart : Initial start) : Current setting (start.run setting operations).1 :=
  ((Fresh.initial hstart).run (.initial hstart) h operations).current h

/-- A line and a goal that were found correct, with the goal edited and verified again. -/
theorem current_run_reiteration :
    ({} : Setting).checker? = none ∧ Initial (.new []) ∧
      Current {} ((Proof.new []).run {} [.addPremise, .setText 0 "P", .addLine 1 ⟨0, false⟩,
        .setText 1 "P", .togglePremise 1 0, .setRule 1 (some .reiteration), .setGoalText 0 "P",
        .verifyGoal 0, .setGoalText 0 "Q", .verifyGoal 0]).1 :=
  ⟨rfl, .new [], current_run rfl _ (.new [])⟩

end NaturalDeduction.Proof
