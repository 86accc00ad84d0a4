/-
  Verdicts that are not stale.

  A line is fresh when it shows nothing, or exactly what a verification would
  find now; a proof is fresh when its lines and goals are. Where claims are
  checked by their rules alone, this is a condition that every verification
  establishes, so it holds of every proof that work leads to.
-/

import NaturalDeduction.Proofs.Verdict.Upkeep

namespace NaturalDeduction

/-- What a line shows of its verification: the status, the highlight and the checked claim. The
message is left out: it may name a line by its number, and a line that only moves is not verified
again. -/
def Line.shown (line : Line) : Status × Option Span × Option Claim :=
  (line.mark.status, line.mark.range?, line.claim?)

namespace Proof

/-- What a verification would make a line show, without the message again. -/
def gist (p : Proof) (index : Nat) (line : Line) : Status × Option Span × Option Claim :=
  ((p.judgement index line).1.status, (p.judgement index line).1.range?,
    (p.judgement index line).2)

/-- A line at a position shows nothing, or what a verification would find. -/
structure FreshLine (p : Proof) (index : Nat) (line : Line) : Prop where
  claim_eq_none : line.mark.status = .unmarked → line.claim? = none
  shown_eq : line.mark.status ≠ .unmarked → line.shown = p.gist index line

/-- A goal shows nothing, or what a verification would find. -/
def FreshGoal (p : Proof) (goal : Goal) : Prop :=
  goal.mark.status ≠ .unmarked → goal.mark = p.goalJudgement goal

variable {setting : Setting} {p q : Proof} {index : Nat} {line : Line}

/-! ## What a verdict hangs on -/

theorem lineMark_status_ne_unmarked (verdict : Verdict) :
    (lineMark verdict).status ≠ .unmarked := by
  cases verdict <;> simp [lineMark, Mark.plain, Mark.invalid]

/-- What is left unmarked has no claim. -/
theorem judgement_claim_eq_none (h : (p.judgement index line).1.status = .unmarked) :
    (p.judgement index line).2 = none := by
  unfold judgement at h ⊢
  cases hexamine : examine p.restriction line with
  | settled mark => rfl
  | claims conclusion rule =>
    rw [hexamine] at h
    cases hpremises : p.premisesOf index line with
    | error unreadable => rfl
    | ok premises =>
      simp only [hpremises] at h
      exact absurd h (lineMark_status_ne_unmarked _)

/-- A verdict hangs on what the line is found to be by itself and on its premises. Where premises
are unreadable, it does not matter which. -/
theorem gist_congr {i j : Nat} {line other : Line}
    (hexamine : examine q.restriction other = examine p.restriction line)
    (hpremises : (q.premisesOf j other).toOption = (p.premisesOf i line).toOption) :
    q.gist j other = p.gist i line := by
  unfold gist judgement
  rw [hexamine]
  cases examine p.restriction line with
  | settled mark => rfl
  | claims conclusion rule =>
    -- Where one list of premises is unreadable, so is the other, and both lines show the same.
    cases hp : p.premisesOf i line with
    | error unreadable =>
      rw [hp] at hpremises
      cases hq : q.premisesOf j other with
      | error unreadable => rfl
      | ok premises =>
        rw [hq] at hpremises
        cases hpremises
    | ok premises =>
      rw [hp] at hpremises
      cases hq : q.premisesOf j other with
      | error unreadable =>
        rw [hq] at hpremises
        cases hpremises
      | ok others =>
        rw [hq] at hpremises
        cases hpremises
        rfl

/-- A line that shows what another one shows is as fresh, if their verdicts are the same. -/
theorem FreshLine.congr {i j : Nat} {line other : Line} (hline : p.FreshLine i line)
    (hshown : other.shown = line.shown) (hgist : q.gist j other = p.gist i line) :
    q.FreshLine j other := by
  have hstatus : other.mark.status = line.mark.status := congrArg Prod.fst hshown
  have hclaim : other.claim? = line.claim? := congrArg (fun shown => shown.2.2) hshown
  refine ⟨fun h => ?_, fun h => ?_⟩
  · rw [hclaim]
    exact hline.claim_eq_none (hstatus ▸ h)
  · rw [hshown, hgist]
    exact hline.shown_eq (hstatus ▸ h)

/-! ## Fresh proofs -/

/-- The condition of lines and goals that show no stale verdict. -/
def freshness : Condition where
  onLine := FreshLine
  onGoal := FreshGoal
  congr_line hline hmark hclaim hexamine hpremises := by
    refine hline.congr ?_ (gist_congr hexamine (toOption_premisesOf_eq_of_premisesById hpremises))
    rw [Line.shown, Line.shown, hmark, hclaim]
  line_blank _ _ _ hmark hclaim :=
    ⟨fun _ => hclaim, fun h => absurd (congrArg Mark.status hmark) h⟩
  congr_goal {p q goal other} hgoal hvisible htext hmark := by
    intro hstatus
    rw [goalJudgement_congr (.of_visible_eq hvisible) htext, hmark]
    exact hgoal (hmark ▸ hstatus)
  goal_blank _ _ hmark := fun h => absurd (congrArg Mark.status hmark) h

/-- No line and no goal shows a stale verdict. -/
abbrev Fresh (p : Proof) : Prop := freshness.Holds p

theorem lineFinding_eq_judgement (h : setting.checker? = none) (p : Proof) (index : Nat)
    (line : Line) : p.lineFinding setting index line = p.judgement index line := by
  simp only [lineFinding, judgeLine_eq h]

/-- Without an external checker, what a verification leaves is what it would find again. -/
theorem established_freshness (h : setting.checker? = none) (p : Proof) :
    freshness.Established setting p := by
  refine ⟨fun {q} _ index line => ?_, fun {q} _ index goal _ => ?_⟩
  · rw [lineFinding_eq_judgement h]
    exact ⟨judgement_claim_eq_none, fun _ => rfl⟩
  · have hfinding := judgeGoal_answer h q index goal
    exact hfinding.trans (goalJudgement_congr (.of_visible_eq rfl) rfl).symm

/-- Nothing is stale where work begins, since nothing is verified. -/
theorem Fresh.initial (h : Initial p) : Fresh p := Condition.Holds.initial freshness h

/-- Operations lead from a proof without stale verdicts to proofs without stale verdicts. -/
theorem Fresh.run (hp : Fresh p) (hwell : WellFormed p) (h : setting.checker? = none)
    (operations : List Operation) : Fresh (p.run setting operations).1 :=
  Condition.Holds.run hp hwell (established_freshness h) operations

end Proof

end NaturalDeduction
