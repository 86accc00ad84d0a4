/-
  Verifications are visits.

  Whatever is verified, the proof afterwards is the one that the visits of single
  lines lead to, in the order in which they are made.
-/

import NaturalDeduction.Proof.Visits
import NaturalDeduction.Proofs.Verdict.Finding

namespace NaturalDeduction.Proof

variable {setting : Setting} {p : Proof}

/-! ## Visits -/

@[simp] theorem visit_nil (setting : Setting) (p : Proof) : visit setting p [] = p := rfl

theorem visit_cons (setting : Setting) (p : Proof) (index : Nat) (indices : List Nat) :
    visit setting p (index :: indices) =
      visit setting (verifyLineAt setting p index).proof indices := rfl

theorem visit_append (setting : Setting) (p : Proof) (indices more : List Nat) :
    visit setting p (indices ++ more) = visit setting (visit setting p indices) more :=
  List.foldl_append

/-- What every verification of a line keeps, visits keep. -/
theorem visit_keep (Holds : Proof → Prop)
    (hstep : ∀ {q} index, Holds q → Holds (verifyLineAt setting q index).proof)
    (indices : List Nat) (hp : Holds p) : Holds (visit setting p indices) := by
  induction indices generalizing p with
  | nil => exact hp
  | cons index indices ih => exact ih (hstep index hp)

/-- What every single verification keeps, verifying everything keeps. -/
theorem verifyEach_keep (Holds : Proof → Prop) {verify : Proof → Nat → Outcome Status}
    (hstep : ∀ {q} index, Holds q → Holds (verify q index).proof) (indices : List Nat)
    (hp : Holds p) : Holds (verifyEach verify p indices).proof := by
  induction indices generalizing p with
  | nil => exact hp
  | cons index indices ih => exact ih (hstep index hp)

theorem verifyAll_keep (Holds : Proof → Prop)
    (hline : ∀ {q} index, Holds q → Holds (verifyLineAt setting q index).proof)
    (hgoal : ∀ {q} index, Holds q → Holds (verifyGoalAt setting q index).proof) (hp : Holds p) :
    Holds (p.verifyAll setting).proof :=
  verifyEach_keep Holds hgoal _ (verifyEach_keep Holds hline _ hp)

theorem verifyDue_keep (Holds : Proof → Prop)
    (hstep : ∀ {q} index, Holds q → Holds (verifyLineAt setting q index).proof)
    (ids : List LineId) (hp : Holds p) : Holds (verifyDue setting p ids).1 := by
  induction ids generalizing p with
  | nil => exact hp
  | cons id ids ih =>
    simp only [verifyDue]
    split
    · exact ih hp
    · exact ih (hstep _ hp)

/-- What every verification of a line keeps, the passing of time keeps when the clock is on. -/
theorem advance_keep (Holds : Proof → Prop)
    (hstep : ∀ {q} index, Holds q → Holds (verifyLineAt setting q index).proof)
    (milliseconds : Nat) (hlater : Holds { p with now := p.now + milliseconds }) :
    Holds (p.advance setting milliseconds).proof :=
  verifyDue_keep Holds hstep _ hlater

theorem content_verifyAll (setting : Setting) (p : Proof) :
    (p.verifyAll setting).proof.content = p.content :=
  verifyAll_keep (fun q => q.content = p.content)
    (fun index hq => (content_verifyLineAt setting _ index).trans hq)
    (fun index hq => (content_verifyGoalAt setting _ index).trans hq) rfl

theorem content_advance (setting : Setting) (p : Proof) (milliseconds : Nat) :
    (p.advance setting milliseconds).proof.content = p.content :=
  advance_keep (fun q => q.content = p.content)
    (fun index hq => (content_verifyLineAt setting _ index).trans hq) milliseconds rfl

/-! ## Verifications are visits -/

theorem visitedFrom_cons (setting : Setting) (p : Proof) (candidate : Nat) (others : List Nat) :
    visitedFrom setting p (candidate :: others) =
      visitedAmong setting p (p.steps candidate) ++
        if (firstIncorrect setting p (p.steps candidate)).answer = none then []
        else visitedFrom setting (firstIncorrect setting p (p.steps candidate)).proof others := rfl

theorem proof_firstIncorrect (setting : Setting) (p : Proof) (steps : List Nat) :
    (firstIncorrect setting p steps).proof = visit setting p (visitedAmong setting p steps) := by
  induction steps generalizing p with
  | nil => rfl
  | cons index steps ih =>
    simp only [firstIncorrect, visitedAmong, visit_cons]
    split
    · exact ih _
    · rfl

theorem proof_reachFrom (setting : Setting) (p : Proof) (broken? : Option Nat)
    (candidates : List Nat) : (reachFrom setting p broken? candidates).proof =
      visit setting p (visitedFrom setting p candidates) := by
  induction candidates generalizing p broken? with
  | nil => cases broken? <;> rfl
  | cons candidate others ih =>
    simp only [reachFrom_cons, visitedFrom_cons, visit_append, ← proof_firstIncorrect]
    cases (firstIncorrect setting p (p.steps candidate)).answer with
    | none => rfl
    | some broken =>
      simp only [reduceCtorEq, if_false]
      exact ih ..

/-- Verifying a goal asks the checker, visits lines, and marks the goal. -/
theorem exists_verifyGoalAt_eq (setting : Setting) (p : Proof) (index : Nat) :
    ∃ consulted goals, (verifyGoalAt setting p index).proof =
      { visit setting { p with consulted } (p.visitedFor setting index) with goals } := by
  cases hgoal : p.goals[index]? with
  | none =>
    refine ⟨p.consulted, p.goals, ?_⟩
    simp [verifyGoalAt, visitedFor, hgoal]
  | some goal =>
    suffices h : ∃ consulted, (judgeGoal setting p index goal).proof =
        visit setting { p with consulted } (p.visitedFor setting index) by
      obtain ⟨consulted, hjudged⟩ := h
      exact ⟨consulted, _, by rw [proof_verifyGoalAt hgoal, hjudged]⟩
    cases hread : Sentence.read goal.text with
    | error failure => exact ⟨p.consulted, by simp [judgeGoal, visitedFor, hgoal, hread]⟩
    | ok sentence? =>
      cases sentence? with
      | none => exact ⟨p.consulted, by simp [judgeGoal, visitedFor, hgoal, hread]⟩
      | some sentence =>
        obtain ⟨consulted, hasked⟩ := exists_consult_eq setting p (.goal index)
        refine ⟨consulted, ?_⟩
        rw [judgeGoal_of_sentence hread, ← hasked]
        cases hconsult : consult setting p (.goal index) with
        | mk verdict? asked =>
          cases verdict? with
          | some verdict => simp [visitedFor, hgoal, hread, hconsult]
          | none => simp [visitedFor, hgoal, hread, hconsult, reach, proof_reachFrom]

theorem proof_verifyEach (setting : Setting) (p : Proof) (indices : List Nat) :
    (verifyEach (verifyLineAt setting) p indices).proof = visit setting p indices := by
  induction indices generalizing p with
  | nil => rfl
  | cons index indices ih => exact ih _

end NaturalDeduction.Proof
