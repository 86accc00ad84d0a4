/-
  What is counted and timed.

  Beside its content a proof keeps the number of edits and the time on its clock.
  Neither depends on what verification finds, and only an operation as a whole
  counts as an edit: the changes that it is made of leave both alone.
-/

import NaturalDeduction.Proofs.Store.Performed
import NaturalDeduction.Proofs.Verdict.Visits

namespace NaturalDeduction.Proof

/-- The number of edits and the time on the clock. -/
def ledger (p : Proof) : Nat × Nat := (p.edits, p.now)

variable {setting : Setting} {p q : Proof}

/-! ## Marks -/

theorem ledger_notingLine (p : Proof) (id : LineId) (change : Line → Line × List Event) :
    (p.notingLine id change).1.ledger = p.ledger := by
  unfold notingLine
  split <;> rfl

@[simp] theorem ledger_invalidateEach (p : Proof) (ids : List LineId) :
    (p.invalidateEach ids).1.ledger = p.ledger := by
  induction ids generalizing p with
  | nil => rfl
  | cons id ids ih => rw [invalidateEach, ih, ledger_notingLine]

theorem ledger_resetGoals (p : Proof) : p.resetGoals.1.ledger = p.ledger := rfl

theorem ledger_placeAll (rows : Layout) (p : Proof) : (p.placeAll rows).1.ledger = p.ledger := rfl

@[simp] theorem ledger_rearranged (before : List (LineId × List LineId)) (rows : Layout)
    (p : Proof) : (rearranged before rows p).1.ledger = p.ledger := by
  simp only [rearranged]
  rw [ledger_resetGoals, ledger_invalidateEach, ledger_placeAll]

/-! ## Verification -/

@[simp] theorem ledger_verifyLineAt (setting : Setting) (p : Proof) (index : Nat) :
    (verifyLineAt setting p index).proof.ledger = p.ledger := by
  unfold verifyLineAt
  split
  · rfl
  · rename_i line _
    obtain ⟨consulted, hasked⟩ := exists_judgeLine_eq setting p index line
    simp only [hasked]
    rfl

@[simp] theorem ledger_visit (setting : Setting) (p : Proof) (indices : List Nat) :
    (visit setting p indices).ledger = p.ledger :=
  visit_keep (fun q => q.ledger = p.ledger)
    (fun index h => (ledger_verifyLineAt setting _ index).trans h) indices rfl

@[simp] theorem ledger_verifyGoalAt (setting : Setting) (p : Proof) (index : Nat) :
    (verifyGoalAt setting p index).proof.ledger = p.ledger := by
  obtain ⟨consulted, goals, hverified⟩ := exists_verifyGoalAt_eq setting p index
  rw [hverified]
  exact ledger_visit setting { p with consulted } _

@[simp] theorem ledger_verifyAll (setting : Setting) (p : Proof) :
    (p.verifyAll setting).proof.ledger = p.ledger :=
  verifyAll_keep (fun q => q.ledger = p.ledger)
    (fun index h => (ledger_verifyLineAt setting _ index).trans h)
    (fun index h => (ledger_verifyGoalAt setting _ index).trans h) rfl

/-! ## Edits -/

@[simp] theorem ledger_edited {α : Type} (outcome : Outcome α) :
    (edited outcome).proof.ledger = (outcome.proof.edits + 1, outcome.proof.now) := rfl

@[simp] theorem ledger_insertLine (p : Proof) (index : Nat) (row : Row) :
    (p.insertLine index row).proof.ledger = p.ledger := by
  rw [proof_insertLine, ledger_rearranged]
  rfl

@[simp] theorem ledger_cutLines (p : Proof) (index : Nat) :
    (p.cutLines index).proof.ledger = p.ledger := by
  rw [proof_cutLines, ledger_rearranged]
  rfl

@[simp] theorem ledger_writeLine (setting : Setting) (p : Proof) (index : Nat) (text : String) :
    (writeLine setting p index text).1.ledger = p.ledger := by
  simp only [writeLine, notingAt_fst]
  rw [ledger_resetGoals, ledger_invalidateEach]
  rfl

@[simp] theorem ledger_chooseRule (setting : Setting) (p : Proof) (index : Nat)
    (rule? : Option Rule) : (chooseRule setting p index rule?).proof.ledger = p.ledger :=
  ledger_verifyLineAt ..

@[simp] theorem ledger_toggleCitation (setting : Setting) (p : Proof) (index : Nat) (line : Line)
    (id : LineId) : (toggleCitation setting p index line id).proof.ledger = p.ledger :=
  ledger_verifyLineAt ..

theorem edits_eq_of_ledger_eq (h : q.ledger = p.ledger) : q.edits = p.edits := congrArg Prod.fst h

theorem now_eq_of_ledger_eq (h : q.ledger = p.ledger) : q.now = p.now := congrArg Prod.snd h

end NaturalDeduction.Proof
