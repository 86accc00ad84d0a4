/-
  What verification leaves as it was.

  The content of a proof is the proof without marks, checked claims, pending
  verifications, and the records of what was done. Verifying lines and goals,
  dropping marks and the passing of time change none of it. The outline is the
  content without texts and rules: which lines there are, where they stand and
  what they cite.
-/

import NaturalDeduction.Proof.Operation

namespace NaturalDeduction

/-! ## Contents of lines and goals -/

namespace Line

/-- The line without what verification leaves on it. -/
def content (line : Line) : Line :=
  { line with mark := .blank, claim? := none, due? := none }

/-- The line without its text and its rule. -/
def outline (line : Line) : Line :=
  { line.content with text := "", rule? := none }

@[simp] theorem content_invalidate (line : Line) : line.invalidate.1.content = line.content := rfl

end Line

namespace Goal

/-- The goal without its mark. -/
def content (goal : Goal) : Goal :=
  { goal with mark := .blank }

/-- The goal without its text. -/
def outline (goal : Goal) : Goal :=
  { goal.content with text := "" }

@[simp] theorem content_setMark (mark : Mark) (goal : Goal) :
    (goal.setMark mark).1.content = goal.content := rfl

@[simp] theorem content_reset (goal : Goal) : goal.reset.1.content = goal.content := rfl

end Goal

namespace Proof

/-- The proof without what verification leaves on it. -/
def content (proof : Proof) : Proof :=
  { proof with
    lines := proof.lines.map Line.content
    goals := proof.goals.map Goal.content
    edits := 0
    consulted := []
    now := 0 }

/-- The proof without texts, rules and restriction. -/
def outline (proof : Proof) : Proof :=
  { proof.content with
    lines := proof.lines.map Line.outline
    goals := proof.goals.map Goal.outline
    restriction := [] }

/-! ## Lists changed in one place -/

theorem map_modify_eq {α β : Type} {f : α → α} {g : α → β} (h : ∀ a, g (f a) = g a)
    (as : List α) (index : Nat) : (as.modify index f).map g = as.map g := by
  apply List.ext_getElem?
  intro j
  rw [List.getElem?_map, List.getElem?_map, List.getElem?_modify]
  cases as[j]? with
  | none => rfl
  | some a =>
    by_cases hj : index = j <;> simp [hj, h]

theorem map_set_eq {α β : Type} {g : α → β} {as : List α} {index : Nat} {a b : α}
    (ha : as[index]? = some a) (h : g b = g a) : (as.set index b).map g = as.map g := by
  apply List.ext_getElem?
  intro j
  rw [List.getElem?_map, List.getElem?_map, List.getElem?_set]
  by_cases hj : index = j
  · subst hj
    obtain ⟨hlt, rfl⟩ := List.getElem?_eq_some_iff.1 ha
    simp [hlt, h]
  · simp [hj]

/-! ## What keeps the content -/

theorem content_notingLine {proof : Proof} {id : LineId} {change : Line → Line × List Event}
    (h : ∀ line, (change line).1.content = line.content) :
    (proof.notingLine id change).1.content = proof.content := by
  unfold notingLine
  split
  · rfl
  · rename_i index _
    simp only [content, notingAt_fst, map_modify_eq h]

@[simp] theorem content_invalidateEach (proof : Proof) (ids : List LineId) :
    (proof.invalidateEach ids).1.content = proof.content := by
  -- Each step leaves the content as it was, so the proof is generalised.
  induction ids generalizing proof with
  | nil => rfl
  | cons id ids ih =>
    simp only [invalidateEach]
    rw [ih, content_notingLine Line.content_invalidate]

@[simp] theorem content_resetGoals (proof : Proof) :
    proof.resetGoals.1.content = proof.content := by
  simp [resetGoals, content, Function.comp_def]

/-- Asking the external checker changes only the record of what it was asked. -/
theorem exists_consult_eq (setting : Setting) (proof : Proof) (target : Target) :
    ∃ consulted, (consult setting proof target).2 = { proof with consulted } := by
  unfold consult
  split
  · exact ⟨proof.consulted, rfl⟩
  · refine ⟨proof.consulted ++ [⟨proof.document, target⟩], ?_⟩
    -- The request is recorded whatever the checker answers.
    dsimp only
    split <;> rfl

theorem exists_judgeLine_eq (setting : Setting) (proof : Proof) (index : Nat) (line : Line) :
    ∃ consulted, (judgeLine setting proof index line).2.2 = { proof with consulted } := by
  unfold judgeLine
  split
  · exact ⟨proof.consulted, rfl⟩
  · split
    · exact ⟨proof.consulted, rfl⟩
    · exact exists_consult_eq setting proof (.line index)

@[simp] theorem content_verifyLineAt (setting : Setting) (proof : Proof) (index : Nat) :
    (verifyLineAt setting proof index).proof.content = proof.content := by
  unfold verifyLineAt
  split
  · rfl
  · rename_i line hline
    obtain ⟨consulted, hasked⟩ := exists_judgeLine_eq setting proof index line
    simp only [hasked, content]
    rw [map_set_eq hline]
    rfl

@[simp] theorem content_firstIncorrect (setting : Setting) (proof : Proof) (steps : List Nat) :
    (firstIncorrect setting proof steps).proof.content = proof.content := by
  induction steps generalizing proof with
  | nil => rfl
  | cons index steps ih =>
    simp only [firstIncorrect]
    split
    · simp only [ih, content_verifyLineAt]
    · simp only [content_verifyLineAt]

@[simp] theorem content_reachFrom (setting : Setting) (proof : Proof) (broken? : Option Nat)
    (candidates : List Nat) :
    (reachFrom setting proof broken? candidates).proof.content = proof.content := by
  induction candidates generalizing proof broken? with
  | nil => cases broken? <;> rfl
  | cons candidate others ih =>
    simp only [reachFrom]
    split
    · simp only [content_firstIncorrect]
    · simp only [ih, content_firstIncorrect]

theorem content_judgeGoal (setting : Setting) (proof : Proof) (index : Nat) (goal : Goal) :
    (judgeGoal setting proof index goal).proof.content = proof.content := by
  unfold judgeGoal
  -- Only the record of requests differs before the search.
  obtain ⟨consulted, hasked⟩ := exists_consult_eq setting proof (.goal index)
  split
  · rfl
  · rfl
  · split
    · rename_i asked hconsult
      rw [hconsult] at hasked
      rw [show asked = _ from hasked]
      rfl
    · rename_i asked hconsult
      rw [hconsult] at hasked
      simp only [reach, content_reachFrom]
      rw [show asked = _ from hasked]
      rfl

/-! ## Proofs of one content -/

theorem exists_goal_of_content_eq {p q : Proof} (h : q.content = p.content) {index : Nat}
    {goal : Goal} (hgoal : p.goals[index]? = some goal) :
    ∃ other, q.goals[index]? = some other ∧ other.content = goal.content := by
  have hgoals : q.goals.map Goal.content = p.goals.map Goal.content := congrArg Proof.goals h
  have hat := congrArg (·[index]?) hgoals
  simpa [hgoal] using hat

theorem length_goals_of_content_eq {p q : Proof} (h : q.content = p.content) :
    q.goals.length = p.goals.length := by
  have hgoals : q.goals.map Goal.content = p.goals.map Goal.content := congrArg Proof.goals h
  simpa using congrArg List.length hgoals

@[simp] theorem content_verifyGoalAt (setting : Setting) (proof : Proof) (index : Nat) :
    (verifyGoalAt setting proof index).proof.content = proof.content := by
  unfold verifyGoalAt
  split
  · rfl
  · rename_i goal hgoal
    have hjudged := content_judgeGoal setting proof index goal
    obtain ⟨other, hother, hcontent⟩ := exists_goal_of_content_eq hjudged hgoal
    rw [← hjudged]
    simp only [content]
    rw [map_set_eq hother]
    rw [Goal.content_setMark, hcontent]

theorem outline_eq_of_content_eq {p q : Proof} (h : q.content = p.content) :
    q.outline = p.outline := by
  have hlines : q.lines.map Line.content = p.lines.map Line.content := congrArg Proof.lines h
  have hgoals : q.goals.map Goal.content = p.goals.map Goal.content := congrArg Proof.goals h
  have houtlines : q.lines.map Line.outline = p.lines.map Line.outline := by
    have hmap := congrArg
      (List.map fun line : Line => { line with text := "", rule? := none }) hlines
    rw [List.map_map, List.map_map] at hmap
    exact hmap
  have houtgoals : q.goals.map Goal.outline = p.goals.map Goal.outline := by
    have hmap := congrArg (List.map fun goal : Goal => { goal with text := "" }) hgoals
    rw [List.map_map, List.map_map] at hmap
    exact hmap
  unfold outline
  rw [h, houtlines, houtgoals]

/-! ## The lines at the positions -/

theorem lineId?_congr {p q : Proof} (h : q.lines.map Line.id = p.lines.map Line.id) :
    q.lineId? = p.lineId? := by
  funext index
  rw [lineId?, lineId?, ← List.getElem?_map, ← List.getElem?_map, h]

theorem ids_eq_of_outline_eq {p q : Proof} (h : q.outline = p.outline) :
    q.lines.map Line.id = p.lines.map Line.id := by
  have hlines := congrArg (fun proof => proof.lines.map Line.id) h
  simpa [outline, content, Line.outline, Line.content, Function.comp_def] using hlines

theorem ids_eq_of_content_eq {p q : Proof} (h : q.content = p.content) :
    q.lines.map Line.id = p.lines.map Line.id :=
  ids_eq_of_outline_eq (outline_eq_of_content_eq h)

theorem lineId?_eq_of_content_eq {p q : Proof} (h : q.content = p.content) :
    q.lineId? = p.lineId? :=
  lineId?_congr (ids_eq_of_content_eq h)

end Proof

end NaturalDeduction
