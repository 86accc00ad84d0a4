/-
  Which changes announce a new line or goal.

  Only adding a line and adding a goal do. All other events speak of lines and
  goals that are there already, so that the announced identities are the ones
  that were issued.
-/

import NaturalDeduction.Proofs.Store.Change

namespace NaturalDeduction

namespace Event

/-- The identity and the row of the line that the event announces. -/
def addedLine? : Event → Option (LineId × Row)
  | .lineAdded line _ level assumption => some (line, ⟨level, assumption⟩)
  | _ => none

/-- The identity of the goal that the event announces. -/
def addedGoal? : Event → Option GoalId
  | .goalAdded goal _ => some goal
  | _ => none

end Event

/-- Events none of which announces a new line or goal. -/
def Quiet (events : List Event) : Prop :=
  ∀ event ∈ events, event.addedLine? = none ∧ event.addedGoal? = none

namespace Quiet

variable {events more : List Event} {event : Event}

@[simp] theorem nil : Quiet [] := by simp [Quiet]

@[simp] theorem cons_iff : Quiet (event :: events) ↔
    (event.addedLine? = none ∧ event.addedGoal? = none) ∧ Quiet events := by
  simp [Quiet]

@[simp] theorem append_iff : Quiet (events ++ more) ↔ Quiet events ∧ Quiet more :=
  List.forall_mem_append

theorem filterMap_addedLine? (h : Quiet events) : events.filterMap Event.addedLine? = [] :=
  List.filterMap_eq_nil_iff.2 fun event hevent => (h event hevent).1

theorem filterMap_addedGoal? (h : Quiet events) : events.filterMap Event.addedGoal? = [] :=
  List.filterMap_eq_nil_iff.2 fun event hevent => (h event hevent).2

theorem noting {α : Type} {change : α → α × List Event} {as : List α}
    (h : ∀ a, Quiet (change a).2) : Quiet (noting change as).2 := by
  intro event hevent
  rw [noting_snd, List.mem_flatMap] at hevent
  obtain ⟨a, -, hevent⟩ := hevent
  exact h a event hevent

theorem notingAt {α : Type} {index : Nat} {change : α → α × List Event} {as : List α}
    (h : ∀ a, Quiet (change a).2) : Quiet (notingAt index change as).2 := by
  intro event hevent
  obtain ⟨a, -, hevent⟩ := mem_notingAt_snd.1 hevent
  exact h a event hevent

end Quiet

/-! ## Lines and goals -/

namespace Line

variable (line : Line)

@[simp] theorem quiet_setNumber (number : Nat) : Quiet (line.setNumber number).2 := by
  unfold setNumber
  split <;> simp [Event.addedLine?, Event.addedGoal?]

@[simp] theorem quiet_setMark (mark : Mark) : Quiet (line.setMark mark).2 := by
  simp only [setMark, Mark.changes, Quiet.append_iff]
  constructor <;> split <;> simp [Event.addedLine?, Event.addedGoal?]

@[simp] theorem quiet_invalidate : Quiet line.invalidate.2 :=
  quiet_setMark _ _

@[simp] theorem quiet_settle (mark : Mark) (claim? : Option Claim) :
    Quiet (line.settle mark claim?).2 :=
  quiet_setMark _ _

@[simp] theorem quiet_setText (text : String) : Quiet (line.setText text).2 := by
  unfold setText
  split <;> simp [Event.addedLine?, Event.addedGoal?]

@[simp] theorem quiet_setRule (rule? : Option Rule) : Quiet (line.setRule rule?).2 := by
  unfold setRule
  split <;> simp [Event.addedLine?, Event.addedGoal?]

@[simp] theorem quiet_setPremises (premises : List LineId) :
    Quiet (line.setPremises premises).2 := by
  unfold setPremises
  split <;> simp [Event.addedLine?, Event.addedGoal?]

end Line

namespace Goal

variable (goal : Goal)

@[simp] theorem quiet_setNumber (number : Nat) : Quiet (goal.setNumber number).2 := by
  unfold setNumber
  split <;> simp [Event.addedLine?, Event.addedGoal?]

@[simp] theorem quiet_setMark (mark : Mark) : Quiet (goal.setMark mark).2 := by
  simp only [setMark, Mark.changes, Quiet.append_iff]
  constructor <;> split <;> simp [Event.addedLine?, Event.addedGoal?]

@[simp] theorem quiet_reset : Quiet goal.reset.2 :=
  quiet_setMark _ _

@[simp] theorem quiet_setText (text : String) : Quiet (goal.setText text).2 := by
  unfold setText
  split <;> simp [Event.addedLine?, Event.addedGoal?]

end Goal

/-! ## Proofs -/

namespace Proof

variable (setting : Setting) (p : Proof)

theorem quiet_notingLine (id : LineId) {change : Line → Line × List Event}
    (h : ∀ line, Quiet (change line).2) : Quiet (p.notingLine id change).2 := by
  unfold notingLine
  split
  · exact .nil
  · exact .notingAt h

@[simp] theorem quiet_invalidateEach (ids : List LineId) : Quiet (p.invalidateEach ids).2 := by
  induction ids generalizing p with
  | nil => exact .nil
  | cons id ids ih => simp [invalidateEach, ih, quiet_notingLine]

@[simp] theorem quiet_resetGoals : Quiet p.resetGoals.2 :=
  .noting Goal.quiet_reset

theorem quiet_place (index : Nat) (line : Line) : Quiet (p.place index line).2 := by
  unfold place
  simp only
  split <;> simp

@[simp] theorem quiet_placeAll (rows : Layout) : Quiet (p.placeAll rows).2 :=
  .noting fun _ => quiet_place _ _ _

@[simp] theorem quiet_rearranged (before : List (LineId × List LineId)) (rows : Layout) :
    Quiet (p.rearranged before rows).2 := by
  simp [rearranged]

@[simp] theorem quiet_renumberGoals : Quiet p.renumberGoals.2 :=
  .noting fun _ => Goal.quiet_setNumber _ _

@[simp] theorem quiet_verifyLineAt (index : Nat) : Quiet (verifyLineAt setting p index).events := by
  unfold verifyLineAt
  split <;> simp

@[simp] theorem quiet_firstIncorrect (steps : List Nat) :
    Quiet (firstIncorrect setting p steps).events := by
  induction steps generalizing p with
  | nil => exact .nil
  | cons index steps ih =>
    simp only [firstIncorrect]
    split <;> simp [ih]

@[simp] theorem quiet_reachFrom (broken? : Option Nat) (candidates : List Nat) :
    Quiet (reachFrom setting p broken? candidates).events := by
  induction candidates generalizing p broken? with
  | nil => cases broken? <;> exact .nil
  | cons candidate others ih =>
    simp only [reachFrom]
    split <;> simp [ih]

theorem quiet_judgeGoal (index : Nat) (goal : Goal) :
    Quiet (judgeGoal setting p index goal).events := by
  unfold judgeGoal
  split
  · exact .nil
  · exact .nil
  -- The external checker announces nothing; the search verifies lines.
  · split
    · exact .nil
    · exact quiet_reachFrom _ _ _ _

@[simp] theorem quiet_verifyGoalAt (index : Nat) : Quiet (verifyGoalAt setting p index).events := by
  unfold verifyGoalAt
  split
  · exact .nil
  · simp [quiet_judgeGoal]

theorem quiet_writeLine (index : Nat) (text : String) :
    Quiet (writeLine setting p index text).2 := by
  simp only [writeLine, Quiet.append_iff]
  exact ⟨⟨.notingAt fun _ => Line.quiet_setText _ _, quiet_invalidateEach _ _⟩,
    quiet_resetGoals _⟩

theorem quiet_chooseRule (index : Nat) (rule? : Option Rule) :
    Quiet (chooseRule setting p index rule?).events := by
  simp only [chooseRule, Quiet.append_iff]
  exact ⟨⟨.notingAt fun _ => Line.quiet_setRule _ _, quiet_resetGoals _⟩,
    quiet_verifyLineAt _ _ _⟩

theorem quiet_toggleCitation (index : Nat) (line : Line) (id : LineId) :
    Quiet (toggleCitation setting p index line id).events := by
  simp only [toggleCitation, Quiet.append_iff]
  exact ⟨⟨.notingAt fun _ => Line.quiet_setPremises _ _, quiet_resetGoals _⟩,
    quiet_verifyLineAt _ _ _⟩

theorem quiet_restrict (rules : List Rule) : Quiet (p.restrict rules).events := by
  simp only [restrict, edited, Quiet.append_iff]
  exact ⟨.noting Line.quiet_invalidate, quiet_resetGoals _⟩

theorem quiet_writeGoal (index : Nat) (text : String) : Quiet (p.writeGoal index text).events :=
  .notingAt fun _ => Goal.quiet_setText _ _

end Proof

end NaturalDeduction
