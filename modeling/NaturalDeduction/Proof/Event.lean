/-
  Notifications about a proof.

  Every change of what a proof shows is announced by an event, in the order in
  which the changes happen; a value that stays as it was is not announced.
-/

import NaturalDeduction.Proof.Mark
import NaturalDeduction.Rule.Basic

namespace NaturalDeduction

/-- The identity of a line, which it keeps wherever it moves. -/
abbrev LineId := Nat

/-- The identity of a goal, which it keeps wherever it moves. -/
abbrev GoalId := Nat

/-- How a line's identity is displayed. -/
def displayLine (id : LineId) : String := "L" ++ toString id

/-- How a goal's identity is displayed. -/
def displayGoal (id : GoalId) : String := "G" ++ toString id

/-- The notifications. Numbers are positions counted from 0. -/
inductive Event where
  | lineAdded (line : LineId) (number level : Nat) (assumption : Bool)
  | lineRemoved (line : LineId)
  | lineNumberChanged (line : LineId) (number : Nat)
  | lineTextChanged (line : LineId) (text : String)
  | lineStatusChanged (line : LineId) (status : Status) (message? : Option String)
  | lineRangeChanged (line : LineId) (range? : Option Span)
  | premisesChanged (line : LineId) (premises : List LineId)
  | ruleChanged (line : LineId) (rule? : Option Rule)
  | goalAdded (goal : GoalId) (number : Nat)
  | goalRemoved (goal : GoalId)
  | goalNumberChanged (goal : GoalId) (number : Nat)
  | goalTextChanged (goal : GoalId) (text : String)
  | goalStatusChanged (goal : GoalId) (status : Status) (message? : Option String)
  | goalRangeChanged (goal : GoalId) (range? : Option Span)
  deriving DecidableEq, Repr

/-- Events for the parts of a mark that change: status and message together, and the highlight. -/
def Mark.changes (before after : Mark) (statusEvent : Status → Option String → Event)
    (rangeEvent : Option Span → Event) : List Event :=
  (if before.status = after.status ∧ before.message? = after.message? then []
    else [statusEvent after.status after.message?])
  ++ (if before.range? = after.range? then [] else [rangeEvent after.range?])

/-- Changes each element of a list in order, collecting the events. -/
def noting {α : Type} (change : α → α × List Event) : List α → List α × List Event
  | [] => ([], [])
  | a :: as =>
    let (changed, events) := change a
    let (rest, more) := noting change as
    (changed :: rest, events ++ more)

/-- Changes the element at an index, if there is one. -/
def notingAt {α : Type} (index : Nat) (change : α → α × List Event) (as : List α) :
    List α × List Event :=
  match as[index]? with
  | none => (as, [])
  | some a =>
    let (changed, events) := change a
    (as.set index changed, events)

@[simp] theorem noting_fst {α : Type} (change : α → α × List Event) (as : List α) :
    (noting change as).1 = as.map fun a => (change a).1 := by
  induction as with
  | nil => rfl
  | cons a as ih => simp [noting, ih]

@[simp] theorem noting_snd {α : Type} (change : α → α × List Event) (as : List α) :
    (noting change as).2 = as.flatMap fun a => (change a).2 := by
  induction as with
  | nil => rfl
  | cons a as ih => simp [noting, ih]

@[simp] theorem notingAt_fst {α : Type} (index : Nat) (change : α → α × List Event)
    (as : List α) : (notingAt index change as).1 = as.modify index fun a => (change a).1 := by
  unfold notingAt
  split
  · rename_i hnone
    rw [List.modify_eq_self (List.getElem?_eq_none_iff.1 hnone)]
  · rename_i a hsome
    apply List.ext_getElem?
    intro j
    by_cases hj : index = j
    · subst hj
      obtain ⟨hlt, rfl⟩ := List.getElem?_eq_some_iff.1 hsome
      simp [hlt]
    · simp [hj]

/-- Only the element at the index causes events. -/
theorem mem_notingAt_snd {α : Type} {index : Nat} {change : α → α × List Event} {as : List α}
    {event : Event} : event ∈ (notingAt index change as).2 ↔
      ∃ a, as[index]? = some a ∧ event ∈ (change a).2 := by
  unfold notingAt
  split <;> simp_all

end NaturalDeduction
