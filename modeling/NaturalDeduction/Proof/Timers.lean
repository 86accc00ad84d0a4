/-
  Timers.

  A text that is replaced starts a timer, and the line is verified when the
  timer is due. A line has a slot for one timer: starting another one aborts the
  one before, and so does verifying the line or removing it. Aborting does not
  reach a timer that is about to fire, so timers present the generation that
  they were started with, and one that was overtaken is turned away.
-/

import Mathlib.Data.List.Sort
import NaturalDeduction.Proof.Visits

namespace NaturalDeduction

/-! ## Slots -/

/-- A timer that was started for a line. -/
structure Timer where
  handle : Nat
  line : LineId
  generation : Nat
  due : Nat
  deriving DecidableEq, Repr

/-- What a line holds of its timers: the handle of the pending one, and the generation of the last
one that was started. -/
structure Slot where
  handle? : Option Nat
  generation : Nat
  deriving DecidableEq, Repr

/-- The slots of all lines, the timers that were ever started, and those that are running. -/
structure Timers where
  slots : LineId → Slot
  started : List Timer
  running : List Timer

namespace Timers

/-- No timers. -/
def idle : Timers := ⟨fun _ => ⟨none, 0⟩, [], []⟩

/-- Fills the slot of a line. -/
def setSlot (timers : Timers) (id : LineId) (slot : Slot) : Timers :=
  { timers with slots := fun other => if other = id then slot else timers.slots other }

/-- Empties the slot of a line and aborts the timer in it. -/
def stop (timers : Timers) (id : LineId) : Timers :=
  match (timers.slots id).handle? with
  | none => timers
  | some handle =>
    { timers.setSlot id { timers.slots id with handle? := none } with
      running := timers.running.filter fun timer => timer.handle ≠ handle }

/-- Empties the slots of lines, one after the other. -/
def stopEach (timers : Timers) (ids : List LineId) : Timers :=
  ids.foldl stop timers

/-- The timer that is started next: no other one has its handle, or its generation in the line. -/
def next (timers : Timers) (id : LineId) (due : Nat) : Timer :=
  ⟨timers.started.length, id, (timers.slots id).generation + 1, due⟩

/-- Starts a timer for a line with an empty slot. -/
def begin (timers : Timers) (id : LineId) (due : Nat) : Timers :=
  let timer := timers.next id due
  { timers.setSlot id ⟨some timer.handle, timer.generation⟩ with
    started := timers.started ++ [timer]
    running := timers.running ++ [timer] }

/-- Starts a timer for a line in place of the one in its slot. -/
def restart (timers : Timers) (id : LineId) (due : Nat) : Timers :=
  (timers.stop id).begin id due

/-- Empties the slot of its line for a timer that fires, unless the timer was replaced or
aborted. -/
def take? (timers : Timers) (timer : Timer) : Option Timers :=
  let slot := timers.slots timer.line
  if slot.generation = timer.generation ∧ slot.handle?.isSome then
    some (timers.setSlot timer.line { slot with handle? := none })
  else none

/-- A timer runs out. -/
def expire (timers : Timers) (timer : Timer) : Timers :=
  { timers with running := timers.running.filter (· ≠ timer) }

end Timers

/-! ## What operations do to timers -/

namespace Proof

/-- The line whose text an operation has replaced that was carried out with an answer. -/
def writtenBy? (p : Proof) : Operation → Reply → Option LineId
  | .setText index text, _ =>
    if p.lines[index]?.any (·.text == text) then none else p.lineId? index
  | .autoFill index, .filled (some _) => p.lineId? index
  | _, _ => none

/-- The lines that an operation has verified that was carried out with an answer. -/
def settledBy (setting : Setting) (p : Proof) (operation : Operation) (reply : Reply) :
    List LineId :=
  (p.visitedBy setting operation reply).filterMap p.lineId?

end Proof

/-- The lines that an operation with this answer has removed. -/
def Reply.removedLines : Reply → List LineId
  | .removed ids => ids
  | _ => []

/-- The timers after an operation: a replaced text restarts the timer of its line, a verification
stops it, and lines that are removed take theirs along. -/
def Timers.after (setting : Setting) (p : Proof) (timers : Timers) (operation : Operation)
    (reply : Reply) : Timers :=
  let restarted :=
    match setting.debounce?, p.writtenBy? operation reply with
    | some period, some id => timers.restart id (p.now + period)
    | _, _ => timers
  (restarted.stopEach (p.settledBy setting operation reply)).stopEach reply.removedLines

/-! ## The order in which timers run out -/

/-- When a timer is due, and for which line. -/
def Timer.entry (timer : Timer) : Nat × LineId := (timer.due, timer.line)

/-- Where a line stands; a line that is gone counts as the first one. -/
def Proof.standing (p : Proof) (id : LineId) : Nat := (p.position? id).getD 0

/-- A verification that is due comes before another one: the earlier before the later, and those of
one time in the order of the lines. -/
def Proof.Precedes (p : Proof) (first second : Nat × LineId) : Prop :=
  first.1 < second.1 ∨ first.1 = second.1 ∧ p.standing first.2 ≤ p.standing second.2

instance (p : Proof) : DecidableRel p.Precedes := fun _ _ =>
  inferInstanceAs (Decidable (_ ∨ _))

/-- The running timers that are due by a time, in the order in which they run out. -/
def Timers.elapsed (timers : Timers) (p : Proof) (time : Nat) : List Timer :=
  (timers.running.filter fun timer => timer.due ≤ time).insertionSort fun first second =>
    p.Precedes first.entry second.entry

/-! ## Proofs with timers -/

/-- The proof with the clock set to a time. -/
def Proof.atTime (p : Proof) (time : Nat) : Proof := { p with now := time }

/-- A verification that a timer brought about: when, of which line, and where the line stood. -/
structure Firing where
  time : Nat
  line : LineId
  position : Nat
  deriving DecidableEq, Repr

/-- A proof with its timers, and what these have brought about. -/
structure Timed where
  proof : Proof
  timers : Timers
  fired : List Firing

namespace Timed

/-- A proof without timers. -/
def start (proof : Proof) : Timed := ⟨proof, .idle, []⟩

/-- A timer is due: the clock stands at this time, and the timer verifies its line, unless the line
is gone or the timer was overtaken. A timer that was aborted does nothing. -/
def fire (setting : Setting) (timed : Timed) (timer : Timer) : Timed :=
  if timer ∈ timed.timers.running then
    let proof := timed.proof.atTime (max timed.proof.now timer.due)
    let timers := timed.timers.expire timer
    match proof.position? timer.line, timers.take? timer with
    | some index, some taken =>
      ⟨(proof.verifyLineAt setting index).proof, taken.stop timer.line,
        timed.fired ++ [⟨proof.now, timer.line, index⟩]⟩
    | _, _ => ⟨proof, timers, timed.fired⟩
  else timed

/-- Lets time pass. -/
def advance (setting : Setting) (timed : Timed) (milliseconds : Nat) : Timed :=
  let time := timed.proof.now + milliseconds
  let last := (timed.timers.elapsed timed.proof time).foldl (fire setting) timed
  { last with proof := last.proof.atTime time }

/-- Tries an operation; one that is refused changes nothing. -/
def attempt (setting : Setting) (timed : Timed) (operation : Operation) : Timed :=
  match operation with
  | .advance milliseconds => timed.advance setting milliseconds
  | operation =>
    match timed.proof.perform setting operation with
    | .ok outcome =>
      { timed with
        proof := outcome.proof
        timers := timed.timers.after setting timed.proof operation outcome.answer }
    | .error _ => timed

/-- Tries operations one after the other. -/
def run (setting : Setting) (timed : Timed) (operations : List Operation) : Timed :=
  operations.foldl (attempt setting) timed

end Timed

end NaturalDeduction
