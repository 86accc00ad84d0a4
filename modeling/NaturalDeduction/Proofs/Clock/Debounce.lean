/-
  Written lines are verified one period later.

  A line whose text is changed is verified by itself when the quiet period is
  over, unless it was changed again, verified or removed in the meantime. This
  happens at that time exactly, once, and wherever the line stands by then. What
  is done to other lines, or leaves the text as it is, does not matter.
-/

import NaturalDeduction.Proofs.Clock.Following

namespace NaturalDeduction

namespace Proof

variable {setting : Setting} {p : Proof} {id : LineId} {due index : Nat}

/-! ## Lines that are not verified -/

theorem getElem?_verifyLineAt_of_ne {i : Nat} (hi : i ≠ index) :
    (verifyLineAt setting p index).proof.lines[i]? = p.lines[i]? := by
  cases hline : p.lines[index]? with
  | none => simp only [verifyLineAt, hline]
  | some line =>
    obtain ⟨consulted, hverified⟩ := exists_verifyLineAt_eq setting hline
    rw [hverified]
    exact List.getElem?_set_ne hi.symm

theorem getElem?_visit_of_not_mem {indices : List Nat} {i : Nat} (hi : i ∉ indices) :
    (visit setting p indices).lines[i]? = p.lines[i]? := by
  induction indices generalizing p with
  | nil => rfl
  | cons index indices ih =>
    obtain ⟨hne, hrest⟩ := not_or.1 (mt List.mem_cons.2 hi)
    rw [visit_cons, ih hrest, getElem?_verifyLineAt_of_ne hne]

/-- Nothing is pending in a proof that work begins with. -/
theorem Initial.not_waits (h : Initial p) : ¬ p.Waits id due := by
  rw [waits_iff]
  rintro ⟨line, hline, -, hdue⟩
  cases h with
  | new restriction => exact absurd hline List.not_mem_nil
  | loaded h =>
    obtain ⟨-, rfl⟩ := ofDocument_eq_ok_iff.1 h
    obtain ⟨index, hindex⟩ := List.mem_iff_getElem?.1 hline
    obtain ⟨record, -, rfl⟩ := exists_of_getElem?_mapIdx hindex
    cases hdue

end Proof

/-! ## Operations that leave a line alone -/

/-- Whether an operation is about other lines, leaves the text of the line as it is, or moves lines,
and does not verify or remove the line. -/
def Operation.Spares (p : Proof) (id : LineId) : Operation → Prop
  | .setText index text => p.lineId? index = some id → p.lines[index]?.map Line.text = some text
  | .setRule index _ | .togglePremise index _ | .autoFill index | .verifyLine index =>
    p.lineId? index ≠ some id
  | .delete index => id ∉ p.deleted index
  | .verifyGoal _ | .verifyAll | .advance _ => False
  | _ => True

namespace Proof

variable {setting : Setting} {p q : Proof} {id : LineId} {operation : Operation} {reply : Reply}

theorem not_mem_settledBy_of_visitedBy {index : Nat} (hat : p.lineId? index ≠ some id)
    (hvisited : p.visitedBy setting operation reply = [index]) :
    id ∉ p.settledBy setting operation reply := by
  rw [settledBy, hvisited, List.mem_filterMap]
  rintro ⟨i, hi, hid⟩
  rw [List.mem_singleton.1 hi] at hid
  exact hat hid

/-- An operation that spares a line neither writes nor verifies nor removes it. -/
theorem Performed.spares (h : Performed setting p operation reply q)
    (hspares : operation.Spares p id) : p.writtenBy? operation reply ≠ some id ∧
      id ∉ p.settledBy setting operation reply ∧ id ∉ reply.removedLines := by
  have hnone : (none : Option LineId) ≠ some id := nofun
  cases h with
  | insert hinserts =>
    refine ⟨?_, ?_, List.not_mem_nil⟩
    · rw [writtenBy?_of_insertsLine hinserts]
      exact hnone
    · rw [settledBy, visitedBy_of_insertsLine hinserts]
      exact List.not_mem_nil
  | delete index => exact ⟨hnone, List.not_mem_nil, hspares⟩
  | keepText index line hline =>
    refine ⟨?_, List.not_mem_nil, List.not_mem_nil⟩
    simp [writtenBy?, hline]
  | setText index text line hline htext =>
    refine ⟨fun hid => htext ?_, List.not_mem_nil, List.not_mem_nil⟩
    simp only [writtenBy?, hline, Option.any_some, beq_iff_eq, htext, if_false] at hid
    simpa [hline] using hspares hid
  | keepRule index | setRule index | togglePremise index | verifyLine index =>
    exact ⟨hnone, not_mem_settledBy_of_visitedBy hspares rfl, List.not_mem_nil⟩
  | fill index text =>
    exact ⟨hspares, not_mem_settledBy_of_visitedBy hspares rfl, List.not_mem_nil⟩
  | restrict | fillNothing | addGoal | removeGoal | keepGoalText | setGoalText =>
    exact ⟨hnone, List.not_mem_nil, List.not_mem_nil⟩
  | verifyGoal | verifyAll | advance => exact absurd hspares not_false

end Proof

namespace Timers

variable {setting : Setting} {timers : Timers} {p : Proof} {operation : Operation} {reply : Reply}
  {id other : LineId} {due : Nat}

/-- The slot of a line, and its running timer. -/
def held (timers : Timers) (id : LineId) : Slot × List Timer :=
  (timers.slots id, timers.running.filter (·.line = id))

theorem held_stop (h : timers.Sound) (hne : id ≠ other) :
    (timers.stop other).held id = timers.held id := by
  rw [held, slots_stop, if_neg hne, h.running_stop, List.filter_filter, held]
  congr 1
  refine List.filter_congr fun timer _ => ?_
  by_cases hline : timer.line = id <;> simp [hline, hne]

theorem held_stopEach (h : timers.Sound) {ids : List LineId} (hid : id ∉ ids) :
    (timers.stopEach ids).held id = timers.held id := by
  induction ids generalizing timers with
  | nil => rfl
  | cons other ids ih =>
    obtain ⟨hne, hrest⟩ := not_or.1 (mt List.mem_cons.2 hid)
    exact (ih (h.stop other) hrest).trans (held_stop h hne)

theorem held_restart (h : timers.Sound) (hne : id ≠ other) :
    (timers.restart other due).held id = timers.held id := by
  have hline : ¬ ((timers.stop other).next other due).line = id := hne.symm
  rw [← held_stop h hne, restart, held, slots_begin, if_neg hne, held]
  simp [Timers.begin, hline]

/-- An operation that spares a line leaves its slot and its timer as they are. -/
theorem held_after (h : timers.Sound) {q : Proof}
    (hperformed : Proof.Performed setting p operation reply q) (hspares : operation.Spares p id) :
    (timers.after setting p operation reply).held id = timers.held id := by
  obtain ⟨hwritten, hsettled, hremoved⟩ := hperformed.spares hspares
  unfold Timers.after
  split
  · rename_i written _ heq
    have hne : id ≠ written := fun hid => hwritten (hid ▸ heq)
    rw [held_stopEach ((h.restart ..).stopEach _) hremoved,
      held_stopEach (h.restart ..) hsettled, held_restart h hne]
  · rw [held_stopEach (h.stopEach _) hremoved, held_stopEach h hsettled]

end Timers

namespace Timed

variable {setting : Setting} {start : Proof} {period : Nat} {timed : Timed}

open Proof

/-- What happens when time passes: timers verify their lines where these stand, and nothing else
changes. -/
def Elapses (setting : Setting) (timed : Timed) (milliseconds : Nat) : Prop :=
  ∃ firings, (timed.advance setting milliseconds).fired = timed.fired ++ firings ∧
    (∀ firing ∈ firings, timed.proof.lineId? firing.position = some firing.line) ∧
    (timed.advance setting milliseconds).proof =
      (timed.proof.visit setting (firings.map Firing.position)).atTime
        (timed.proof.now + milliseconds) ∧
    ∀ index, index ∉ firings.map Firing.position →
      (timed.advance setting milliseconds).proof.lines[index]? = timed.proof.lines[index]?

theorem Sound.elapses (h : timed.Sound) (milliseconds : Nat) :
    Elapses setting timed milliseconds := by
  have hp := h.wellFormed.toWellFormedLines
  have hpositions : ((timed.timers.elapsed timed.proof (timed.proof.now + milliseconds)).map
      (Timer.firing timed.proof)).map Firing.position =
      (timed.proof.dueBy (timed.proof.now + milliseconds)).map
        fun entry => timed.proof.standing entry.2 := by
    rw [← h.map_entry_elapsed, List.map_map, List.map_map]
    rfl
  have hproof : (timed.proof.advance setting milliseconds).proof = _ :=
    proof_advance hp setting milliseconds
  rw [← hpositions] at hproof
  refine ⟨_, congrArg Timed.fired (h.advance_eq setting milliseconds), fun firing hfiring => ?_, ?_,
    fun index hindex => ?_⟩
  · obtain ⟨timer, htimer, rfl⟩ := List.mem_map.1 hfiring
    exact (hp.position_iff ..).1 (position?_eq_standing hp (h.waits_of_mem_elapsed htimer))
  · rw [h.advance_eq, hproof]
  · rw [h.advance_eq, hproof]
    exact getElem?_visit_of_not_mem hindex

/-- No line is verified twice by timers at one time. -/
structure Past (timed : Timed) : Prop where
  time_le : ∀ firing ∈ timed.fired, firing.time ≤ timed.proof.now
  time_lt : ∀ firing ∈ timed.fired, ∀ due, timed.proof.Waits firing.line due → firing.time < due
  nodup : (timed.fired.map fun firing => (firing.time, firing.line)).Nodup

namespace Past

theorem idle (p : Proof) : Past (Timed.start p) := by
  constructor <;> simp [Timed.start]

theorem advance (h : Past timed) (hsound : timed.Sound) (milliseconds : Nat) :
    Past (timed.advance setting milliseconds) := by
  have hnow : (timed.advance setting milliseconds).proof.now = timed.proof.now + milliseconds := rfl
  have hfired := congrArg Timed.fired (hsound.advance_eq setting milliseconds)
  -- Every verification is an earlier one, or was pending and is due by now.
  have hcases : ∀ firing ∈ (timed.advance setting milliseconds).fired,
      firing ∈ timed.fired ∨ timed.proof.Waits firing.line firing.time ∧
        firing.time ≤ timed.proof.now + milliseconds := by
    intro firing hfiring
    rw [hfired, List.mem_append] at hfiring
    refine hfiring.imp_right fun hnew => ?_
    obtain ⟨timer, htimer, rfl⟩ := List.mem_map.1 hnew
    exact ⟨hsound.waits_of_mem_elapsed htimer, (Timers.mem_elapsed.1 htimer).2⟩
  refine ⟨fun firing hfiring => ?_, fun firing hfiring due hwaits => ?_, ?_⟩
  · rw [hnow]
    rcases hcases firing hfiring with hbefore | ⟨-, hle⟩
    · exact Nat.le_add_right_of_le (h.time_le firing hbefore)
    · exact hle
  · obtain ⟨hwaits, hlater⟩ := (waits_advance_iff hsound milliseconds).1 hwaits
    rcases hcases firing hfiring with hbefore | ⟨-, hle⟩
    · exact h.time_lt firing hbefore due hwaits
    · exact Nat.lt_of_le_of_lt hle hlater
  · rw [hfired, List.map_append, List.nodup_append]
    refine ⟨h.nodup, ?_, ?_⟩
    · rw [List.map_map]
      refine (hsound.timers.nodup_elapsed ..).map_on fun timer htimer other hother hsame => ?_
      exact hsound.timers.eq_of_line_eq (Timers.mem_elapsed.1 htimer).1
        (Timers.mem_elapsed.1 hother).1 (congrArg Prod.snd hsame)
    · rintro _ hbefore _ hnew rfl
      obtain ⟨firing, hfiring, hsame⟩ := List.mem_map.1 hbefore
      obtain ⟨_, hmem, rfl⟩ := List.mem_map.1 hnew
      obtain ⟨timer, htimer, rfl⟩ := List.mem_map.1 hmem
      -- What was verified before was verified before anything pending is due.
      obtain ⟨htime, hline⟩ := Prod.mk.inj hsame
      have hlt := h.time_lt firing hfiring timer.due
        (by rw [hline]; exact hsound.waits_of_mem_elapsed htimer)
      exact absurd htime (Nat.ne_of_lt hlt)

theorem attempt (h : Past timed) (hsound : timed.Sound) (hperiod : setting.debounce? = some period)
    (hpositive : 0 < period) (operation : Operation) :
    Past (timed.attempt setting operation) := by
  by_cases hoperation : ∀ milliseconds, operation ≠ .advance milliseconds
  · have hpasses := passes_attempt hsound hperiod hoperation
    have hfired := fired_attempt setting timed hoperation
    refine ⟨fun firing hfiring => ?_, fun firing hfiring due hwaits => ?_, hfired ▸ h.nodup⟩
    · rw [hfired] at hfiring
      exact hpasses.now_eq ▸ h.time_le firing hfiring
    · rw [hfired] at hfiring
      obtain ⟨-, -, ⟨-, rfl⟩ | ⟨-, hbefore⟩⟩ := (hpasses.waits_iff _ _).1 hwaits
      · exact Nat.lt_of_le_of_lt (h.time_le firing hfiring) (Nat.lt_add_of_pos_right hpositive)
      · exact h.time_lt firing hfiring due hbefore
  · obtain ⟨milliseconds, rfl⟩ := not_forall_not.1 hoperation
    exact h.advance hsound milliseconds

theorem run (h : Past timed) (hsound : timed.Sound) (hperiod : setting.debounce? = some period)
    (hpositive : 0 < period) (operations : List Operation) :
    Past (timed.run setting operations) := by
  induction operations generalizing timed with
  | nil => exact h
  | cons operation operations ih =>
    exact ih (h.attempt hsound hperiod hpositive operation) (hsound.attempt hperiod operation)

end Past

/-- How the timers of a session work. -/
structure Debounces (setting : Setting) (start : Proof) (period : Nat)
    (operations : List Operation) (session : Timed) : Prop where
  proof_eq : session.proof = (start.run setting operations).1
  one_timer : ∀ timer ∈ session.timers.running, ∀ other ∈ session.timers.running,
    timer.line = other.line → timer = other
  turned_away : ∀ timer ∈ session.timers.started, timer ∉ session.timers.running →
    session.timers.take? timer = none
  fired_iff : ∀ time id,
    session.Fired time id ↔ ComesDue setting start period operations time id
  once : 0 < period → (session.fired.map fun firing => (firing.time, firing.line)).Nodup
  elapses : ∀ milliseconds, Elapses setting session milliseconds
  spares : ∀ operation id, operation.Spares session.proof id →
    (session.attempt setting operation).timers.held id = session.timers.held id

/-- A line whose text changes is verified by itself one period later. At every moment of a session a
line has at most one timer, and one that was aborted is turned away even if it fires. Timers verify
a line at a time just when the line is there, its text was last changed one period before, and no
operation has verified it since; they do so once, where the line stands, and touch no other line.
Operations on other lines, and those that leave the text, move lines or restrict rules, leave the
timer of a line alone. -/
theorem debounces (hperiod : setting.debounce? = some period) (hstart : Initial start)
    (operations : List Operation) :
    Debounces setting start period operations ((Timed.start start).run setting operations) := by
  have hwell := WellFormed.initial hstart
  have hidle : ∀ id due, ¬ start.Waits id due := fun _ _ => hstart.not_waits
  have hfollows := Follows.run hwell hidle hperiod operations
  have hsound := hfollows.sound
  refine ⟨hfollows.proof_eq, fun timer htimer other hother =>
    hsound.timers.eq_of_line_eq htimer hother, fun timer => hsound.timers.take?_eq_none,
    hfollows.fired_iff, fun hpositive => ?_, hsound.elapses, fun operation id hspares => ?_⟩
  · exact ((Past.idle start).run (.start hwell hidle) hperiod hpositive operations).nodup
  · by_cases hoperation : ∀ milliseconds, operation ≠ .advance milliseconds
    · rcases attempt_cases setting _ hoperation with ⟨_, -, hsame⟩ | ⟨outcome, hdone, hnext⟩
      · rw [hsame]
      · rw [hnext]
        exact Timers.held_after hsound.timers (.of_perform hdone) hspares
    · obtain ⟨milliseconds, rfl⟩ := not_forall_not.1 hoperation
      exact absurd hspares not_false

/-- A text that is changed twice within the period, with another line put in before it. -/
def twiceChanged : List Operation :=
  [.addPremise, .setText 0 "P", .advance 400, .setText 0 "Q", .addLine 0 ⟨0, true⟩, .advance 999,
    .advance 1]

/-- The line is verified once, one period after the second change, where it stands by then. -/
theorem debounces_twiceChanged :
    ({ debounce? := some 1000 } : Setting).debounce? = some 1000 ∧ Initial (.new []) ∧
      ((Timed.start (.new [])).run { debounce? := some 1000 } twiceChanged).fired =
        [⟨1400, 1, 1⟩] ∧
      Debounces { debounce? := some 1000 } (.new []) 1000 twiceChanged
        ((Timed.start (.new [])).run { debounce? := some 1000 } twiceChanged) :=
  ⟨rfl, .new [], by decide +kernel, debounces rfl (.new []) twiceChanged⟩

end Timed

end NaturalDeduction
