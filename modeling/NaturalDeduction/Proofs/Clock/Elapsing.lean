/-
  Time that passes.

  When the clock is moved on, the timers that are due by then run out in order,
  each of them at the time at which it is due. Nothing that they do changes
  where lines stand, or which of the other timers run. So the proof ends up as
  it does when the pending verifications are carried out in this order.
-/

import NaturalDeduction.Proofs.Clock.Evolution
import NaturalDeduction.Proofs.Clock.Order

namespace NaturalDeduction

variable {setting : Setting}

namespace Proof

variable {p q : Proof} {id : LineId}

/-! ## Verifications and the clock -/

theorem consult_atTime (setting : Setting) (p : Proof) (time : Nat) (target : Target) :
    consult setting (p.atTime time) target =
      ((consult setting p target).1, (consult setting p target).2.atTime time) := by
  have hdocument : (p.atTime time).document = p.document := rfl
  have hconsulted : (p.atTime time).consulted = p.consulted := rfl
  unfold consult
  cases setting.checker? with
  | none => rfl
  | some checker =>
    simp only [hdocument, hconsulted]
    cases checker p.consulted ⟨p.document, target⟩ <;> rfl

theorem judgeLine_atTime (setting : Setting) (p : Proof) (time index : Nat) (line : Line) :
    judgeLine setting (p.atTime time) index line =
      ((judgeLine setting p index line).1, (judgeLine setting p index line).2.1,
        (judgeLine setting p index line).2.2.atTime time) := by
  have hpremises : (p.atTime time).premisesOf index line = p.premisesOf index line := rfl
  have hrestriction : (p.atTime time).restriction = p.restriction := rfl
  simp only [judgeLine, hpremises, hrestriction, consult_atTime]
  cases examine p.restriction line with
  | settled mark => rfl
  | claims conclusion rule => cases p.premisesOf index line <;> rfl

/-- A verification does not look at the clock. -/
theorem verifyLineAt_atTime (setting : Setting) (p : Proof) (time index : Nat) :
    (verifyLineAt setting (p.atTime time) index).proof =
      (verifyLineAt setting p index).proof.atTime time := by
  have hlines : (p.atTime time).lines = p.lines := rfl
  simp only [verifyLineAt, hlines]
  cases p.lines[index]? with
  | none => rfl
  | some line =>
    simp only [judgeLine_atTime]
    rfl

theorem visit_atTime (setting : Setting) (p : Proof) (time : Nat) (indices : List Nat) :
    visit setting (p.atTime time) indices = (visit setting p indices).atTime time := by
  induction indices generalizing p with
  | nil => rfl
  | cons index indices ih => rw [visit_cons, visit_cons, verifyLineAt_atTime, ih]

@[simp] theorem atTime_atTime (p : Proof) (time later : Nat) :
    (p.atTime time).atTime later = p.atTime later := rfl

@[simp] theorem position?_atTime (p : Proof) (time : Nat) :
    (p.atTime time).position? = p.position? := rfl

@[simp] theorem standing_atTime (p : Proof) (time : Nat) :
    (p.atTime time).standing = p.standing := rfl

@[simp] theorem stamps_atTime (p : Proof) (time : Nat) : (p.atTime time).stamps = p.stamps := rfl

/-- A verification moves no line. -/
@[simp] theorem position?_verifyLineAt (setting : Setting) (p : Proof) (index : Nat) :
    (verifyLineAt setting p index).proof.position? = p.position? := by
  funext id
  exact congrArg (fun content => content.positions.lookup id)
    (content_verifyLineAt setting p index)

@[simp] theorem standing_verifyLineAt (setting : Setting) (p : Proof) (index : Nat) :
    (verifyLineAt setting p index).proof.standing = p.standing := by
  funext id
  rw [standing, standing, position?_verifyLineAt]

theorem proof_verifyDue (setting : Setting) (p : Proof) (ids : List LineId) :
    (verifyDue setting p ids).1 = visit setting p (ids.filterMap p.position?) := by
  induction ids generalizing p with
  | nil => rfl
  | cons id ids ih =>
    rw [List.filterMap_cons]
    simp only [verifyDue]
    cases hposition : p.position? id with
    | none => exact ih p
    | some index => rw [visit_cons, ih, position?_verifyLineAt]

theorem position?_eq_standing (hp : WellFormedLines p) {due : Nat} (h : p.Waits id due) :
    p.position? id = some (p.standing id) := by
  obtain ⟨line, hline, rfl, -⟩ := waits_iff.1 h
  obtain ⟨index, hindex⟩ := List.mem_iff_getElem?.1 hline
  rw [standing_of_getElem? hp hindex, hp.position_iff, lineId?, hindex]
  rfl

/-- When time passes, the lines that are due are verified where they stand. -/
theorem proof_advance (hp : WellFormedLines p) (setting : Setting) (milliseconds : Nat) :
    (p.advance setting milliseconds).proof =
      (visit setting p ((p.dueBy (p.now + milliseconds)).map fun entry =>
        p.standing entry.2)).atTime (p.now + milliseconds) := by
  have hplaced : ((p.dueBy (p.now + milliseconds)).map Prod.snd).filterMap p.position? =
      (p.dueBy (p.now + milliseconds)).map fun entry => p.standing entry.2 := by
    rw [List.filterMap_map, ← List.filterMap_eq_map]
    refine List.filterMap_congr fun entry hentry => ?_
    exact position?_eq_standing hp (mem_dueBy.1 hentry).1
  have hadvance : (p.advance setting milliseconds).proof =
      (verifyDue setting (p.atTime (p.now + milliseconds))
        ((p.dueBy (p.now + milliseconds)).map Prod.snd)).1 := rfl
  rw [hadvance, proof_verifyDue, position?_atTime, hplaced, visit_atTime]

end Proof

namespace Timers

variable {timers : Timers} {p : Proof} {timer : Timer} {id : LineId} {due time : Nat}

/-! ## The timers that run out -/

theorem mem_elapsed :
    timer ∈ timers.elapsed p time ↔ timer ∈ timers.running ∧ timer.due ≤ time := by
  simp [elapsed]

theorem Sound.nodup_elapsed (h : Sound timers) (p : Proof) (time : Nat) :
    (timers.elapsed p time).Nodup :=
  (List.perm_insertionSort _ _).nodup_iff.2 (h.running_nodup.filter _)

theorem pairwise_elapsed (timers : Timers) (p : Proof) (time : Nat) :
    (timers.elapsed p time).Pairwise fun first second => p.Precedes first.entry second.entry := by
  have _ : Std.Total fun first second : Timer => p.Precedes first.entry second.entry :=
    ⟨fun first second => Proof.Precedes.total p first.entry second.entry⟩
  have _ : IsTrans Timer fun first second => p.Precedes first.entry second.entry :=
    ⟨fun _ _ _ => Proof.Precedes.trans⟩
  exact List.pairwise_insertionSort _ _

/-- The timers run out in the order in which pending verifications are carried out. -/
theorem Sound.map_entry_elapsed (h : Sound timers) (hp : p.WellFormedLines)
    (hwaits : ∀ id due, timers.Waits id due ↔ p.Waits id due) (time : Nat) :
    (timers.elapsed p time).map Timer.entry = p.dueBy time := by
  have hinj : ∀ timer ∈ timers.elapsed p time, ∀ other ∈ timers.elapsed p time,
      timer.entry = other.entry → timer = other := fun timer htimer other hother hsame =>
    h.eq_of_line_eq (mem_elapsed.1 htimer).1 (mem_elapsed.1 hother).1 (congrArg Prod.snd hsame)
  refine Proof.eq_dueBy hp ((h.nodup_elapsed p time).map_on hinj)
    (List.pairwise_map.2 (pairwise_elapsed timers p time)) fun due id => ?_
  rw [← hwaits, List.mem_map]
  simp only [mem_elapsed, Timer.entry, Prod.mk.injEq, Waits]
  constructor
  · rintro ⟨timer, ⟨hrunning, hle⟩, rfl, rfl⟩
    exact ⟨⟨timer, hrunning, rfl, rfl⟩, hle⟩
  · rintro ⟨⟨timer, hrunning, rfl, rfl⟩, hle⟩
    exact ⟨timer, ⟨hrunning, hle⟩, rfl, rfl⟩

end Timers

/-- What a timer brings about that runs out when it is due. -/
def Timer.firing (p : Proof) (timer : Timer) : Firing :=
  ⟨timer.due, timer.line, p.standing timer.line⟩

namespace Timed

variable {timed : Timed} {timer : Timer}

/-- A running timer verifies its line when it is due, and nothing else. -/
theorem fire_eq (h : timed.timers.Sound) (htimer : timer ∈ timed.timers.running)
    (hnow : timed.proof.now ≤ timer.due) {index : Nat}
    (hposition : timed.proof.position? timer.line = some index) :
    fire setting timed timer =
      ⟨(timed.proof.verifyLineAt setting index).proof.atTime timer.due,
        timed.timers.stop timer.line, timed.fired ++ [⟨timer.due, timer.line, index⟩]⟩ := by
  have htime : (timed.proof.atTime timer.due).now = timer.due := rfl
  simp only [fire, htimer, if_true, Proof.position?_atTime, hposition, h.take?_expire htimer,
    Timers.stop_stop, Proof.verifyLineAt_atTime, Nat.max_eq_right hnow, htime]

/-- Timers that run out one after the other verify their lines where these stand, and nothing
else. -/
theorem foldl_fire (setting : Setting) (h : timed.timers.Sound) {elapsed : List Timer}
    (hnodup : elapsed.Nodup)
    (hrunning : ∀ timer ∈ elapsed, timer ∈ timed.timers.running)
    (hplaced : ∀ timer ∈ elapsed, (timed.proof.position? timer.line).isSome)
    (hnow : ∀ timer ∈ elapsed, timed.proof.now ≤ timer.due)
    (hordered : elapsed.Pairwise fun first second => first.due ≤ second.due) :
    ∃ time, elapsed.foldl (fire setting) timed =
      ⟨(timed.proof.visit setting
          (elapsed.map fun timer => timed.proof.standing timer.line)).atTime time,
        timed.timers.stopEach (elapsed.map Timer.line),
        timed.fired ++ elapsed.map (Timer.firing timed.proof)⟩ := by
  induction elapsed generalizing timed with
  | nil => exact ⟨timed.proof.now, by simp [Timers.stopEach]; rfl⟩
  | cons timer rest ih =>
    obtain ⟨hfirst, hrest⟩ := List.nodup_cons.1 hnodup
    obtain ⟨hbefore, hlater⟩ := List.pairwise_cons.1 hordered
    obtain ⟨index, hposition⟩ := Option.isSome_iff_exists.1 (hplaced timer (.head _))
    have hindex : timed.proof.standing timer.line = index := by
      rw [Proof.standing, hposition, Option.getD_some]
    -- The other timers keep running, and their lines stand where they stood.
    have hothers : ∀ other ∈ rest, other ∈ (timed.timers.stop timer.line).running := by
      refine fun other hother =>
        h.mem_running_stop.2 ⟨hrunning other (.tail _ hother), fun hline => ?_⟩
      rw [h.eq_of_line_eq (hrunning other (.tail _ hother)) (hrunning timer (.head _)) hline]
        at hother
      exact hfirst hother
    have hplaced' : ∀ other ∈ rest,
        (((timed.proof.verifyLineAt setting index).proof.atTime timer.due).position?
          other.line).isSome := by
      intro other hother
      rw [Proof.position?_atTime, Proof.position?_verifyLineAt]
      exact hplaced other (.tail _ hother)
    obtain ⟨time, hlast⟩ := @ih
      ⟨(timed.proof.verifyLineAt setting index).proof.atTime timer.due,
        timed.timers.stop timer.line, timed.fired ++ [⟨timer.due, timer.line, index⟩]⟩
      (h.stop timer.line) hrest hothers hplaced' hbefore hlater
    refine ⟨time, ?_⟩
    rw [List.foldl_cons, fire_eq h (hrunning timer (.head _)) (hnow timer (.head _)) hposition,
      hlast]
    simp [Proof.visit_atTime, Proof.visit_cons, hindex, Timers.stopEach, Timer.firing]

/-- The timers that run are the verifications that are pending, and none of them is late. -/
structure Sound (timed : Timed) : Prop where
  wellFormed : timed.proof.WellFormed
  timers : timed.timers.Sound
  waits_iff : ∀ id due, timed.timers.Waits id due ↔ timed.proof.Waits id due
  now_le : ∀ id due, timed.proof.Waits id due → timed.proof.now ≤ due

namespace Sound

theorem map_entry_elapsed (h : Sound timed) (time : Nat) :
    (timed.timers.elapsed timed.proof time).map Timer.entry = timed.proof.dueBy time :=
  h.timers.map_entry_elapsed h.wellFormed.toWellFormedLines h.waits_iff time

theorem waits_of_mem_elapsed (h : Sound timed) {time : Nat}
    (htimer : timer ∈ timed.timers.elapsed timed.proof time) :
    timed.proof.Waits timer.line timer.due :=
  (h.waits_iff _ _).1 ⟨timer, (Timers.mem_elapsed.1 htimer).1, rfl, rfl⟩

/-- When the clock is moved on, the timers that are due run out, and the proof becomes what the
pending verifications make of it. -/
theorem advance_eq (setting : Setting) (h : Sound timed) (milliseconds : Nat) :
    timed.advance setting milliseconds =
      ⟨(timed.proof.advance setting milliseconds).proof,
        timed.timers.stopEach
          ((timed.timers.elapsed timed.proof (timed.proof.now + milliseconds)).map Timer.line),
        timed.fired ++ (timed.timers.elapsed timed.proof
          (timed.proof.now + milliseconds)).map (Timer.firing timed.proof)⟩ := by
  have hentries := h.map_entry_elapsed (timed.proof.now + milliseconds)
  have hordered : (timed.timers.elapsed timed.proof (timed.proof.now + milliseconds)).Pairwise
      fun first second => first.due ≤ second.due :=
    (Timers.pairwise_elapsed ..).imp fun hprecedes => by
      rcases hprecedes with hlt | ⟨heq, -⟩
      · exact Nat.le_of_lt hlt
      · exact Nat.le_of_eq heq
  obtain ⟨time, hlast⟩ := foldl_fire setting h.timers
    (h.timers.nodup_elapsed timed.proof (timed.proof.now + milliseconds))
    (fun _ htimer => (Timers.mem_elapsed.1 htimer).1)
    (fun _ htimer => by
      rw [Proof.position?_eq_standing h.wellFormed.toWellFormedLines
        (h.waits_of_mem_elapsed htimer)]
      rfl)
    (fun _ htimer => h.now_le _ _ (h.waits_of_mem_elapsed htimer)) hordered
  rw [Proof.proof_advance h.wellFormed.toWellFormedLines, ← hentries, List.map_map]
  simp only [advance, hlast, Proof.atTime_atTime]
  rfl

end Sound

end Timed

end NaturalDeduction
