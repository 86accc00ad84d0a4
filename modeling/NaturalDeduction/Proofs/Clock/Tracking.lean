/-
  Timers keep track of what is pending.

  At every moment the running timers are the verifications that are pending, and
  each is due when its line's is. So a timer is running for a line just when the
  line has been written and not been verified or removed since.
-/

import NaturalDeduction.Proofs.Clock.Elapsing

namespace NaturalDeduction

variable {setting : Setting} {period : Nat}

namespace Proof

variable {p q : Proof} {id : LineId} {due : Nat}

/-! ## What lines wait for after a step -/

theorem exists_stamp_iff :
    (∃ stamp ∈ p.stamps, stamp.id = id) ↔ ∃ line ∈ p.lines, line.id = id := by
  simp [stamps, Line.stamp]

theorem waits_of_settledIn {ids : List LineId}
    (hstamps : q.stamps = p.stamps.map (Stamp.settledIn ids)) :
    q.Waits id due ↔ id ∉ ids ∧ p.Waits id due := by
  unfold Waits
  rw [hstamps]
  constructor
  · rintro ⟨_, hmem, rfl, hdue⟩
    obtain ⟨stamp, hstamp, rfl⟩ := List.mem_map.1 hmem
    by_cases hid : stamp.id ∈ ids
    · simp [Stamp.settledIn, hid, Stamp.settled] at hdue
    · simp only [Stamp.settledIn, hid, if_false] at hdue
      rw [Stamp.id_settledIn]
      exact ⟨hid, stamp, hstamp, rfl, hdue⟩
  · rintro ⟨hid, stamp, hstamp, rfl, hdue⟩
    refine ⟨stamp.settledIn ids, List.mem_map_of_mem hstamp, stamp.id_settledIn ids, ?_⟩
    simpa only [Stamp.settledIn, hid, if_false] using hdue

/-- When time passes, nothing is pending any more for the lines that are due. -/
theorem stamps_advance (setting : Setting) (hp : WellFormedLines p) (milliseconds : Nat) :
    (p.advance setting milliseconds).proof.stamps = p.stamps.map
      (Stamp.settledIn ((p.dueBy (p.now + milliseconds)).map Prod.snd)) := by
  have hids : ((p.dueBy (p.now + milliseconds)).map fun entry =>
      p.standing entry.2).filterMap p.lineId? =
      (p.dueBy (p.now + milliseconds)).map Prod.snd := by
    rw [List.filterMap_map, ← List.filterMap_eq_map]
    refine List.filterMap_congr fun entry hentry => ?_
    exact (hp.position_iff ..).1 (position?_eq_standing hp (mem_dueBy.1 hentry).1)
  rw [proof_advance hp, stamps_atTime, stamps_visit setting hp, hids]

/-- A line waits after a step if the step has not verified or removed it, and it was written in the
step or waited before. -/
theorem Evolves.waits_iff {due? : Option Nat} {written? : Option LineId}
    {settled removed : List LineId} (h : Evolves due? written? settled removed p q) (id : LineId)
    (due : Nat) :
    q.Waits id due ↔ id ∉ removed ∧ id ∉ settled ∧
      if written? = some id then due? = some due else p.Waits id due := by
  constructor
  · rintro ⟨new, hnew, rfl, hdue⟩
    obtain ⟨hstays, ⟨old, hold, hbecomes⟩ | ⟨hfresh, -⟩⟩ := h.origin new hnew
    · rw [hbecomes.due?_eq] at hdue
      rw [hbecomes.id_eq] at hstays ⊢
      by_cases hsettled : old.id ∈ settled
      · simp [hsettled] at hdue
      · rw [if_neg hsettled] at hdue
        refine ⟨hstays, hsettled, ?_⟩
        split at hdue
        · rwa [if_pos ‹_›]
        · rw [if_neg ‹_›]
          exact ⟨old, hold, rfl, hdue⟩
    · rw [hfresh] at hdue
      cases hdue
  · rintro ⟨hstays, hsettled, hwaits⟩
    have hbefore : ∃ old ∈ p.stamps, old.id = id ∧
        (if written? = some id then due? else old.due?) = some due := by
      split at hwaits
      · obtain ⟨old, hold, hid⟩ := h.exists_of_written id ‹_›
        exact ⟨old, hold, hid, by rwa [if_pos ‹_›]⟩
      · obtain ⟨old, hold, hid, hdue⟩ := hwaits
        exact ⟨old, hold, hid, by rwa [if_neg ‹_›]⟩
    obtain ⟨old, hold, rfl, hdue⟩ := hbefore
    obtain ⟨new, hnew, hbecomes⟩ := h.stays old hold hstays
    exact ⟨new, hnew, hbecomes.id_eq, by rw [hbecomes.due?_eq, if_neg hsettled, hdue]⟩

end Proof

namespace Timers

variable {timers : Timers} {p : Proof} {operation : Operation} {reply : Reply} {id : LineId}
  {due : Nat}

/-! ## Timers after an operation -/

theorem Sound.after (h : Sound timers) : Sound (timers.after setting p operation reply) := by
  unfold Timers.after
  refine Sound.stopEach (Sound.stopEach ?_ _) _
  split
  · exact h.restart _ _
  · exact h

theorem Sound.waits_after (h : Sound timers) (hperiod : setting.debounce? = some period) :
    (timers.after setting p operation reply).Waits id due ↔
      id ∉ reply.removedLines ∧ id ∉ p.settledBy setting operation reply ∧
        if p.writtenBy? operation reply = some id then due = p.now + period
        else timers.Waits id due := by
  simp only [Timers.after, hperiod]
  cases hwritten : p.writtenBy? operation reply with
  | none => simp [(h.stopEach _).waits_stopEach, h.waits_stopEach]
  | some written =>
    have hrestart := h.restart written (p.now + period)
    simp only [(hrestart.stopEach _).waits_stopEach, hrestart.waits_stopEach, h.waits_restart,
      Option.some.injEq, eq_comm]

end Timers

namespace Timed

variable {timed : Timed}

/-! ## Steps -/

theorem Sound.start {p : Proof} (hp : p.WellFormed) (hidle : ∀ id due, ¬ p.Waits id due) :
    Sound (start p) where
  wellFormed := hp
  timers := Timers.sound_idle
  waits_iff id due := by
    refine iff_of_false ?_ (hidle id due)
    rintro ⟨timer, htimer, -⟩
    exact absurd htimer List.not_mem_nil
  now_le id due h := absurd h (hidle id due)

/-- The identities of the timers that run out are those of the lines that are due. -/
theorem Sound.map_line_elapsed (h : Sound timed) (time : Nat) :
    (timed.timers.elapsed timed.proof time).map Timer.line =
      (timed.proof.dueBy time).map Prod.snd := by
  rw [← h.map_entry_elapsed, List.map_map]
  rfl

theorem Sound.advance (h : Sound timed) (milliseconds : Nat) :
    Sound (timed.advance setting milliseconds) := by
  have hstamps := Proof.stamps_advance setting h.wellFormed.toWellFormedLines
    milliseconds
  rw [h.advance_eq]
  refine ⟨?_, h.timers.stopEach _, fun id due => ?_, fun id due hwaits => ?_⟩
  · exact (h.wellFormed.run setting [.advance milliseconds]).1
  · rw [h.timers.waits_stopEach, Proof.waits_of_settledIn hstamps, h.waits_iff,
      h.map_line_elapsed]
  · -- What is still pending was not due.
    obtain ⟨hlater, hbefore⟩ := (Proof.waits_of_settledIn hstamps).1 hwaits
    have hnow : (timed.proof.advance setting milliseconds).proof.now =
        timed.proof.now + milliseconds := by
      rw [Proof.proof_advance h.wellFormed.toWellFormedLines]
      rfl
    rw [hnow]
    by_contra hlt
    exact hlater (List.mem_map.2 ⟨(due, id), Proof.mem_dueBy.2 ⟨hbefore, by omega⟩, rfl⟩)

/-- The proof develops as it does without timers. -/
theorem Sound.proof_attempt (h : Sound timed) (operation : Operation) :
    (timed.attempt setting operation).proof = (timed.proof.attempt setting operation).1 := by
  unfold attempt Proof.attempt
  split
  · rw [h.advance_eq]
    rfl
  · cases timed.proof.perform setting operation <;> rfl

/-- An operation that is not the passing of time is refused or carried out. -/
theorem attempt_cases (setting : Setting) (timed : Timed) {operation : Operation}
    (hoperation : ∀ milliseconds, operation ≠ .advance milliseconds) :
    (∃ reason, timed.proof.perform setting operation = .error reason ∧
      timed.attempt setting operation = timed) ∨
    ∃ outcome, timed.proof.perform setting operation = .ok outcome ∧
      timed.attempt setting operation = ⟨outcome.proof,
        timed.timers.after setting timed.proof operation outcome.answer, timed.fired⟩ := by
  unfold attempt
  split
  · exact absurd rfl (hoperation _)
  · cases hperform : timed.proof.perform setting operation with
    | error reason => exact .inl ⟨reason, rfl, rfl⟩
    | ok outcome => exact .inr ⟨outcome, rfl, rfl⟩

theorem Sound.attempt (h : Sound timed) (hperiod : setting.debounce? = some period)
    (operation : Operation) : Sound (timed.attempt setting operation) := by
  by_cases hoperation : ∀ milliseconds, operation ≠ .advance milliseconds
  · have hwell : (timed.attempt setting operation).proof.WellFormed := by
      rw [h.proof_attempt]
      exact (h.wellFormed.run setting [operation]).1
    rcases attempt_cases setting timed hoperation with ⟨_, -, hsame⟩ | ⟨outcome, hdone, hnext⟩
    · rwa [hsame]
    · rw [hnext] at hwell ⊢
      have hevolves := (Proof.Performed.of_perform hdone).evolves
        h.wellFormed.toWellFormedLines hoperation
      refine ⟨hwell, h.timers.after, fun id due => ?_, fun id due hwaits => ?_⟩
      · rw [h.timers.waits_after hperiod, hevolves.waits_iff, hperiod]
        simp only [Option.map_some, Option.some.injEq, h.waits_iff, eq_comm]
      · obtain ⟨-, -, hdue⟩ := (hevolves.waits_iff id due).1 hwaits
        change outcome.proof.now ≤ due
        rw [hevolves.now_eq]
        split at hdue
        · simp only [hperiod, Option.map_some, Option.some.injEq] at hdue
          omega
        · exact h.now_le id due hdue
  · obtain ⟨milliseconds, rfl⟩ := not_forall_not.1 hoperation
    exact h.advance milliseconds

end Timed

end NaturalDeduction
