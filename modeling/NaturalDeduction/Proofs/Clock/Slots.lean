/-
  Slots and timers.

  A line has at most one running timer, the one in its slot. For this, starting
  a timer has to abort the one before, and a timer that was aborted too late
  must not get through: its generation is no longer that of the slot, or the
  slot is empty.
-/

import NaturalDeduction.Proof.Timers

namespace NaturalDeduction.Timers

variable {timers : Timers} {timer other : Timer} {id line : LineId} {due : Nat}

/-- The running timers are those in slots, and no two timers that were ever started share a handle,
or a generation of one line. -/
structure Sound (timers : Timers) : Prop where
  running_nodup : timers.running.Nodup
  started_of_running : ∀ timer ∈ timers.running, timer ∈ timers.started
  slot_eq : ∀ timer ∈ timers.running,
    timers.slots timer.line = ⟨some timer.handle, timer.generation⟩
  running_of_slot : ∀ id handle, (timers.slots id).handle? = some handle →
    ∃ timer ∈ timers.running, timer.line = id ∧ timer.handle = handle
  handle_lt : ∀ timer ∈ timers.started, timer.handle < timers.started.length
  handle_inj : ∀ timer ∈ timers.started, ∀ other ∈ timers.started,
    timer.handle = other.handle → timer = other
  generation_le : ∀ timer ∈ timers.started,
    timer.generation ≤ (timers.slots timer.line).generation
  generation_inj : ∀ timer ∈ timers.started, ∀ other ∈ timers.started,
    timer.line = other.line → timer.generation = other.generation → timer = other

theorem sound_idle : Sound idle := by
  constructor <;> simp [idle]

/-! ## Stopping a timer -/

theorem slots_stop (timers : Timers) (id line : LineId) : (timers.stop id).slots line =
    if line = id then { timers.slots id with handle? := none } else timers.slots line := by
  unfold stop
  split
  · rename_i hempty
    split
    · rename_i hline
      rw [← hempty, hline]
    · rfl
  · rfl

@[simp] theorem started_stop (timers : Timers) (id : LineId) :
    (timers.stop id).started = timers.started := by
  unfold stop
  split <;> rfl

theorem generation_stop (timers : Timers) (id line : LineId) :
    ((timers.stop id).slots line).generation = (timers.slots line).generation := by
  rw [slots_stop]
  split
  · rename_i hline
    rw [hline]
  · rfl

theorem stop_stop (timers : Timers) (id : LineId) : (timers.stop id).stop id = timers.stop id := by
  have hempty : ((timers.stop id).slots id).handle? = none := by
    rw [slots_stop, if_pos rfl]
  generalize timers.stop id = stopped at hempty ⊢
  simp only [stop, hempty]

namespace Sound

/-- A line has at most one running timer. -/
theorem eq_of_line_eq (h : Sound timers) (htimer : timer ∈ timers.running)
    (hother : other ∈ timers.running) (hline : timer.line = other.line) : timer = other := by
  have hslot := h.slot_eq timer htimer
  rw [hline, h.slot_eq other hother] at hslot
  have hgeneration : timer.generation = other.generation := (congrArg Slot.generation hslot).symm
  exact h.generation_inj timer (h.started_of_running timer htimer) other
    (h.started_of_running other hother) hline hgeneration

/-- Stopping aborts the timer of the line and no other one. -/
theorem running_stop (h : Sound timers) (id : LineId) :
    (timers.stop id).running = timers.running.filter (·.line ≠ id) := by
  unfold stop
  split
  · rename_i hempty
    refine (List.filter_eq_self.2 fun timer htimer => ?_).symm
    refine decide_eq_true fun hline => ?_
    rw [← hline, h.slot_eq timer htimer] at hempty
    cases hempty
  · rename_i handle hhandle
    obtain ⟨aborted, haborted, hline, rfl⟩ := h.running_of_slot id handle hhandle
    refine List.filter_congr fun timer htimer => ?_
    -- The handle is that of one timer, and the line has no other timer.
    have hiff : timer.handle = aborted.handle ↔ timer.line = id := by
      constructor
      · intro hsame
        rw [h.handle_inj timer (h.started_of_running timer htimer) aborted
          (h.started_of_running aborted haborted) hsame, hline]
      · intro hsame
        rw [h.eq_of_line_eq htimer haborted (hsame.trans hline.symm)]
    simp [hiff]

theorem mem_running_stop (h : Sound timers) :
    timer ∈ (timers.stop id).running ↔ timer ∈ timers.running ∧ timer.line ≠ id := by
  simp [h.running_stop]

theorem stop (h : Sound timers) (id : LineId) : Sound (timers.stop id) where
  running_nodup := by
    rw [h.running_stop]
    exact h.running_nodup.filter _
  started_of_running timer htimer := by
    rw [started_stop]
    exact h.started_of_running timer (h.mem_running_stop.1 htimer).1
  slot_eq timer htimer := by
    obtain ⟨hrunning, hline⟩ := h.mem_running_stop.1 htimer
    rw [slots_stop, if_neg hline]
    exact h.slot_eq timer hrunning
  running_of_slot line handle hhandle := by
    rw [slots_stop] at hhandle
    split at hhandle
    · cases hhandle
    · rename_i hne
      obtain ⟨timer, hrunning, rfl, hsame⟩ := h.running_of_slot line handle hhandle
      exact ⟨timer, h.mem_running_stop.2 ⟨hrunning, hne⟩, rfl, hsame⟩
  handle_lt := by simpa using h.handle_lt
  handle_inj := by simpa using h.handle_inj
  generation_le := by simpa [generation_stop] using h.generation_le
  generation_inj := by simpa using h.generation_inj

theorem stopEach (h : Sound timers) (ids : List LineId) : Sound (timers.stopEach ids) := by
  induction ids generalizing timers with
  | nil => exact h
  | cons id ids ih => exact ih (h.stop id)


end Sound

/-! ## Starting a timer -/

theorem slots_begin (line : LineId) : (timers.begin id due).slots line =
    if line = id then ⟨some timers.started.length, (timers.slots id).generation + 1⟩
    else timers.slots line := rfl

theorem mem_running_begin : timer ∈ (timers.begin id due).running ↔
    timer ∈ timers.running ∨ timer = timers.next id due := by
  simp [Timers.begin]

theorem mem_started_begin : timer ∈ (timers.begin id due).started ↔
    timer ∈ timers.started ∨ timer = timers.next id due := by
  simp [Timers.begin]

namespace Sound

/-- No timer has the handle of the next one. -/
theorem handle_ne_next (h : Sound timers) (htimer : timer ∈ timers.started) :
    timer.handle ≠ (timers.next id due).handle :=
  Nat.ne_of_lt (h.handle_lt timer htimer)

/-- No timer of the line has the generation of the next one. -/
theorem generation_ne_next (h : Sound timers) (htimer : timer ∈ timers.started)
    (hline : timer.line = id) : timer.generation ≠ (timers.next id due).generation := by
  have hle := h.generation_le timer htimer
  rw [hline] at hle
  exact Nat.ne_of_lt (Nat.lt_succ_of_le hle)

theorem begin (h : Sound timers) (hidle : ∀ timer ∈ timers.running, timer.line ≠ id) :
    Sound (timers.begin id due) where
  running_nodup := by
    refine List.Nodup.append h.running_nodup (List.nodup_singleton _) ?_
    rintro timer hrunning hnext
    obtain rfl := List.mem_singleton.1 hnext
    exact h.handle_ne_next (h.started_of_running _ hrunning) rfl
  started_of_running timer htimer := by
    rcases mem_running_begin.1 htimer with hrunning | rfl
    · exact mem_started_begin.2 (.inl (h.started_of_running timer hrunning))
    · exact mem_started_begin.2 (.inr rfl)
  slot_eq timer htimer := by
    rcases mem_running_begin.1 htimer with hrunning | rfl
    · rw [slots_begin, if_neg (hidle timer hrunning)]
      exact h.slot_eq timer hrunning
    · rw [slots_begin]
      exact if_pos rfl
  running_of_slot line handle hhandle := by
    rw [slots_begin] at hhandle
    split at hhandle
    · rename_i hline
      exact ⟨timers.next id due, mem_running_begin.2 (.inr rfl), hline.symm,
        Option.some.inj hhandle⟩
    · obtain ⟨timer, hrunning, hfound⟩ := h.running_of_slot line handle hhandle
      exact ⟨timer, mem_running_begin.2 (.inl hrunning), hfound⟩
  handle_lt timer htimer := by
    have hlength : (timers.begin id due).started.length = timers.started.length + 1 := by
      simp [Timers.begin]
    rw [hlength]
    rcases mem_started_begin.1 htimer with hstarted | rfl
    · exact Nat.lt_succ_of_lt (h.handle_lt timer hstarted)
    · exact Nat.lt_succ_self _
  handle_inj timer htimer other hother hsame := by
    rcases mem_started_begin.1 htimer with hstarted | rfl <;>
      rcases mem_started_begin.1 hother with hbefore | rfl
    · exact h.handle_inj timer hstarted other hbefore hsame
    · exact absurd hsame (h.handle_ne_next hstarted)
    · exact absurd hsame.symm (h.handle_ne_next hbefore)
    · rfl
  generation_le timer htimer := by
    rw [slots_begin]
    rcases mem_started_begin.1 htimer with hstarted | rfl
    · split
      · rename_i hline
        exact Nat.le_succ_of_le (hline ▸ h.generation_le timer hstarted)
      · exact h.generation_le timer hstarted
    · have hline : (timers.next id due).line = id := rfl
      rw [if_pos hline]
      exact Nat.le_refl _
  generation_inj timer htimer other hother hline hsame := by
    rcases mem_started_begin.1 htimer with hstarted | rfl <;>
      rcases mem_started_begin.1 hother with hbefore | rfl
    · exact h.generation_inj timer hstarted other hbefore hline hsame
    · exact absurd hsame (h.generation_ne_next hstarted hline)
    · exact absurd hsame.symm (h.generation_ne_next hbefore hline.symm)
    · rfl

theorem restart (h : Sound timers) (id : LineId) (due : Nat) : Sound (timers.restart id due) :=
  (h.stop id).begin fun _ hrunning => (h.mem_running_stop.1 hrunning).2

/-! ## A timer that runs out -/

/-- A running timer is let through, and leaves what stopping it would leave. -/
theorem take?_expire (h : Sound timers) (htimer : timer ∈ timers.running) :
    (timers.expire timer).take? timer = some (timers.stop timer.line) := by
  have hslot := h.slot_eq timer htimer
  have hrunning : timers.running.filter (· ≠ timer) =
      timers.running.filter (·.handle ≠ timer.handle) := by
    refine List.filter_congr fun other hother => ?_
    have hiff : other = timer ↔ other.handle = timer.handle :=
      ⟨congrArg Timer.handle, h.handle_inj other (h.started_of_running other hother) timer
        (h.started_of_running timer htimer)⟩
    simp [hiff]
  have hlet : (timers.slots timer.line).generation = timer.generation ∧
      (timers.slots timer.line).handle?.isSome := by
    rw [hslot]
    exact ⟨rfl, rfl⟩
  have hstop : timers.stop timer.line =
      { timers.setSlot timer.line { timers.slots timer.line with handle? := none } with
        running := timers.running.filter (·.handle ≠ timer.handle) } := by
    simp only [Timers.stop, hslot]
  rw [hstop, ← hrunning]
  exact if_pos hlet

/-- A timer that was aborted or has fired is turned away. -/
theorem take?_eq_none (h : Sound timers) (hstarted : timer ∈ timers.started)
    (haborted : timer ∉ timers.running) : timers.take? timer = none := by
  refine if_neg fun ⟨hgeneration, hfull⟩ => haborted ?_
  obtain ⟨handle, hhandle⟩ := Option.isSome_iff_exists.1 hfull
  obtain ⟨other, hrunning, hline, -⟩ := h.running_of_slot _ handle hhandle
  rw [← hline, h.slot_eq other hrunning] at hgeneration
  rwa [h.generation_inj timer hstarted other (h.started_of_running other hrunning) hline.symm
    hgeneration.symm]

end Sound

/-! ## What lines wait for -/

/-- A timer is running for the line that is due at this time. -/
def Waits (timers : Timers) (id : LineId) (due : Nat) : Prop :=
  ∃ timer ∈ timers.running, timer.line = id ∧ timer.due = due

namespace Sound

theorem waits_stop (h : Sound timers) :
    (timers.stop id).Waits line due ↔ line ≠ id ∧ timers.Waits line due := by
  simp only [Waits, h.mem_running_stop]
  constructor
  · rintro ⟨timer, ⟨hrunning, hne⟩, rfl, hdue⟩
    exact ⟨hne, timer, hrunning, rfl, hdue⟩
  · rintro ⟨hne, timer, hrunning, rfl, hdue⟩
    exact ⟨timer, ⟨hrunning, hne⟩, rfl, hdue⟩

theorem waits_stopEach (h : Sound timers) {ids : List LineId} :
    (timers.stopEach ids).Waits line due ↔ line ∉ ids ∧ timers.Waits line due := by
  induction ids generalizing timers with
  | nil => simp [Timers.stopEach]
  | cons id ids ih =>
    rw [List.mem_cons, not_or]
    exact (ih (h.stop id)).trans (by rw [h.waits_stop]; tauto)

theorem waits_restart (h : Sound timers) {time : Nat} :
    (timers.restart id due).Waits line time ↔
      if line = id then time = due else timers.Waits line time := by
  have hstopped : (timers.stop id).Waits line time ↔ line ≠ id ∧ timers.Waits line time :=
    h.waits_stop
  simp only [Waits] at hstopped
  simp only [Waits, Timers.restart, mem_running_begin, or_and_right, exists_or, hstopped,
    exists_eq_left]
  split
  · rename_i hline
    simp [hline, next, eq_comm]
  · rename_i hline
    simp [hline, next, Ne.symm hline]

end Sound

end NaturalDeduction.Timers
