/-
  What a session leads to.

  A line waits for its verification just when its text was changed and the line
  was not verified since, and it is due one period after that change. Every
  operation keeps this up, and so does the passing of time, which turns waiting
  lines into verified ones. So what timers have done by the end of a session can
  be told from its operations.
-/

import NaturalDeduction.Proofs.Clock.History

namespace NaturalDeduction

namespace Proof

variable {setting : Setting} {p q : Proof} {id : LineId} {due period : Nat}
  {due? : Option Nat} {written? : Option LineId} {settled removed : List LineId}

/-! ## Changed texts -/

theorem rewrites_iff_stamps : Rewrites p q id ↔
    ∃ old ∈ p.stamps, ∃ new ∈ q.stamps, old.id = id ∧ new.id = id ∧ old.text ≠ new.text := by
  simp [Rewrites, stamps, Line.stamp]

theorem exists_of_waits (h : p.Waits id due) : ∃ line ∈ p.lines, line.id = id := by
  obtain ⟨line, hline, hid, -⟩ := waits_iff.1 h
  exact ⟨line, hline, hid⟩

theorem eq_of_stamp_id_eq (hp : WellFormedLines p) {stamp other : Stamp} (hstamp : stamp ∈ p.stamps)
    (hother : other ∈ p.stamps) (h : stamp.id = other.id) : stamp = other := by
  refine List.inj_on_of_nodup_map ?_ hstamp hother h
  rw [map_id_stamps]
  exact hp.ids_nodup

/-- A line waits for one time only. -/
theorem Waits.unique {time : Nat} (hp : WellFormedLines p) (h : p.Waits id due)
    (hother : p.Waits id time) : due = time := by
  obtain ⟨stamp, hstamp, rfl, hdue⟩ := h
  obtain ⟨other, hmem, hid, htime⟩ := hother
  obtain rfl := eq_of_stamp_id_eq hp hmem hstamp hid
  exact Option.some.inj (hdue.symm.trans htime)

/-- Verifications change no text. -/
theorem not_rewrites_of_settledIn (hp : WellFormedLines p)
    (hstamps : q.stamps = p.stamps.map (Stamp.settledIn settled)) : ¬ Rewrites p q id := by
  rw [rewrites_iff_stamps, hstamps]
  rintro ⟨old, hold, _, hnew, rfl, hid, htext⟩
  obtain ⟨stamp, hstamp, rfl⟩ := List.mem_map.1 hnew
  rw [Stamp.id_settledIn] at hid
  obtain rfl := eq_of_stamp_id_eq hp hstamp hold hid
  refine htext ?_
  unfold Stamp.settledIn
  split <;> rfl

/-- A step changes the text of the line that it writes and of no other one. -/
theorem Evolves.rewrites_iff (hp : WellFormedLines p)
    (h : Evolves due? written? settled removed p q) :
    Rewrites p q id ↔ id ∉ removed ∧ written? = some id := by
  rw [rewrites_iff_stamps]
  constructor
  · rintro ⟨old, hold, new, hnew, rfl, hid, htext⟩
    obtain ⟨hstays, ⟨other, hother, hbecomes⟩ | ⟨-, hfresh⟩⟩ := h.origin new hnew
    · obtain rfl := eq_of_stamp_id_eq hp hother hold (hbecomes.id_eq.symm.trans hid)
      exact ⟨hid ▸ hstays, hbecomes.text_ne_iff.1 htext.symm⟩
    · -- The identity of a new line is that of no line before.
      refine absurd ?_ hp.nextLine_not_mem
      rw [← hfresh, hid, ← map_id_stamps]
      exact List.mem_map_of_mem hold
  · rintro ⟨hstays, hid⟩
    obtain ⟨old, hold, rfl⟩ := h.exists_of_written id hid
    obtain ⟨new, hnew, hbecomes⟩ := h.stays old hold hstays
    exact ⟨old, hold, new, hnew, rfl, hbecomes.id_eq, (hbecomes.text_ne_iff.2 hid).symm⟩

theorem Evolves.not_removed (h : Evolves due? written? settled removed p q)
    (hexists : ∃ line ∈ q.lines, line.id = id) : id ∉ removed := by
  obtain ⟨line, hline, rfl⟩ := hexists
  exact (h.origin line.stamp (List.mem_map_of_mem hline)).1

/-- Lines that are there after a step were there before, unless they are new. -/
theorem Evolves.exists_of_lt (h : Evolves due? written? settled removed p q) {line : Line}
    (hline : line ∈ q.lines) (hlt : line.id < p.nextLine) : ∃ old ∈ p.lines, old.id = line.id := by
  obtain ⟨-, ⟨old, hold, hbecomes⟩ | ⟨-, hfresh⟩⟩ :=
    h.origin line.stamp (List.mem_map_of_mem hline)
  · exact exists_stamp_iff.1 ⟨old, hold, hbecomes.id_eq.symm⟩
  · exact absurd hfresh (Nat.ne_of_lt hlt)

/-- A line waits after a step if it is there, the step has not verified it, and the step has written
it, or it waited before. -/
theorem Evolves.waits_iff_rewrites {time : Nat} (hp : WellFormedLines p)
    (h : Evolves (some time) written? settled removed p q) :
    q.Waits id due ↔ (∃ line ∈ q.lines, line.id = id) ∧ id ∉ settled ∧
      (Rewrites p q id ∧ due = time ∨ ¬ Rewrites p q id ∧ p.Waits id due) := by
  have hiff := h.waits_iff id due
  rw [h.rewrites_iff hp]
  constructor
  · intro hwaits
    obtain ⟨hstays, hsettled, hdue⟩ := hiff.1 hwaits
    refine ⟨exists_of_waits hwaits, hsettled, ?_⟩
    split at hdue
    · exact .inl ⟨⟨hstays, ‹_›⟩, (Option.some.inj hdue).symm⟩
    · exact .inr ⟨fun hrewrites => ‹¬ _› hrewrites.2, hdue⟩
  · rintro ⟨hexists, hsettled, ⟨⟨hstays, hid⟩, rfl⟩ | ⟨hkept, hbefore⟩⟩
    · exact hiff.2 ⟨hstays, hsettled, by rw [if_pos hid]⟩
    · have hstays := h.not_removed hexists
      exact hiff.2 ⟨hstays, hsettled, by rwa [if_neg fun hid => hkept ⟨hstays, hid⟩]⟩

end Proof

namespace Timed

variable {setting : Setting} {start : Proof} {period : Nat} {operations : List Operation}
  {timed next : Timed} {operation : Operation} {id : LineId} {time due : Nat}

open Proof

/-! ## Sessions -/

/-- A timer has verified the line at this time. -/
def Fired (timed : Timed) (time : Nat) (id : LineId) : Prop :=
  ∃ firing ∈ timed.fired, firing.time = time ∧ firing.line = id

/-- What a session has led to: a line waits for what was written one period before it is due, and
what was written and not verified since either waits or was verified by a timer. -/
structure Follows (setting : Setting) (start : Proof) (period : Nat)
    (operations : List Operation) (timed : Timed) : Prop where
  sound : timed.Sound
  proof_eq : timed.proof = (start.run setting operations).1
  unverified_of_waits : ∀ id due, timed.proof.Waits id due → ∃ changed, due = changed + period ∧
    UnverifiedSince setting start operations id changed
  waits_or_fired : ∀ id changed, UnverifiedSince setting start operations id changed →
    (∃ line ∈ timed.proof.lines, line.id = id) →
    timed.proof.Waits id (changed + period) ∨ timed.Fired (changed + period) id
  fired_iff : ∀ time id, timed.Fired time id ↔ ComesDue setting start period operations time id

/-- What one operation does to the pending verifications: a line waits after it if it was written by
it, or waited before and was not written, and if the operation has not verified it. -/
structure Passes (setting : Setting) (period : Nat) (p q : Proof) (operation : Operation) :
    Prop where
  waits_iff : ∀ id due, q.Waits id due ↔ (∃ line ∈ q.lines, line.id = id) ∧
    id ∉ p.requested setting operation ∧
    (Rewrites p q id ∧ due = p.now + period ∨ ¬ Rewrites p q id ∧ p.Waits id due)
  exists_of_lt : ∀ line ∈ q.lines, line.id < p.nextLine → ∃ old ∈ p.lines, old.id = line.id
  now_eq : q.now = p.now

theorem passes_attempt (h : Sound timed) (hperiod : setting.debounce? = some period)
    (hoperation : ∀ milliseconds, operation ≠ .advance milliseconds) :
    Passes setting period timed.proof (timed.attempt setting operation).proof operation := by
  have hp := h.wellFormed.toWellFormedLines
  rcases attempt_cases setting timed hoperation with ⟨_, hrefused, hsame⟩ | ⟨outcome, hdone, hnext⟩
  · rw [hsame]
    refine ⟨fun id due => ?_, fun line hline _ => ⟨line, hline, rfl⟩, rfl⟩
    have hrequested : timed.proof.requested setting operation = [] := by
      simp only [requested, hrefused]
    have hstamps : timed.proof.stamps = timed.proof.stamps.map (Stamp.settledIn []) := by simp
    have hrewrites : ¬ Rewrites timed.proof timed.proof id :=
      not_rewrites_of_settledIn hp hstamps
    have hexists : timed.proof.Waits id due → ∃ line ∈ timed.proof.lines, line.id = id :=
      exists_of_waits
    simpa [hrequested, hrewrites] using hexists
  · rw [hnext]
    have hevolves := (Performed.of_perform hdone).evolves hp hoperation
    have hrequested : timed.proof.requested setting operation =
        timed.proof.settledBy setting operation outcome.answer := by
      simp only [requested, hdone]
    rw [hperiod] at hevolves
    exact ⟨fun id due => hrequested ▸ hevolves.waits_iff_rewrites hp,
      fun line hline hlt => hevolves.exists_of_lt hline hlt, hevolves.now_eq⟩

/-- What waits after time has passed was waiting, and is due later. -/
theorem waits_advance_iff (h : Sound timed) (milliseconds : Nat) :
    (timed.advance setting milliseconds).proof.Waits id due ↔
      timed.proof.Waits id due ∧ timed.proof.now + milliseconds < due := by
  have hp := h.wellFormed.toWellFormedLines
  have hstamps := stamps_advance setting hp milliseconds
  rw [h.advance_eq, waits_of_settledIn hstamps, and_comm]
  refine and_congr_right fun hwaits => ?_
  rw [← not_le, not_iff_not, List.mem_map]
  constructor
  · rintro ⟨⟨time, _⟩, hentry, rfl⟩
    obtain ⟨hsame, hle⟩ := mem_dueBy.1 hentry
    rwa [hwaits.unique hp hsame]
  · exact fun hle => ⟨(due, id), mem_dueBy.2 ⟨hwaits, hle⟩, rfl⟩

/-- When time passes, the timers run out that are due by then. -/
theorem fired_advance_iff (h : Sound timed) (milliseconds : Nat) :
    (timed.advance setting milliseconds).Fired time id ↔ timed.Fired time id ∨
      timed.proof.Waits id time ∧ time ≤ timed.proof.now + milliseconds := by
  rw [h.advance_eq, ← h.waits_iff]
  simp only [Fired, List.mem_append, List.mem_map, or_and_right, exists_or, Timers.Waits]
  refine or_congr_right ?_
  constructor
  · rintro ⟨_, ⟨timer, htimer, rfl⟩, rfl, rfl⟩
    obtain ⟨hrunning, hle⟩ := Timers.mem_elapsed.1 htimer
    exact ⟨⟨timer, hrunning, rfl, rfl⟩, hle⟩
  · rintro ⟨⟨timer, hrunning, rfl, rfl⟩, hle⟩
    exact ⟨_, ⟨timer, Timers.mem_elapsed.2 ⟨hrunning, hle⟩, rfl⟩, rfl, rfl⟩

/-- Operations other than the passing of time make no timer run out. -/
theorem fired_attempt (setting : Setting) (timed : Timed)
    (hoperation : ∀ milliseconds, operation ≠ .advance milliseconds) :
    (timed.attempt setting operation).fired = timed.fired := by
  rcases attempt_cases setting timed hoperation with ⟨_, -, hsame⟩ | ⟨_, -, hnext⟩
  · rw [hsame]
  · rw [hnext]

namespace Follows

theorem start_nil (hstart : start.WellFormed) (hidle : ∀ id due, ¬ start.Waits id due) :
    Follows setting start period [] (Timed.start start) where
  sound := .start hstart hidle
  proof_eq := rfl
  unverified_of_waits id due h := absurd h (hidle id due)
  waits_or_fired id changed h := absurd h not_unverifiedSince_nil
  fired_iff time id := by
    refine iff_of_false ?_ ?_
    · rintro ⟨firing, hfiring, -⟩
      exact absurd hfiring List.not_mem_nil
    · rintro ⟨n, milliseconds, hoperation, -⟩
      cases hoperation

theorem concat (hstart : start.WellFormed) (h : Follows setting start period operations timed)
    (hperiod : setting.debounce? = some period)
    (hoperation : ∀ milliseconds, operation ≠ .advance milliseconds) :
    Follows setting start period (operations ++ [operation]) (timed.attempt setting operation) := by
  have hpasses := passes_attempt h.sound hperiod hoperation
  have hproof : (timed.attempt setting operation).proof =
      (start.run setting (operations ++ [operation])).1 := by
    rw [h.sound.proof_attempt, h.proof_eq, run_concat]
  have hiff : ∀ {id changed}, UnverifiedSince setting start (operations ++ [operation]) id changed ↔
      id ∉ timed.proof.requested setting operation ∧
        (Rewrites timed.proof (timed.attempt setting operation).proof id ∧
          timed.proof.now = changed ∨
        ¬ Rewrites timed.proof (timed.attempt setting operation).proof id ∧
          UnverifiedSince setting start operations id changed) := by
    intro id changed
    rw [unverifiedSince_concat, h.sound.proof_attempt, h.proof_eq]
  refine ⟨h.sound.attempt hperiod operation, hproof, fun id due hwaits => ?_,
    fun id changed hunverified hexists => ?_, fun time id => ?_⟩
  · obtain ⟨-, hquiet, ⟨hwritten, hdue⟩ | ⟨hkept, hbefore⟩⟩ := (hpasses.waits_iff id due).1 hwaits
    · exact ⟨_, hdue, hiff.2 ⟨hquiet, .inl ⟨hwritten, rfl⟩⟩⟩
    · obtain ⟨changed, hdue, hunverified⟩ := h.unverified_of_waits id due hbefore
      exact ⟨changed, hdue, hiff.2 ⟨hquiet, .inr ⟨hkept, hunverified⟩⟩⟩
  · obtain ⟨hquiet, ⟨hwritten, rfl⟩ | ⟨hkept, hbefore⟩⟩ := hiff.1 hunverified
    · exact .inl ((hpasses.waits_iff _ _).2 ⟨hexists, hquiet, .inl ⟨hwritten, rfl⟩⟩)
    · -- The line is not a new one, for its text was changed before.
      have hlt : id < timed.proof.nextLine := h.proof_eq ▸ hbefore.id_lt hstart
      obtain ⟨line, hline, rfl⟩ := hexists
      rcases h.waits_or_fired _ _ hbefore (hpasses.exists_of_lt line hline hlt) with
        hwaits | hfired
      · exact .inl ((hpasses.waits_iff _ _).2
          ⟨⟨line, hline, rfl⟩, hquiet, .inr ⟨hkept, hwaits⟩⟩)
      · refine .inr ?_
        rwa [Fired, fired_attempt setting timed hoperation]
  · rw [Fired, fired_attempt setting timed hoperation, comesDue_concat]
    refine (h.fired_iff time id).trans (or_iff_left ?_).symm
    rintro ⟨milliseconds, hadvance, -⟩
    exact hoperation milliseconds hadvance

theorem advance (h : Follows setting start period operations timed) (milliseconds : Nat) :
    Follows setting start period (operations ++ [.advance milliseconds])
      (timed.advance setting milliseconds) := by
  have hp := h.sound.wellFormed.toWellFormedLines
  have hproof : (timed.advance setting milliseconds).proof =
      (start.run setting (operations ++ [.advance milliseconds])).1 := by
    rw [run_concat, ← h.proof_eq]
    exact h.sound.proof_attempt (.advance milliseconds)
  have hexists : ∀ id, (∃ line ∈ (timed.advance setting milliseconds).proof.lines, line.id = id) ↔
      ∃ line ∈ timed.proof.lines, line.id = id := by
    intro id
    rw [h.sound.advance_eq, ← exists_stamp_iff, stamps_advance setting hp, ← exists_stamp_iff]
    simp
  -- Time changes no text, and what it verifies was not asked for.
  have hiff : ∀ id changed, UnverifiedSince setting start (operations ++ [.advance milliseconds])
      id changed ↔ UnverifiedSince setting start operations id changed := by
    intro id changed
    have hkept : ¬ Rewrites timed.proof
        (timed.proof.attempt setting (.advance milliseconds)).1 id :=
      not_rewrites_of_settledIn hp (stamps_advance setting hp milliseconds)
    have hquiet : timed.proof.requested setting (.advance milliseconds) = [] := rfl
    rw [unverifiedSince_concat, ← h.proof_eq]
    simp [hkept, hquiet]
  refine ⟨h.sound.advance milliseconds, hproof, fun id due hwaits => ?_,
    fun id changed hunverified hthere => ?_, fun time id => ?_⟩
  · simp only [hiff]
    exact h.unverified_of_waits id due ((waits_advance_iff h.sound milliseconds).1 hwaits).1
  · rw [hiff] at hunverified
    rw [waits_advance_iff h.sound, fired_advance_iff h.sound]
    rcases h.waits_or_fired id changed hunverified ((hexists id).1 hthere) with hwaits | hfired
    · rcases Nat.lt_or_ge (timed.proof.now + milliseconds) (changed + period) with hlt | hle
      · exact .inl ⟨hwaits, hlt⟩
      · exact .inr (.inr ⟨hwaits, hle⟩)
    · exact .inr (.inl hfired)
  · rw [fired_advance_iff h.sound, comesDue_concat, h.fired_iff, ← h.proof_eq]
    constructor
    · rintro (hbefore | ⟨hwaits, hle⟩)
      · exact .inl hbefore
      · exact .inr ⟨milliseconds, rfl, exists_of_waits hwaits, h.sound.now_le id time hwaits, hle,
          h.unverified_of_waits id time hwaits⟩
    · rintro (hbefore | ⟨_, hsame, hthere, -, hle, changed, rfl, hunverified⟩)
      · exact .inl hbefore
      · cases hsame
        rcases h.waits_or_fired id changed hunverified hthere with hwaits | hfired
        · exact .inr ⟨hwaits, hle⟩
        · exact .inl ((h.fired_iff _ _).1 hfired)

theorem run (hstart : start.WellFormed) (hidle : ∀ id due, ¬ start.Waits id due)
    (hperiod : setting.debounce? = some period) (operations : List Operation) :
    Follows setting start period operations ((Timed.start start).run setting operations) := by
  induction operations using List.reverseRecOn with
  | nil => exact start_nil hstart hidle
  | append_singleton operations operation ih =>
    have hrun : (Timed.start start).run setting (operations ++ [operation]) =
        ((Timed.start start).run setting operations).attempt setting operation :=
      List.foldl_concat ..
    rw [hrun]
    by_cases hoperation : ∀ milliseconds, operation ≠ .advance milliseconds
    · exact ih.concat hstart hperiod hoperation
    · obtain ⟨milliseconds, rfl⟩ := not_forall_not.1 hoperation
      exact ih.advance milliseconds

end Follows

end Timed

end NaturalDeduction
