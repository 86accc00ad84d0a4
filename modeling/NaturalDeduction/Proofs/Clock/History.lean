/-
  What has happened to a line in a session.

  A session is looked at from outside: which operations changed the text of a
  line, what the clock showed then, and which operations verified the line. This
  says when a line is to be verified by itself, without any mention of timers.
-/

import NaturalDeduction.Proofs.Clock.Tracking
import NaturalDeduction.Proofs.Document.Construction

namespace NaturalDeduction.Proof

/-! ## One operation -/

/-- The line is there before and after, with different texts. -/
def Rewrites (p q : Proof) (id : LineId) : Prop :=
  ∃ old ∈ p.lines, ∃ new ∈ q.lines, old.id = id ∧ new.id = id ∧ old.text ≠ new.text

/-- The lines that an operation verifies; one that is refused verifies none. -/
def requested (setting : Setting) (p : Proof) (operation : Operation) : List LineId :=
  match p.perform setting operation with
  | .ok outcome => p.settledBy setting operation outcome.answer
  | .error _ => []

/-! ## Sessions -/

/-- The operation number `n` changes the text of the line. -/
def ChangesText (setting : Setting) (start : Proof) (operations : List Operation) (id : LineId)
    (n : Nat) : Prop :=
  n < operations.length ∧
    Rewrites (moment setting start operations n) (moment setting start operations (n + 1)) id

/-- The operation number `n` verifies the line. -/
def Verifies (setting : Setting) (start : Proof) (operations : List Operation) (id : LineId)
    (n : Nat) : Prop :=
  ∃ operation, operations[n]? = some operation ∧
    id ∈ (moment setting start operations n).requested setting operation

/-- The text of the line was last changed at this time, and no operation has verified the line
since. An operation that changes a text may verify the line then, which counts. -/
def UnverifiedSince (setting : Setting) (start : Proof) (operations : List Operation)
    (id : LineId) (time : Nat) : Prop :=
  ∃ n, ChangesText setting start operations id n ∧ (moment setting start operations n).now = time ∧
    (∀ m, n < m → ¬ ChangesText setting start operations id m) ∧
    ∀ m, n ≤ m → ¬ Verifies setting start operations id m

/-- The clock comes to a time, while the line is there, at which its text was last changed one
period before and no operation has verified it since. -/
def ComesDue (setting : Setting) (start : Proof) (period : Nat) (operations : List Operation)
    (time : Nat) (id : LineId) : Prop :=
  ∃ n milliseconds, operations[n]? = some (.advance milliseconds) ∧
    (∃ line ∈ (moment setting start operations n).lines, line.id = id) ∧
    (moment setting start operations n).now ≤ time ∧
    time ≤ (moment setting start operations n).now + milliseconds ∧
    ∃ changed, time = changed + period ∧
      UnverifiedSince setting start (operations.take n) id changed

variable {setting : Setting} {start p q : Proof} {operations : List Operation}
  {operation : Operation} {id : LineId} {n time : Nat}

/-! ## One operation more -/

theorem changesText_append (h : n < operations.length) :
    ChangesText setting start (operations ++ [operation]) id n ↔
      ChangesText setting start operations id n := by
  simp only [ChangesText, moment_append (Nat.le_of_lt h), moment_append (Nat.succ_le_of_lt h), h,
    true_and, and_iff_right_iff_imp, List.length_append]
  exact fun _ => Nat.lt_add_right _ h

theorem changesText_concat :
    ChangesText setting start (operations ++ [operation]) id operations.length ↔
      Rewrites (start.run setting operations).1
        ((start.run setting operations).1.attempt setting operation).1 id := by
  have hlast : moment setting start (operations ++ [operation]) (operations.length + 1) =
      (start.run setting (operations ++ [operation])).1 := by
    rw [← moment_length, List.length_append, List.length_singleton]
  rw [ChangesText, moment_append (Nat.le_refl _), moment_length, hlast, run_concat]
  simp

theorem verifies_append (h : n < operations.length) :
    Verifies setting start (operations ++ [operation]) id n ↔
      Verifies setting start operations id n := by
  simp only [Verifies, moment_append (Nat.le_of_lt h), List.getElem?_append_left h]

theorem verifies_concat :
    Verifies setting start (operations ++ [operation]) id operations.length ↔
      id ∈ (start.run setting operations).1.requested setting operation := by
  simp [Verifies, moment_append, moment_length]

theorem lt_length_of_verifies (h : Verifies setting start operations id n) :
    n < operations.length := by
  obtain ⟨_, hoperation, -⟩ := h
  exact (List.getElem?_eq_some_iff.1 hoperation).1

/-- A line is unverified after one operation more if this one has changed its text, or the line was
unverified before, and if the operation has not verified it. -/
theorem unverifiedSince_concat :
    UnverifiedSince setting start (operations ++ [operation]) id time ↔
      id ∉ (start.run setting operations).1.requested setting operation ∧
        (Rewrites (start.run setting operations).1
            ((start.run setting operations).1.attempt setting operation).1 id ∧
          (start.run setting operations).1.now = time ∨
        ¬ Rewrites (start.run setting operations).1
            ((start.run setting operations).1.attempt setting operation).1 id ∧
          UnverifiedSince setting start operations id time) := by
  rw [← verifies_concat, ← changesText_concat, ← moment_length]
  constructor
  · rintro ⟨n, hchange, hnow, hlast, hquiet⟩
    have hlt : n < operations.length + 1 := by simpa using hchange.1
    refine ⟨hquiet _ (Nat.le_of_lt_succ hlt), ?_⟩
    rw [moment_append (Nat.le_of_lt_succ hlt)] at hnow
    rcases Nat.lt_succ_iff_lt_or_eq.1 hlt with hbefore | rfl
    · refine .inr ⟨hlast _ hbefore, n, (changesText_append hbefore).1 hchange, hnow,
        fun m hm hm' => ?_, fun m hm hm' => ?_⟩
      · exact hlast m hm ((changesText_append hm'.1).2 hm')
      · exact hquiet m hm ((verifies_append (lt_length_of_verifies hm')).2 hm')
    · exact .inl ⟨hchange, hnow⟩
  · rintro ⟨hquiet, ⟨hchange, hnow⟩ | ⟨hlast, n, hchange, hnow, hlater, hbefore⟩⟩
    · refine ⟨operations.length, hchange, ?_, fun m hm hm' => ?_, fun m hm hm' => ?_⟩
      · rwa [moment_append (Nat.le_refl _)]
      · have hlt : m < operations.length + 1 := by simpa using hm'.1
        omega
      · have hlt : m < operations.length + 1 := by simpa using lt_length_of_verifies hm'
        obtain rfl : m = operations.length := by omega
        exact hquiet hm'
    · refine ⟨n, (changesText_append hchange.1).2 hchange, ?_, fun m hm hm' => ?_,
        fun m hm hm' => ?_⟩
      · rwa [moment_append (Nat.le_of_lt hchange.1)]
      · have hlt : m < operations.length + 1 := by simpa using hm'.1
        rcases Nat.lt_succ_iff_lt_or_eq.1 hlt with hlt | rfl
        · exact hlater m hm ((changesText_append hlt).1 hm')
        · exact hlast hm'
      · have hlt : m < operations.length + 1 := by simpa using lt_length_of_verifies hm'
        rcases Nat.lt_succ_iff_lt_or_eq.1 hlt with hlt | rfl
        · exact hbefore m hm ((verifies_append hlt).1 hm')
        · exact hquiet hm'

theorem not_unverifiedSince_nil : ¬ UnverifiedSince setting start [] id time := by
  rintro ⟨n, ⟨hlt, -⟩, -⟩
  exact absurd hlt (Nat.not_lt_zero n)

/-- One operation more matters only if it lets the clock come to the time. -/
theorem comesDue_concat {period : Nat} :
    ComesDue setting start period (operations ++ [operation]) time id ↔
      ComesDue setting start period operations time id ∨
        ∃ milliseconds, operation = .advance milliseconds ∧
          (∃ line ∈ (start.run setting operations).1.lines, line.id = id) ∧
          (start.run setting operations).1.now ≤ time ∧
          time ≤ (start.run setting operations).1.now + milliseconds ∧
          ∃ changed, time = changed + period ∧
            UnverifiedSince setting start operations id changed := by
  rw [← moment_length]
  constructor
  · rintro ⟨n, milliseconds, hoperation, hrest⟩
    have hlt : n < operations.length + 1 := by
      simpa using (List.getElem?_eq_some_iff.1 hoperation).1
    rw [moment_append (Nat.le_of_lt_succ hlt),
      List.take_append_of_le_length (Nat.le_of_lt_succ hlt)] at hrest
    rcases Nat.lt_succ_iff_lt_or_eq.1 hlt with hlt | rfl
    · rw [List.getElem?_append_left hlt] at hoperation
      exact .inl ⟨n, milliseconds, hoperation, hrest⟩
    · rw [List.take_length] at hrest
      exact .inr ⟨milliseconds, by simpa using hoperation, hrest⟩
  · rintro (⟨n, milliseconds, hoperation, hrest⟩ | ⟨milliseconds, rfl, hrest⟩)
    · have hlt := (List.getElem?_eq_some_iff.1 hoperation).1
      refine ⟨n, milliseconds, ?_, ?_⟩
      · rwa [List.getElem?_append_left hlt]
      · rwa [moment_append (Nat.le_of_lt hlt), List.take_append_of_le_length (Nat.le_of_lt hlt)]
    · refine ⟨operations.length, milliseconds, by simp, ?_⟩
      rwa [moment_append (Nat.le_refl _), List.take_append_of_le_length (Nat.le_refl _),
        List.take_length]

/-! ## Lines that are gone -/

/-- Identities are issued upwards. -/
theorem nextLine_le_run (setting : Setting) (hp : p.WellFormed) (operations : List Operation) :
    p.nextLine ≤ (p.run setting operations).1.nextLine := by
  obtain ⟨count, hnext, -⟩ := (hp.run setting operations).2.lineIds_eq
  exact hnext ▸ Nat.le_add_right _ count

/-- A line that is unverified has an identity that was issued. -/
theorem UnverifiedSince.id_lt (hstart : start.WellFormed)
    (h : UnverifiedSince setting start operations id time) :
    id < (start.run setting operations).1.nextLine := by
  obtain ⟨n, ⟨-, old, hold, -, -, hid, -⟩, -⟩ := h
  have hmoment : (moment setting start operations n).WellFormed :=
    (hstart.run setting (operations.take n)).1
  have hrest := nextLine_le_run setting hmoment (operations.drop n)
  rw [moment, ← run_append, List.take_append_drop] at hrest
  exact hid ▸ Nat.lt_of_lt_of_le (hmoment.id_lt old hold) hrest

end NaturalDeduction.Proof
