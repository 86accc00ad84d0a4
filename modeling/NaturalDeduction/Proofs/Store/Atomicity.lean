/-
  Refused operations leave no trace.

  An operation is carried out step by step, and what its steps changed is not
  taken back when a later one refuses it. Still, it comes to what the operation
  is as a whole, and that is nothing at all when it is refused.
-/

import NaturalDeduction.Proofs.Store.Preservation
import NaturalDeduction.Proofs.Store.Stepwise

namespace NaturalDeduction

namespace Proof

/-! ## Edits that are counted -/

theorem setText_eq (setting : Setting) (proof : Proof) (index : Nat) (text : String) :
    proof.setText setting index text = do
      proof.checkLine index
      return (Steps.counted id (writing setting proof index text)).map fun _ => () := by
  unfold setText writing
  congr
  funext _
  split <;> rfl

theorem togglePremise_eq (setting : Setting) (proof : Proof) (index premise : Nat) :
    proof.togglePremise setting index premise =
      edited <$> toggling setting proof index premise := by
  unfold togglePremise toggling
  cases proof.checkLine index with
  | error reason => rfl
  | ok _ =>
    cases proof.checkLine premise with
    | error reason => rfl
    | ok _ =>
      cases proof.layout.isAssumption index with
      | true => rfl
      | false =>
        cases proof.lines[index]? with
        | none => rfl
        | some line =>
          cases proof.lineId? premise with
          | none => rfl
          | some id =>
            by_cases hrefused :
              (!line.premises.contains id && !proof.layout.isAccessible premise index) = true
            · simp only [hrefused, Bool.false_eq_true, if_true, if_false]
              rfl
            · simp only [hrefused, Bool.false_eq_true, if_false]
              rfl

/-- Writing a line leaves as many lines as there were. -/
theorem checkLine_writing (setting : Setting) (proof : Proof) (index : Nat) (text : String) :
    (Steps.counted id (writing setting proof index text)).proof.checkLine = proof.checkLine := by
  have hlength : (Steps.counted id (writing setting proof index text)).proof.lines.length =
      proof.lines.length := by
    have hwritten := congrArg (fun outline => outline.lines.length)
      (outline_writeLine setting proof index text)
    unfold writing Steps.counted
    split
    · rfl
    · simpa [outline, edited] using hwritten
  unfold checkLine
  rw [hlength]

end Proof

namespace Steps

variable {α β : Type}

/-! ## Operations -/

@[simp] theorem counted_true (outcome : Outcome α) :
    counted (fun _ => true) outcome = Proof.edited outcome := rfl

@[simp] theorem counted_false (outcome : Outcome α) :
    counted (fun _ => false) outcome = outcome := rfl

@[simp] theorem after_get (live : Live) : (get : Steps Live).after live = (.ok live, live) := rfl

@[simp] theorem after_set (next live : Live) :
    (set next : Steps Unit).after live = (.ok (), next) := rfl

/-- What is one operation comes to the same whether its steps are carried out or it is carried out
as a whole, if it does so before its events are delivered. -/
theorem after_call {isEdit : α → Bool} {steps : Steps α} {attempt : Proof.Attempt (Outcome α)}
    {live : Live} (h : steps.after ⟨live.proof, []⟩ = whole attempt ⟨live.proof, []⟩) :
    (call isEdit steps).after live = whole (counted isEdit <$> attempt) live := by
  unfold call
  simp only [after_bind, after_get, h, after_set, after_demand, after_carry]
  cases attempt with
  | error reason => rfl
  | ok outcome => rfl

/-- The same with what the operation answers changed, given what the operation is as a whole. -/
theorem after_operation {isEdit : α → Bool} {steps : Steps α}
    {attempt : Proof.Attempt (Outcome α)} {operation : Proof.Attempt (Outcome β)} {live : Live}
    {f : α → β} (h : steps.after ⟨live.proof, []⟩ = whole attempt ⟨live.proof, []⟩)
    (hwhole : operation = do return (counted isEdit (← attempt)).map f) :
    (f <$> call isEdit steps).after live = whole operation live := by
  rw [after_map, after_call h, hwhole]
  cases attempt <;> rfl

theorem after_carry_whole (change : Proof → Outcome α) (live : Live) :
    (carry change).after live = whole (pure (change live.proof)) live := rfl

theorem after_requestLine (setting : Setting) (index : Nat) (live : Live) :
    (requestLine setting index).after live = whole (live.proof.verifyLine setting index) live := by
  unfold Proof.verifyLine
  cases hindex : live.proof.checkLine index <;> simp [requestLine, after_bind, hindex]

theorem after_requestGoal (setting : Setting) (index : Nat) (live : Live) :
    (requestGoal setting index).after live = whole (live.proof.verifyGoal setting index) live := by
  unfold Proof.verifyGoal
  cases hindex : live.proof.checkGoal index <;> simp [requestGoal, after_bind, hindex]

theorem after_autoFill (setting : Setting) (index : Nat) (live : Live) :
    (autoFill setting index).after live = whole (live.proof.autoFill setting index) live := by
  unfold Proof.autoFill
  cases hindex : live.proof.checkLine index with
  | error reason => simp [autoFill, after_bind, hindex]
  | ok _ =>
    cases hsuggestion : live.proof.suggestionFor? index with
    | none => simp [autoFill, after_bind, hindex, hsuggestion]
    | some text =>
      -- The line is there for the second operation as it was for the first one.
      have hsecond := congrFun (Proof.checkLine_writing setting live.proof index text) index
      simp only [autoFill, after_bind, after_checkLine, after_current, hindex, hsuggestion,
        after_call (after_setText ..), after_call (after_requestLine ..)]
      simp [Proof.setText_eq, hindex, hsecond, Proof.verifyLine]

/-- An operation comes to the same step by step and as a whole. -/
theorem after_perform (setting : Setting) (operation : Operation) (live : Live) :
    (perform setting operation).after live = whole (live.proof.perform setting operation) live := by
  unfold perform Proof.perform
  cases operation with
  | addPremise =>
    refine after_operation (after_addPremise _) ?_
    simp [Proof.addPremise]
  | addLine index row =>
    refine after_operation (after_insert ..) ?_
    simp [Proof.addLine]
  | startSubproof index =>
    refine after_operation (after_startSubproof ..) ?_
    simp [Proof.startSubproof]
  | endSubproof index =>
    refine after_operation (after_endSubproof ..) ?_
    simp [Proof.endSubproof]
  | delete index =>
    refine after_operation (after_remove ..) ?_
    simp [Proof.delete]
  | setText index text =>
    refine after_operation (after_setText ..) ?_
    simp only [Proof.setText_eq, bind_assoc, pure_bind]
    rfl
  | setRule index rule? =>
    refine after_operation (after_setRule ..) ?_
    simp only [Proof.setRule, Proof.choosing, bind_assoc, pure_bind]
    congr
    funext _
    split <;> rfl
  | togglePremise index premise =>
    refine after_operation (after_togglePremise ..) ?_
    simp [Proof.togglePremise_eq]
  | restrict rules =>
    refine after_operation (after_restrict ..) ?_
    simp [Proof.restrict, Proof.restricting]
  | verifyLine index =>
    refine after_operation (after_requestLine ..) ?_
    simp
  | verifyGoal index =>
    refine after_operation (after_requestGoal ..) ?_
    simp
  | verifyAll =>
    refine after_operation (after_carry_whole ..) ?_
    simp
  | autoFill index =>
    rw [after_map, after_autoFill]
    exact map_whole ..
  | addGoal index =>
    refine after_operation (after_addGoal ..) ?_
    simp only [Proof.addGoal]
    split <;> rfl
  | removeGoal index =>
    refine after_operation (after_removeGoal ..) ?_
    simp only [Proof.removeGoal, bind_assoc]
    congr
    funext _
    split <;> rfl
  | setGoalText index text =>
    refine after_operation (after_setGoalText ..) ?_
    simp only [Proof.setGoalText, Proof.rewording, bind_assoc, pure_bind]
    congr
    funext _
    split <;> rfl
  | advance milliseconds =>
    refine after_operation (after_carry_whole ..) ?_
    simp

end Steps

namespace Live

variable {setting : Setting} {live : Live} {operation : Operation} {reason : StructureError}

/-- A live proof goes through the proofs of a sequence of operations, and its listeners are sent
what these announce. -/
theorem run_eq (setting : Setting) (live : Live) (operations : List Operation) :
    live.run setting operations =
      ⟨(live.proof.run setting operations).1,
        live.events ++ (live.proof.run setting operations).2⟩ := by
  -- The induction is on the operations, and the live proof changes with each of them.
  induction operations generalizing live with
  | nil => simp [run, Proof.run]
  | cons operation operations ih =>
    have hstep : (live.attempt setting operation).2 =
        ⟨(live.proof.attempt setting operation).1,
          live.events ++ (live.proof.attempt setting operation).2⟩ := by
      unfold attempt Proof.attempt
      rw [Steps.after_perform]
      cases live.proof.perform setting operation <;> simp
    have hrest := ih (live.attempt setting operation).2
    rw [hstep] at hrest
    simpa [run, Proof.run, hstep] using hrest

/-- A refused operation leaves everything as it was: the texts, rules, citations, marks, checked
claims and pending verifications, the tables of positions and citations, the restriction, the
identities to be issued next, the number of edits and the requests to the external checker. Nothing
is delivered. -/
theorem attempt_refused (h : (live.attempt setting operation).1 = .error reason) :
    (live.attempt setting operation).2 = live := by
  unfold attempt at h ⊢
  rw [Steps.after_perform] at h ⊢
  cases hwhole : live.proof.perform setting operation with
  | ok outcome => simp [hwhole] at h
  | error _ => rfl

/-- A premise, a subproof of two lines, and a line after it that cites the subproof. -/
def nested : Live :=
  (⟨.new [], []⟩ : Live).run {}
    [.addPremise, .startSubproof 0, .addLine 2 ⟨1, false⟩, .endSubproof 2, .setText 1 "Q",
      .setText 2 "P", .togglePremise 2 0, .togglePremise 3 1]

/-- The lines of a subproof cannot be cited from outside, nor those after it from inside. -/
theorem attempt_refused_nested :
    (nested.attempt {} (.togglePremise 3 2)).1 = .error (.premiseNotAccessible 3 2) ∧
    (nested.attempt {} (.togglePremise 3 2)).2 = nested ∧
    (nested.attempt {} (.togglePremise 2 3)).1 = .error (.premiseNotAccessible 2 3) ∧
    (nested.attempt {} (.togglePremise 2 3)).2 = nested := by
  have houter : (nested.attempt {} (.togglePremise 3 2)).1 =
      .error (.premiseNotAccessible 3 2) := by decide +kernel
  have hinner : (nested.attempt {} (.togglePremise 2 3)).1 =
      .error (.premiseNotAccessible 2 3) := by decide +kernel
  exact ⟨houter, attempt_refused houter, hinner, attempt_refused hinner⟩

end Live

end NaturalDeduction
