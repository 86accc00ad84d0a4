/-
  What an operation can do to a proof.

  Every operation that is carried out is a sequence of changes of the twelve
  kinds below, each of which may rely on what was checked before it. So a
  property of proofs holds after every operation when each kind of change
  keeps it, and no later development looks into an operation again.
-/

import NaturalDeduction.Proofs.Layout.Nesting
import NaturalDeduction.Proofs.Store.Content
import NaturalDeduction.Proofs.Success

namespace NaturalDeduction

namespace Proof

/-! ## Single changes -/

@[simp] theorem proof_map {α β : Type} (f : α → β) (outcome : Outcome α) :
    (outcome.map f).proof = outcome.proof := rfl

@[simp] theorem events_map {α β : Type} (f : α → β) (outcome : Outcome α) :
    (outcome.map f).events = outcome.events := rfl

/-- The changes that lead from a proof to another one and announce events. -/
inductive Change (setting : Setting) (p : Proof) : Proof → List Event → Prop where
  | verifyLine (index : Nat) :
    Change setting p (verifyLineAt setting p index).proof (verifyLineAt setting p index).events
  | verifyGoal (index : Nat) :
    Change setting p (verifyGoalAt setting p index).proof (verifyGoalAt setting p index).events
  | insert (index : Nat) (row : Row) (hindex : index ≤ p.lines.length)
      (hvalid : Layout.validate (p.layout.insertIdx index row) = .ok ()) :
    Change setting p (edited (p.insertLine index row)).proof
      (edited (p.insertLine index row)).events
  | remove (index : Nat) (hindex : index < p.lines.length)
      (hvalid : (p.rowsWithout index).validate = .ok ()) :
    Change setting p (edited (p.cutLines index)).proof (edited (p.cutLines index)).events
  | write (index : Nat) (text : String) (line : Line) (hline : p.lines[index]? = some line)
      (htext : line.text ≠ text) :
    Change setting p
      (edited ⟨(), (writeLine setting p index text).1, (writeLine setting p index text).2⟩).proof
      (edited ⟨(), (writeLine setting p index text).1, (writeLine setting p index text).2⟩).events
  | chooseRule (index : Nat) (rule? : Option Rule) (line : Line)
      (hline : p.lines[index]? = some line) (hrule : line.rule? ≠ rule?) :
    Change setting p (edited (chooseRule setting p index rule?)).proof
      (edited (chooseRule setting p index rule?)).events
  | toggle (index premise : Nat) (line : Line) (id : LineId) (hline : p.lines[index]? = some line)
      (hid : p.lineId? premise = some id) (hassumption : p.layout.isAssumption index = false)
      (haccessible : id ∈ line.premises ∨ p.layout.isAccessible premise index = true) :
    Change setting p (edited (toggleCitation setting p index line id)).proof
      (edited (toggleCitation setting p index line id)).events
  | restrict (rules : List Rule) :
    Change setting p (p.restrict rules).proof (p.restrict rules).events
  | addGoal (index : Nat) (hindex : index ≤ p.goals.length) :
    Change setting p (edited (p.insertGoal index)).proof (edited (p.insertGoal index)).events
  | removeGoal (index : Nat) (hindex : index < p.goals.length) (hcount : p.goals.length ≠ 1) :
    Change setting p (edited (p.cutGoal index)).proof (edited (p.cutGoal index)).events
  | writeGoal (index : Nat) (text : String) (goal : Goal) (hgoal : p.goals[index]? = some goal)
      (htext : goal.text ≠ text) :
    Change setting p (edited (p.writeGoal index text)).proof
      (edited (p.writeGoal index text)).events
  | wait (time : Nat) : Change setting p { p with now := time } []

/-- Changes one after the other. -/
inductive Changes (setting : Setting) : Proof → Proof → List Event → Prop where
  | none (p : Proof) : Changes setting p p []
  | more {p q r : Proof} {events more : List Event} (first : Change setting p q events)
      (rest : Changes setting q r more) : Changes setting p r (events ++ more)

namespace Changes

variable {setting : Setting} {p q r : Proof} {events more : List Event}

theorem one (h : Change setting p q events) : Changes setting p q events := by
  have := Changes.more h (.none q)
  rwa [List.append_nil] at this

theorem trans (h : Changes setting p q events) (hmore : Changes setting q r more) :
    Changes setting p r (events ++ more) := by
  induction h with
  | none => exact hmore
  | more first _ ih =>
    rw [List.append_assoc]
    exact .more first (ih hmore)

/-- What every change keeps of a proof and the events so far, changes one after the other keep. -/
theorem keep {Holds : Proof → List Event → Prop} (h : Changes setting p q events)
    (hchange : ∀ {p q past events}, Holds p past → Change setting p q events →
      Holds q (past ++ events))
    {past : List Event} (hp : Holds p past) : Holds q (past ++ events) := by
  induction h generalizing past with
  | none => rwa [List.append_nil]
  | more first _ ih =>
    rw [← List.append_assoc]
    exact ih (hchange hp first)

end Changes

/-! ## Verifications one after the other -/

variable {setting : Setting} {p q : Proof}

theorem changes_verifyEach {verify : Proof → Nat → Outcome Status}
    (h : ∀ proof index, Change setting proof (verify proof index).proof (verify proof index).events)
    (proof : Proof) (indices : List Nat) :
    Changes setting proof (verifyEach verify proof indices).proof
      (verifyEach verify proof indices).events := by
  induction indices generalizing proof with
  | nil => exact .none proof
  | cons index indices ih => exact .more (h proof index) (ih _)

theorem changes_verifyAll (setting : Setting) (proof : Proof) :
    Changes setting proof (proof.verifyAll setting).proof (proof.verifyAll setting).events :=
  (changes_verifyEach (fun _ index => .verifyLine index) _ _).trans
    (changes_verifyEach (fun _ index => .verifyGoal index) _ _)

theorem changes_verifyDue (setting : Setting) (proof : Proof) (ids : List LineId) :
    Changes setting proof (verifyDue setting proof ids).1 (verifyDue setting proof ids).2 := by
  induction ids generalizing proof with
  | nil => exact .none proof
  | cons id ids ih =>
    simp only [verifyDue]
    split
    · exact ih proof
    · exact .more (.verifyLine _) (ih _)

theorem changes_advance (setting : Setting) (proof : Proof) (milliseconds : Nat) :
    Changes setting proof (proof.advance setting milliseconds).proof
      (proof.advance setting milliseconds).events :=
  .more (.wait (proof.now + milliseconds)) (changes_verifyDue _ _ _)

/-! ## Operations that may be refused -/

theorem checkLine_eq_ok {proof : Proof} {index : Nat} {u : Unit} :
    proof.checkLine index = .ok u ↔ index < proof.lines.length := by
  unfold checkLine
  split <;> simp_all

theorem checkGoal_eq_ok {proof : Proof} {index : Nat} {u : Unit} :
    proof.checkGoal index = .ok u ↔ index < proof.goals.length := by
  unfold checkGoal
  split <;> simp_all

theorem verifyLine_eq_ok {index : Nat} (setting : Setting) (h : index < p.lines.length) :
    p.verifyLine setting index = .ok (verifyLineAt setting p index) :=
  Except.bind_eq_ok.2 ⟨(), checkLine_eq_ok.2 h, rfl⟩

theorem verifyGoal_eq_ok {index : Nat} (setting : Setting) (h : index < p.goals.length) :
    p.verifyGoal setting index = .ok (verifyGoalAt setting p index) :=
  Except.bind_eq_ok.2 ⟨(), checkGoal_eq_ok.2 h, rfl⟩

/-- A line is inserted where the position exists and the row fits. -/
theorem tryInsert_eq_ok {proof : Proof} {index : Nat} {row : Row} {outcome : Outcome LineId} :
    proof.tryInsert index row = .ok outcome ↔ index ≤ proof.lines.length ∧
      Layout.validate (proof.layout.insertIdx index row) = .ok () ∧
      proof.insertLine index row = outcome := by
  unfold tryInsert
  by_cases hindex : proof.lines.length < index
  · have hnot : ¬ index ≤ proof.lines.length := Nat.not_le_of_lt hindex
    simp [hindex, hnot, bind, Except.bind]
  · have hle : index ≤ proof.lines.length := Nat.le_of_not_lt hindex
    cases hvalid : Layout.validate (proof.layout.insertIdx index row) <;>
      simp [hindex, hle, bind, Except.bind, pure, Except.pure]

theorem changes_tryInsert {index : Nat} {row : Row} {outcome : Outcome LineId}
    (h : p.tryInsert index row = .ok outcome) :
    Changes setting p (edited outcome).proof (edited outcome).events := by
  obtain ⟨hindex, hvalid, rfl⟩ := tryInsert_eq_ok.1 h
  exact .one (.insert index row hindex hvalid)

theorem changes_addLine {index : Nat} {row : Row} {outcome : Outcome LineId}
    (h : p.addLine index row = .ok outcome) : Changes setting p outcome.proof outcome.events := by
  obtain ⟨_, hinsert, hdone⟩ := Except.bind_eq_ok.1 h
  cases hdone
  exact changes_tryInsert hinsert

theorem changes_startSubproof {index : Nat} {outcome : Outcome LineId}
    (h : p.startSubproof index = .ok outcome) :
    Changes setting p outcome.proof outcome.events := by
  obtain ⟨_, -, hrest⟩ := Except.bind_eq_ok.1 h
  obtain ⟨_, hinsert, hdone⟩ := Except.bind_eq_ok.1 hrest
  cases hdone
  exact changes_tryInsert hinsert

theorem changes_endSubproof {index : Nat} {outcome : Outcome LineId}
    (h : p.endSubproof index = .ok outcome) :
    Changes setting p outcome.proof outcome.events := by
  obtain ⟨_, -, hrest⟩ := Except.bind_eq_ok.1 h
  obtain ⟨_, -, hrest⟩ := Except.bind_eq_ok.1 hrest
  obtain ⟨_, hinsert, hdone⟩ := Except.bind_eq_ok.1 hrest
  cases hdone
  exact changes_tryInsert hinsert

/-- A premise is always added where it may stand. -/
theorem changes_addPremise (hlength : p.layout.length = p.lines.length)
    (hvalid : p.layout.validate = .ok ()) :
    Changes setting p p.addPremise.proof p.addPremise.events := by
  -- There are no more premises than lines.
  have hindex : p.layout.premiseCount ≤ p.lines.length := by
    rw [← hlength]
    exact (List.takeWhile_sublist _).length_le
  unfold addPremise
  exact .one (.insert _ _ hindex (Layout.validate_insertIdx_premiseCount hvalid))

theorem changes_delete {index : Nat} {outcome : Outcome (List LineId)}
    (h : p.delete index = .ok outcome) : Changes setting p outcome.proof outcome.events := by
  obtain ⟨cut, hcut, hdone⟩ := Except.bind_eq_ok.1 h
  cases hdone
  obtain ⟨_, hindex, hrest⟩ := Except.bind_eq_ok.1 hcut
  obtain ⟨_, hvalid, hcut⟩ := Except.bind_eq_ok.1 hrest
  cases hcut
  exact .one (.remove index (checkLine_eq_ok.1 hindex) hvalid)

theorem changes_setText {index : Nat} {text : String} {outcome : Outcome Unit}
    (h : p.setText setting index text = .ok outcome) :
    Changes setting p outcome.proof outcome.events := by
  obtain ⟨_, hindex, hrest⟩ := Except.bind_eq_ok.1 h
  have hline := List.getElem?_eq_getElem (checkLine_eq_ok.1 hindex)
  split at hrest
  · cases hrest
    exact .none p
  · rename_i htext
    cases hrest
    refine .one (.write index text _ hline ?_)
    simpa [hline] using htext

theorem changes_setRule {index : Nat} {rule? : Option Rule} {outcome : Outcome Status}
    (h : p.setRule setting index rule? = .ok outcome) :
    Changes setting p outcome.proof outcome.events := by
  obtain ⟨_, hindex, hrest⟩ := Except.bind_eq_ok.1 h
  have hline := List.getElem?_eq_getElem (checkLine_eq_ok.1 hindex)
  split at hrest
  · cases hrest
    exact .one (.verifyLine index)
  · rename_i hrule
    cases hrest
    refine .one (.chooseRule index rule? _ hline ?_)
    simpa [hline] using hrule

theorem changes_togglePremise {index premise : Nat} {outcome : Outcome Bool}
    (h : p.togglePremise setting index premise = .ok outcome) :
    Changes setting p outcome.proof outcome.events := by
  obtain ⟨_, -, hrest⟩ := Except.bind_eq_ok.1 h
  obtain ⟨_, -, hrest⟩ := Except.bind_eq_ok.1 hrest
  -- Citations of assumptions are refused.
  by_cases hassumption : p.layout.isAssumption index = true
  · simp [hassumption, bind, Except.bind] at hrest
  simp only [hassumption, Bool.false_eq_true, if_false] at hrest
  split at hrest
  · rename_i line id hline hid
    -- What is neither cited nor accessible is refused.
    by_cases hrefused : (!line.premises.contains id && !p.layout.isAccessible premise index) = true
    · simp only [hrefused, if_true, bind, Except.bind, reduceCtorEq] at hrest
    simp only [hrefused, Bool.false_eq_true, if_false] at hrest
    cases hrest
    refine .one (.toggle index premise line id hline hid (by simpa using hassumption) ?_)
    by_contra hnone
    simp_all
  · cases hrest

theorem changes_verifyLine {index : Nat} {outcome : Outcome Status}
    (h : p.verifyLine setting index = .ok outcome) :
    Changes setting p outcome.proof outcome.events := by
  obtain ⟨_, -, hdone⟩ := Except.bind_eq_ok.1 h
  cases hdone
  exact .one (.verifyLine index)

theorem changes_verifyGoal {index : Nat} {outcome : Outcome Status}
    (h : p.verifyGoal setting index = .ok outcome) :
    Changes setting p outcome.proof outcome.events := by
  obtain ⟨_, -, hdone⟩ := Except.bind_eq_ok.1 h
  cases hdone
  exact .one (.verifyGoal index)

theorem changes_autoFill {index : Nat} {outcome : Outcome (Option String)}
    (h : p.autoFill setting index = .ok outcome) :
    Changes setting p outcome.proof outcome.events := by
  obtain ⟨_, -, hrest⟩ := Except.bind_eq_ok.1 h
  split at hrest
  · cases hrest
    exact .none p
  · obtain ⟨written, hwritten, hdone⟩ := Except.bind_eq_ok.1 hrest
    cases hdone
    -- The line is edited first, and verified then.
    exact (changes_setText hwritten).trans (.one (.verifyLine index))

theorem changes_addGoal {index : Nat} {outcome : Outcome GoalId}
    (h : p.addGoal index = .ok outcome) : Changes setting p outcome.proof outcome.events := by
  unfold addGoal at h
  by_cases hindex : p.goals.length < index
  · simp [hindex, bind, Except.bind] at h
  · simp only [hindex, if_false] at h
    cases h
    exact .one (.addGoal index (Nat.le_of_not_lt hindex))

theorem changes_removeGoal {index : Nat} {outcome : Outcome Unit}
    (h : p.removeGoal index = .ok outcome) : Changes setting p outcome.proof outcome.events := by
  obtain ⟨_, hindex, hrest⟩ := Except.bind_eq_ok.1 h
  by_cases hcount : p.goals.length = 1
  · simp [hcount, bind, Except.bind] at hrest
  · simp only [hcount, if_false] at hrest
    cases hrest
    exact .one (.removeGoal index (checkGoal_eq_ok.1 hindex) hcount)

theorem changes_setGoalText {index : Nat} {text : String} {outcome : Outcome Unit}
    (h : p.setGoalText index text = .ok outcome) :
    Changes setting p outcome.proof outcome.events := by
  obtain ⟨_, hindex, hrest⟩ := Except.bind_eq_ok.1 h
  have hgoal := List.getElem?_eq_getElem (checkGoal_eq_ok.1 hindex)
  split at hrest
  · cases hrest
    exact .none p
  · rename_i htext
    cases hrest
    refine .one (.writeGoal index text _ hgoal ?_)
    simpa [hgoal] using htext

/-! ## All operations -/

/-- What an operation answers does not matter for what it does. -/
theorem changes_of_map {α : Type} {attempt : Attempt (Outcome α)} {f : α → Reply}
    {outcome : Outcome Reply} (h : (do return (← attempt).map f) = Except.ok outcome)
    (hattempt : ∀ {done : Outcome α}, attempt = .ok done →
      Changes setting p done.proof done.events) :
    Changes setting p outcome.proof outcome.events := by
  obtain ⟨done, hdone, hmap⟩ := Except.bind_eq_ok.1 h
  cases hmap
  exact hattempt hdone

/-- An operation that is carried out is a sequence of changes, where the rows are well nested. -/
theorem changes_perform (hlength : p.layout.length = p.lines.length)
    (hvalid : p.layout.validate = .ok ()) {operation : Operation} {outcome : Outcome Reply}
    (h : p.perform setting operation = .ok outcome) :
    Changes setting p outcome.proof outcome.events := by
  -- One case for each operation. Those that can be refused have told what they change above.
  cases operation with
  | addPremise =>
    cases h
    rw [proof_map, events_map]
    exact changes_addPremise hlength hvalid
  | addLine index row => exact changes_of_map h changes_addLine
  | startSubproof index => exact changes_of_map h changes_startSubproof
  | endSubproof index => exact changes_of_map h changes_endSubproof
  | delete index => exact changes_of_map h changes_delete
  | setText index text => exact changes_of_map h changes_setText
  | setRule index rule? => exact changes_of_map h changes_setRule
  | togglePremise index premise => exact changes_of_map h changes_togglePremise
  | restrict rules =>
    cases h
    rw [proof_map, events_map]
    exact .one (.restrict rules)
  | verifyLine index => exact changes_of_map h changes_verifyLine
  | verifyGoal index => exact changes_of_map h changes_verifyGoal
  | verifyAll =>
    cases h
    rw [proof_map, events_map]
    exact changes_verifyAll setting p
  | autoFill index => exact changes_of_map h changes_autoFill
  | addGoal index => exact changes_of_map h changes_addGoal
  | removeGoal index => exact changes_of_map h changes_removeGoal
  | setGoalText index text => exact changes_of_map h changes_setGoalText
  | advance milliseconds =>
    cases h
    rw [proof_map, events_map]
    exact changes_advance setting p milliseconds

/-- The same for an operation that is tried: one that is refused changes nothing. -/
theorem changes_attempt (hlength : p.layout.length = p.lines.length)
    (hvalid : p.layout.validate = .ok ()) (operation : Operation) :
    Changes setting p (p.attempt setting operation).1 (p.attempt setting operation).2 := by
  unfold attempt
  cases h : p.perform setting operation with
  | ok outcome => exact changes_perform hlength hvalid h
  | error reason => exact .none p

/-- A property that makes the rows well nested, and that every change keeps, holds after every
sequence of operations. -/
theorem run_keep (Holds : Proof → List Event → Prop)
    (hlayout : ∀ {p past}, Holds p past →
      p.layout.length = p.lines.length ∧ p.layout.validate = .ok ())
    (hchange : ∀ {p q past events}, Holds p past → Change setting p q events →
      Holds q (past ++ events))
    (operations : List Operation) (past : List Event) (hp : Holds p past) :
    Holds (p.run setting operations).1 (past ++ (p.run setting operations).2) := by
  -- The induction is on the operations, with the events so far generalised.
  induction operations generalizing p past with
  | nil =>
    rw [run, List.append_nil]
    exact hp
  | cons operation operations ih =>
    obtain ⟨hlength, hvalid⟩ := hlayout hp
    have hnext := (changes_attempt hlength hvalid operation).keep hchange hp
    have hlast := ih _ hnext
    rw [List.append_assoc] at hlast
    exact hlast

/-- The same for a property that says nothing of the events. -/
theorem run_keep_proof (Holds : Proof → Prop)
    (hlayout : ∀ {p}, Holds p → p.layout.length = p.lines.length ∧ p.layout.validate = .ok ())
    (hchange : ∀ {p q events}, Holds p → Change setting p q events → Holds q)
    (operations : List Operation) (hp : Holds p) : Holds (p.run setting operations).1 :=
  run_keep (fun q _ => Holds q) hlayout hchange operations [] hp

end Proof

end NaturalDeduction
