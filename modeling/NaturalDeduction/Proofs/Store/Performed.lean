/-
  What each operation comes to.

  An operation that is carried out inserts a line, cuts lines out, writes a text
  and so on; where it asks for what is there already it does less, and filling in
  a conclusion is writing it and verifying the line. Here this is said once for
  each operation, with what it answers and the proof afterwards.
-/

import NaturalDeduction.Proofs.Document.Edits
import NaturalDeduction.Proofs.Rule.Suggestion
import NaturalDeduction.Proofs.Store.Atomicity
import NaturalDeduction.Proofs.Verdict.Visits

namespace NaturalDeduction

/-- Whether an operation inserts a line. -/
def Operation.insertsLine : Operation → Bool
  | .addPremise | .addLine .. | .startSubproof _ | .endSubproof _ => true
  | _ => false

/-- Whether an operation adds or deletes lines. -/
def Operation.rearranges : Operation → Bool
  | .delete _ => true
  | operation => operation.insertsLine

theorem Operation.rearranges_of_insertsLine {operation : Operation}
    (h : operation.insertsLine = true) : operation.rearranges = true := by
  cases operation <;> first | rfl | cases h

namespace Proof

variable {setting : Setting} {p : Proof}

/-- The proof with another text on the line at a position, counted as an edit. -/
def rewritten (setting : Setting) (p : Proof) (index : Nat) (text : String) : Proof :=
  (edited ⟨(), (writeLine setting p index text).1, (writeLine setting p index text).2⟩).proof

theorem outline_rewritten (setting : Setting) (p : Proof) (index : Nat) (text : String) :
    (rewritten setting p index text).outline = p.outline :=
  (outline_eq_of_content_eq (content_edited _)).trans (outline_writeLine setting p index text)

/-- An operation, its answer, and the proof that it leads to. -/
inductive Performed (setting : Setting) (p : Proof) : Operation → Reply → Proof → Prop where
  | insert {operation : Operation} (hinserts : operation.insertsLine = true) (index : Nat)
      (row : Row) :
    Performed setting p operation (.line p.nextLine) (edited (p.insertLine index row)).proof
  | delete (index : Nat) (hindex : index < p.lines.length) :
    Performed setting p (.delete index)
      (.removed ((p.layout.subproofRange index).filterMap p.lineId?))
      (edited (p.cutLines index)).proof
  | keepText (index : Nat) (line : Line) (hline : p.lines[index]? = some line) :
    Performed setting p (.setText index line.text) .done p
  | setText (index : Nat) (text : String) (line : Line) (hline : p.lines[index]? = some line)
      (htext : line.text ≠ text) :
    Performed setting p (.setText index text) .done (rewritten setting p index text)
  | keepRule (index : Nat) (line : Line) (hline : p.lines[index]? = some line) :
    Performed setting p (.setRule index line.rule?)
      (.status (verifyLineAt setting p index).answer) (verifyLineAt setting p index).proof
  | setRule (index : Nat) (rule? : Option Rule) (line : Line)
      (hline : p.lines[index]? = some line) (hrule : line.rule? ≠ rule?) :
    Performed setting p (.setRule index rule?)
      (.status (chooseRule setting p index rule?).answer)
      (edited (chooseRule setting p index rule?)).proof
  | togglePremise (index premise : Nat) (line : Line) (id : LineId)
      (hline : p.lines[index]? = some line) (hid : p.lineId? premise = some id) :
    Performed setting p (.togglePremise index premise) (.cited (!line.premises.contains id))
      (edited (toggleCitation setting p index line id)).proof
  | restrict (rules : List Rule) :
    Performed setting p (.restrict rules) .done (p.restrict rules).proof
  | verifyLine (index : Nat) (hindex : index < p.lines.length) :
    Performed setting p (.verifyLine index) (.status (verifyLineAt setting p index).answer)
      (verifyLineAt setting p index).proof
  | verifyGoal (index : Nat) (hindex : index < p.goals.length) :
    Performed setting p (.verifyGoal index) (.status (verifyGoalAt setting p index).answer)
      (verifyGoalAt setting p index).proof
  | verifyAll :
    Performed setting p .verifyAll (.summary (p.verifyAll setting).answer)
      (p.verifyAll setting).proof
  | fillNothing (index : Nat) (hindex : index < p.lines.length)
      (hnone : p.suggestionFor? index = none) :
    Performed setting p (.autoFill index) (.filled none) p
  | fill (index : Nat) (text : String) (line : Line) (hline : p.lines[index]? = some line)
      (hsuggestion : p.suggestionFor? index = some text) (htext : line.text ≠ text) :
    Performed setting p (.autoFill index) (.filled (some text))
      (verifyLineAt setting (rewritten setting p index text) index).proof
  | addGoal (index : Nat) (hindex : index ≤ p.goals.length) :
    Performed setting p (.addGoal index) (.goal p.nextGoal) (edited (p.insertGoal index)).proof
  | removeGoal (index : Nat) (hindex : index < p.goals.length) (hcount : p.goals.length ≠ 1) :
    Performed setting p (.removeGoal index) .done (edited (p.cutGoal index)).proof
  | keepGoalText (index : Nat) (goal : Goal) (hgoal : p.goals[index]? = some goal) :
    Performed setting p (.setGoalText index goal.text) .done p
  | setGoalText (index : Nat) (text : String) (goal : Goal) (hgoal : p.goals[index]? = some goal)
      (htext : goal.text ≠ text) :
    Performed setting p (.setGoalText index text) .done (edited (p.writeGoal index text)).proof
  | advance (milliseconds : Nat) :
    Performed setting p (.advance milliseconds) .done (p.advance setting milliseconds).proof

namespace Performed

variable {operation : Operation} {reply : Reply} {q : Proof}

/-! ## Lines inserted and cut out -/

theorem of_insertLine (hinserts : operation.insertsLine = true) (index : Nat) (row : Row) :
    Performed setting p operation (.line (edited (p.insertLine index row)).answer)
      (edited (p.insertLine index row)).proof := by
  have hanswer : (edited (p.insertLine index row)).answer = p.nextLine := by
    simp only [edited, insertLine]
  rw [hanswer]
  exact .insert hinserts index row

theorem of_addPremise :
    Performed setting p .addPremise (.line p.addPremise.answer) p.addPremise.proof := by
  unfold addPremise
  exact of_insertLine rfl ..

theorem of_tryInsert {index : Nat} {row : Row} {outcome : Outcome LineId}
    (hinserts : operation.insertsLine = true) (h : p.tryInsert index row = .ok outcome) :
    Performed setting p operation (.line (edited outcome).answer) (edited outcome).proof := by
  obtain ⟨-, -, rfl⟩ := tryInsert_eq_ok.1 h
  exact of_insertLine hinserts index row

theorem of_addLine {index : Nat} {row : Row} {outcome : Outcome LineId}
    (h : p.addLine index row = .ok outcome) :
    Performed setting p (.addLine index row) (.line outcome.answer) outcome.proof := by
  obtain ⟨_, hinsert, hdone⟩ := Except.bind_eq_ok.1 h
  cases hdone
  exact of_tryInsert rfl hinsert

theorem of_startSubproof {index : Nat} {outcome : Outcome LineId}
    (h : p.startSubproof index = .ok outcome) :
    Performed setting p (.startSubproof index) (.line outcome.answer) outcome.proof := by
  obtain ⟨_, -, hrest⟩ := Except.bind_eq_ok.1 h
  obtain ⟨_, hinsert, hdone⟩ := Except.bind_eq_ok.1 hrest
  cases hdone
  exact of_tryInsert rfl hinsert

theorem of_endSubproof {index : Nat} {outcome : Outcome LineId}
    (h : p.endSubproof index = .ok outcome) :
    Performed setting p (.endSubproof index) (.line outcome.answer) outcome.proof := by
  obtain ⟨_, -, hrest⟩ := Except.bind_eq_ok.1 h
  obtain ⟨_, -, hrest⟩ := Except.bind_eq_ok.1 hrest
  obtain ⟨_, hinsert, hdone⟩ := Except.bind_eq_ok.1 hrest
  cases hdone
  exact of_tryInsert rfl hinsert

theorem of_delete {index : Nat} {outcome : Outcome (List LineId)}
    (h : p.delete index = .ok outcome) :
    Performed setting p (.delete index) (.removed outcome.answer) outcome.proof := by
  obtain ⟨cut, hcut, hdone⟩ := Except.bind_eq_ok.1 h
  cases hdone
  obtain ⟨_, hindex, hrest⟩ := Except.bind_eq_ok.1 hcut
  obtain ⟨_, -, hcut⟩ := Except.bind_eq_ok.1 hrest
  obtain rfl := Except.ok.inj hcut
  have hanswer : (edited (p.cutLines index)).answer =
      (p.layout.subproofRange index).filterMap p.lineId? := by simp only [edited, cutLines]
  rw [hanswer]
  exact .delete index (checkLine_eq_ok.1 hindex)

/-! ## Lines edited -/

theorem of_setText {index : Nat} {text : String} {outcome : Outcome Unit}
    (h : p.setText setting index text = .ok outcome) :
    Performed setting p (.setText index text) .done outcome.proof := by
  obtain ⟨_, hindex, -⟩ := Except.bind_eq_ok.1 h
  have hline := List.getElem?_eq_getElem (checkLine_eq_ok.1 hindex)
  rw [setText_of_getElem? hline] at h
  split at h
  · rename_i htext
    cases h
    rw [← htext]
    exact .keepText index _ hline
  · rename_i htext
    cases h
    exact .setText index text _ hline htext

theorem of_setRule {index : Nat} {rule? : Option Rule} {outcome : Outcome Status}
    (h : p.setRule setting index rule? = .ok outcome) :
    Performed setting p (.setRule index rule?) (.status outcome.answer) outcome.proof := by
  obtain ⟨_, hindex, -⟩ := Except.bind_eq_ok.1 h
  have hline := List.getElem?_eq_getElem (checkLine_eq_ok.1 hindex)
  rw [setRule_of_getElem? hline] at h
  split at h
  · rename_i hrule
    cases h
    rw [← hrule]
    exact .keepRule index _ hline
  · rename_i hrule
    cases h
    exact .setRule index rule? _ hline hrule

theorem of_togglePremise {index premise : Nat} {outcome : Outcome Bool}
    (h : p.togglePremise setting index premise = .ok outcome) :
    Performed setting p (.togglePremise index premise) (.cited outcome.answer) outcome.proof := by
  obtain ⟨_, -, hrest⟩ := Except.bind_eq_ok.1 h
  obtain ⟨_, -, hrest⟩ := Except.bind_eq_ok.1 hrest
  by_cases hassumption : p.layout.isAssumption index = true
  · simp [hassumption, bind, Except.bind] at hrest
  simp only [hassumption, Bool.false_eq_true, if_false] at hrest
  split at hrest
  · rename_i line id hline hid
    by_cases hrefused : (!line.premises.contains id && !p.layout.isAccessible premise index) = true
    · simp only [hrefused, if_true, bind, Except.bind, reduceCtorEq] at hrest
    simp only [hrefused, Bool.false_eq_true, if_false] at hrest
    cases hrest
    exact .togglePremise index premise line id hline hid
  · cases hrest

theorem of_autoFill {index : Nat} {outcome : Outcome (Option String)}
    (h : p.autoFill setting index = .ok outcome) :
    Performed setting p (.autoFill index) (.filled outcome.answer) outcome.proof := by
  obtain ⟨_, hindex, hrest⟩ := Except.bind_eq_ok.1 h
  split at hrest
  · rename_i hnone
    cases hrest
    exact .fillNothing index (checkLine_eq_ok.1 hindex) hnone
  · rename_i text hsuggestion
    obtain ⟨written, hwritten, hdone⟩ := Except.bind_eq_ok.1 hrest
    cases hdone
    obtain ⟨line, hline, htext⟩ := suggestionFor?_ne hsuggestion
    rw [setText_of_getElem? hline, if_neg htext] at hwritten
    cases hwritten
    exact .fill index text line hline hsuggestion htext

/-! ## Goals -/

theorem of_addGoal {index : Nat} {outcome : Outcome GoalId} (h : p.addGoal index = .ok outcome) :
    Performed setting p (.addGoal index) (.goal outcome.answer) outcome.proof := by
  unfold Proof.addGoal at h
  by_cases hindex : p.goals.length < index
  · simp [hindex, bind, Except.bind] at h
  · simp only [hindex, if_false] at h
    cases h
    exact .addGoal index (Nat.le_of_not_lt hindex)

theorem of_removeGoal {index : Nat} {outcome : Outcome Unit}
    (h : p.removeGoal index = .ok outcome) :
    Performed setting p (.removeGoal index) .done outcome.proof := by
  obtain ⟨_, hindex, hrest⟩ := Except.bind_eq_ok.1 h
  by_cases hcount : p.goals.length = 1
  · simp [hcount, bind, Except.bind] at hrest
  · simp only [hcount, if_false] at hrest
    cases hrest
    exact .removeGoal index (checkGoal_eq_ok.1 hindex) hcount

theorem of_setGoalText {index : Nat} {text : String} {outcome : Outcome Unit}
    (h : p.setGoalText index text = .ok outcome) :
    Performed setting p (.setGoalText index text) .done outcome.proof := by
  obtain ⟨_, hindex, -⟩ := Except.bind_eq_ok.1 h
  have hgoal := List.getElem?_eq_getElem (checkGoal_eq_ok.1 hindex)
  rw [setGoalText_of_getElem? hgoal] at h
  split at h
  · rename_i htext
    cases h
    rw [← htext]
    exact .keepGoalText index _ hgoal
  · rename_i htext
    cases h
    exact .setGoalText index text _ hgoal htext

/-! ## All operations -/

theorem of_map {α : Type} {attempt : Attempt (Outcome α)} {f : α → Reply}
    {outcome : Outcome Reply} (h : (do return (← attempt).map f) = Except.ok outcome)
    (hattempt : ∀ {done : Outcome α}, attempt = .ok done →
      Performed setting p operation (f done.answer) done.proof) :
    Performed setting p operation outcome.answer outcome.proof := by
  obtain ⟨done, hdone, hmap⟩ := Except.bind_eq_ok.1 h
  cases hmap
  exact hattempt hdone

theorem of_perform {outcome : Outcome Reply} (h : p.perform setting operation = .ok outcome) :
    Performed setting p operation outcome.answer outcome.proof := by
  cases operation with
  | addPremise =>
    cases h
    exact of_addPremise
  | addLine index row => exact of_map h of_addLine
  | startSubproof index => exact of_map h of_startSubproof
  | endSubproof index => exact of_map h of_endSubproof
  | delete index => exact of_map h of_delete
  | setText index text => exact of_map h of_setText
  | setRule index rule? => exact of_map h of_setRule
  | togglePremise index premise => exact of_map h of_togglePremise
  | restrict rules =>
    cases h
    exact .restrict rules
  | verifyLine index =>
    refine of_map h fun hdone => ?_
    obtain ⟨_, hindex, hverified⟩ := Except.bind_eq_ok.1 hdone
    cases hverified
    exact .verifyLine index (checkLine_eq_ok.1 hindex)
  | verifyGoal index =>
    refine of_map h fun hdone => ?_
    obtain ⟨_, hindex, hverified⟩ := Except.bind_eq_ok.1 hdone
    cases hverified
    exact .verifyGoal index (checkGoal_eq_ok.1 hindex)
  | verifyAll =>
    cases h
    exact .verifyAll
  | autoFill index => exact of_map h of_autoFill
  | addGoal index => exact of_map h of_addGoal
  | removeGoal index => exact of_map h of_removeGoal
  | setGoalText index text => exact of_map h of_setGoalText
  | advance milliseconds =>
    cases h
    exact .advance milliseconds

/-- An operation that is tried is refused, and then the proof stays as it is, or carried out. -/
theorem attempt_cases (setting : Setting) (p : Proof) (operation : Operation) :
    (∃ reason, p.perform setting operation = .error reason ∧
      (p.attempt setting operation).1 = p) ∨
    ∃ outcome, p.perform setting operation = .ok outcome ∧
      (p.attempt setting operation).1 = outcome.proof ∧
      Performed setting p operation outcome.answer outcome.proof := by
  unfold attempt
  cases h : p.perform setting operation with
  | error reason => exact .inl ⟨reason, rfl, rfl⟩
  | ok outcome => exact .inr ⟨outcome, rfl, rfl, of_perform h⟩

end Performed

/-! ## Operations that leave lines where they are -/

theorem ids_toggleCitation (setting : Setting) (p : Proof) (index : Nat) (line : Line)
    (id : LineId) : (toggleCitation setting p index line id).proof.lines.map Line.id =
      p.lines.map Line.id := by
  simp only [toggleCitation, notingAt_fst]
  refine (ids_eq_of_content_eq (content_verifyLineAt ..)).trans ?_
  exact map_modify_eq (fun line => by rw [Line.setPremises_fst]) p.lines index

/-- Where no line is added or deleted, the lines stay where they are. -/
theorem Performed.ids_eq {operation : Operation} {reply : Reply}
    (h : Performed setting p operation reply q) (hkeeps : operation.rearranges = false) :
    q.lines.map Line.id = p.lines.map Line.id := by
  cases h with
  | insert hinserts =>
    rw [Operation.rearranges_of_insertsLine hinserts] at hkeeps
    cases hkeeps
  | delete => cases hkeeps
  | keepText | fillNothing | keepGoalText | addGoal | removeGoal | setGoalText => rfl
  | setText => exact ids_eq_of_outline_eq (outline_rewritten ..)
  | keepRule | verifyLine => exact ids_eq_of_content_eq (content_verifyLineAt ..)
  | setRule index rule? => exact ids_eq_of_outline_eq (outline_chooseRule setting p index rule?)
  | togglePremise index premise line id => exact ids_toggleCitation setting p index line id
  | restrict rules => exact ids_eq_of_outline_eq (outline_restrict p rules)
  | verifyGoal => exact ids_eq_of_content_eq (content_verifyGoalAt ..)
  | verifyAll => exact ids_eq_of_content_eq (content_verifyAll ..)
  | fill =>
    exact (ids_eq_of_content_eq (content_verifyLineAt ..)).trans
      (ids_eq_of_outline_eq (outline_rewritten ..))
  | advance => exact ids_eq_of_content_eq (content_advance ..)

theorem ids_attempt (setting : Setting) (p : Proof) {operation : Operation}
    (hkeeps : operation.rearranges = false) :
    (p.attempt setting operation).1.lines.map Line.id = p.lines.map Line.id := by
  rcases Performed.attempt_cases setting p operation with ⟨_, -, hsame⟩ | ⟨_, -, hdone, hperformed⟩
  · rw [hsame]
  · rw [hdone]
    exact hperformed.ids_eq hkeeps

end Proof

end NaturalDeduction
