/-
  What edits do to the document.

  An edit of a text or a rule changes one record, a citation changes the
  premises of one record, and so on. What an edit does besides, such as
  verifying the line or dropping marks, leaves the document alone. An edit that
  is refused changes nothing, so some of these facts hold for every index.
-/

import NaturalDeduction.Proofs.Document.Stored

namespace NaturalDeduction

namespace Proof

variable {setting : Setting} {p : Proof}

/-! ## Edits in range and out of it -/

/-- What is tried comes down to the operation, if that succeeds. -/
theorem attempt_fst_of_ok {α : Type} {operation : Operation} {done : Attempt (Outcome α)}
    {f : α → Reply} {outcome : Outcome α}
    (hperform : p.perform setting operation = do return (← done).map f)
    (h : done = .ok outcome) : (p.attempt setting operation).1 = outcome.proof := by
  simp only [attempt, hperform, h, bind, Except.bind]
  rfl

/-- An operation that is refused changes nothing. -/
theorem attempt_fst_of_error {α : Type} {operation : Operation} {done : Attempt (Outcome α)}
    {f : α → Reply} {reason : StructureError}
    (hperform : p.perform setting operation = do return (← done).map f)
    (h : done = .error reason) : (p.attempt setting operation).1 = p := by
  simp only [attempt, hperform, h, bind, Except.bind]

theorem checkLine_of_not_lt {index : Nat} (h : ¬ index < p.lines.length) :
    p.checkLine index = .error (.indexOutOfBounds index p.lines.length) := by
  rw [checkLine, if_neg h]

theorem checkGoal_of_not_lt {index : Nat} (h : ¬ index < p.goals.length) :
    p.checkGoal index = .error (.indexOutOfBounds index p.goals.length) := by
  rw [checkGoal, if_neg h]

theorem checkLine_of_getElem? {index : Nat} {line : Line} (h : p.lines[index]? = some line) :
    p.checkLine index = .ok () :=
  checkLine_eq_ok.2 (List.getElem?_eq_some_iff.1 h).1

theorem checkGoal_of_getElem? {index : Nat} {goal : Goal} (h : p.goals[index]? = some goal) :
    p.checkGoal index = .ok () :=
  checkGoal_eq_ok.2 (List.getElem?_eq_some_iff.1 h).1

theorem setText_of_getElem? {index : Nat} {line : Line} (hline : p.lines[index]? = some line)
    (text : String) : p.setText setting index text = .ok (
      if line.text = text then ⟨(), p, []⟩
      else edited
        ⟨(), (writeLine setting p index text).1, (writeLine setting p index text).2⟩) := by
  by_cases htext : line.text = text <;>
    simp [setText, checkLine_of_getElem? hline, hline, htext, bind, Except.bind, pure, Except.pure]

theorem setRule_of_getElem? {index : Nat} {line : Line} (hline : p.lines[index]? = some line)
    (rule? : Option Rule) : p.setRule setting index rule? = .ok (
      if line.rule? = rule? then verifyLineAt setting p index
      else edited (chooseRule setting p index rule?)) := by
  by_cases hrule : line.rule? = rule? <;>
    simp [setRule, checkLine_of_getElem? hline, hline, hrule, bind, Except.bind, pure, Except.pure]

theorem setGoalText_of_getElem? {index : Nat} {goal : Goal} (hgoal : p.goals[index]? = some goal)
    (text : String) : p.setGoalText index text = .ok (
      if goal.text = text then ⟨(), p, []⟩ else edited (p.writeGoal index text)) := by
  by_cases htext : goal.text = text <;>
    simp [setGoalText, checkGoal_of_getElem? hgoal, hgoal, htext, bind, Except.bind, pure,
      Except.pure]

/-- A line that is not cited yet and may be cited can be cited. -/
theorem togglePremise_of_isAccessible {index premise : Nat} {line : Line}
    {id : LineId} (hline : p.lines[index]? = some line) (hid : p.lineId? premise = some id)
    (haccessible : p.layout.isAccessible premise index = true) :
    p.togglePremise setting index premise =
      .ok (edited (toggleCitation setting p index line id)) := by
  obtain ⟨-, -, hassumption, -⟩ := Layout.isAccessible_iff.1 haccessible
  obtain ⟨cited, hcited, -⟩ := Option.map_eq_some_iff.1 hid
  simp [togglePremise, checkLine_of_getElem? hline, checkLine_of_getElem? hcited, hassumption,
    hline, hid, haccessible, bind, Except.bind, pure, Except.pure]

/-! ## Records changed in one place -/

theorem map_modify_of_comm {α β : Type} {f : α → β} {change : α → α} {changed : β → β}
    {as : List α} {index : Nat}
    (h : ∀ a, as[index]? = some a → f (change a) = changed (f a)) :
    (as.modify index change).map f = (as.map f).modify index changed := by
  apply List.ext_getElem?
  intro j
  rw [List.getElem?_map, List.getElem?_modify, List.getElem?_modify, List.getElem?_map]
  cases hj : as[j]? with
  | none => rfl
  | some a =>
    by_cases hindex : index = j
    · subst hindex
      simp [h a hj]
    · simp [hindex]

theorem modify_eq_self_of_getElem? {α : Type} {change : α → α} {as : List α} {index : Nat}
    (h : ∀ a, as[index]? = some a → change a = a) : as.modify index change = as := by
  apply List.ext_getElem?
  intro j
  rw [List.getElem?_modify]
  cases hj : as[j]? with
  | none => rfl
  | some a =>
    by_cases hindex : index = j
    · subst hindex
      simp [h a hj]
    · simp [hindex]

/-- Changing a line where it stands changes its record. -/
theorem document_modify (p : Proof) (index : Nat) {change : Line → Line}
    {changed : LineRecord → LineRecord}
    (h : ∀ line, p.lines[index]? = some line → p.record (change line) = changed (p.record line)) :
    ({ p with lines := p.lines.modify index change } : Proof).document =
      { p.document with lines := p.document.lines.modify index changed } := by
  have hrecord : ({ p with lines := p.lines.modify index change } : Proof).record = p.record := rfl
  simp only [document, hrecord, map_modify_of_comm h]

/-- Past the end there is nothing to change. -/
theorem modify_lines_of_not_lt {index : Nat} (h : ¬ index < p.lines.length)
    (changed : LineRecord → LineRecord) :
    { p.document with lines := p.document.lines.modify index changed } = p.document := by
  rw [List.modify_eq_self]
  simpa [document] using h

/-- The same change again is none. -/
theorem modify_lines_of_eq {index : Nat} {line : Line} (hline : p.lines[index]? = some line)
    {changed : LineRecord → LineRecord} (h : changed (p.record line) = p.record line) :
    { p.document with lines := p.document.lines.modify index changed } = p.document := by
  rw [modify_eq_self_of_getElem?]
  intro record hrecord
  rw [getElem?_lines_document, hline] at hrecord
  obtain rfl : p.record line = record := by simpa using hrecord
  exact h

/-! ## Texts and rules -/

theorem document_writeLine (setting : Setting) (p : Proof) (index : Nat) (text : String) :
    (writeLine setting p index text).1.document =
      { p.document with
        lines := p.document.lines.modify index fun record => { record with text } } := by
  simp only [writeLine, notingAt_fst]
  rw [document_eq_of_content_eq (content_resetGoals _),
    document_eq_of_content_eq (content_invalidateEach _ _)]
  refine document_modify p index fun line _ => ?_
  unfold Line.setText
  split
  · rename_i htext
    rw [← htext]
    rfl
  · rfl

theorem document_chooseRule (setting : Setting) (p : Proof) (index : Nat) (rule? : Option Rule) :
    (chooseRule setting p index rule?).proof.document =
      { p.document with
        lines := p.document.lines.modify index fun record => { record with rule? } } := by
  simp only [chooseRule, notingAt_fst]
  rw [document_eq_of_content_eq (content_verifyLineAt _ _ _),
    document_eq_of_content_eq (content_resetGoals _)]
  refine document_modify p index fun line _ => ?_
  unfold Line.setRule
  split
  · rename_i hrule
    rw [← hrule]
    rfl
  · rfl

/-- An edit that changes the record of a line, if there is one, changes one record. -/
theorem document_attempt_eq_modify {α : Type} {operation : Operation} {done : Attempt (Outcome α)}
    {f : α → Reply} {index : Nat} {changed : LineRecord → LineRecord}
    (hperform : p.perform setting operation = do return (← done).map f)
    (hrefused : ¬ index < p.lines.length →
      done = .error (.indexOutOfBounds index p.lines.length))
    (hdone : ∀ line, p.lines[index]? = some line → ∃ outcome, done = .ok outcome ∧
      outcome.proof.document =
        { p.document with lines := p.document.lines.modify index changed }) :
    (p.attempt setting operation).1.document =
      { p.document with lines := p.document.lines.modify index changed } := by
  by_cases hindex : index < p.lines.length
  · obtain ⟨outcome, hok, hdocument⟩ := hdone _ (List.getElem?_eq_getElem hindex)
    rw [attempt_fst_of_ok hperform hok, hdocument]
  · rw [attempt_fst_of_error hperform (hrefused hindex), modify_lines_of_not_lt hindex]

/-- Setting a text changes the text of one record. -/
theorem document_setText (setting : Setting) (p : Proof) (index : Nat) (text : String) :
    (p.attempt setting (.setText index text)).1.document =
      { p.document with
        lines := p.document.lines.modify index fun record => { record with text } } := by
  refine document_attempt_eq_modify rfl (fun hindex => ?_) fun line hline =>
    ⟨_, setText_of_getElem? hline text, ?_⟩
  · rw [setText, checkLine_of_not_lt hindex]
    rfl
  · split
    · rename_i htext
      exact (modify_lines_of_eq hline (by rw [← htext]; rfl)).symm
    · exact document_writeLine setting p index text

/-- Setting a rule changes the rule of one record. -/
theorem document_setRule (setting : Setting) (p : Proof) (index : Nat) (rule? : Option Rule) :
    (p.attempt setting (.setRule index rule?)).1.document =
      { p.document with
        lines := p.document.lines.modify index fun record => { record with rule? } } := by
  refine document_attempt_eq_modify rfl (fun hindex => ?_) fun line hline =>
    ⟨_, setRule_of_getElem? hline rule?, ?_⟩
  · rw [setRule, checkLine_of_not_lt hindex]
    rfl
  · split
    · rename_i hrule
      rw [document_eq_of_content_eq (content_verifyLineAt _ _ _)]
      exact (modify_lines_of_eq hline (by rw [← hrule]; rfl)).symm
    · exact document_chooseRule setting p index rule?

/-! ## Citations -/

/-- A citation more is a premise number more. -/
theorem premiseNumbers_insert {line : Line} {premise : Nat} {id : LineId}
    (hposition : p.position? id = some premise) :
    p.premiseNumbers { line with premises := Ascending.insert id line.premises } =
      Ascending.insert premise (p.premiseNumbers line) := by
  refine (pairwise_premiseNumbers p _).eq_of_mem_iff
    (Ascending.pairwise_insert (pairwise_premiseNumbers p line)) fun cited => ?_
  rw [mem_premiseNumbers, Ascending.mem_insert, mem_premiseNumbers]
  constructor
  · rintro ⟨k, hk, hcited⟩
    rcases Ascending.mem_insert.1 hk with rfl | hk
    · exact .inl (by simpa [hposition, eq_comm] using hcited)
    · exact .inr ⟨k, hk, hcited⟩
  · rintro (rfl | ⟨k, hk, hcited⟩)
    · exact ⟨id, Ascending.mem_insert.2 (.inl rfl), hposition⟩
    · exact ⟨k, Ascending.mem_insert.2 (.inr hk), hcited⟩

/-- A new citation adds a premise to one record. -/
theorem document_togglePremise (hp : WellFormedLines p) {index premise : Nat} {record : LineRecord}
    (hrecord : p.document.lines[index]? = some record) (hnew : premise ∉ record.premises)
    (haccessible : p.document.layout.isAccessible premise index = true) :
    (p.attempt setting (.togglePremise index premise)).1.document =
      { p.document with
        lines := p.document.lines.modify index fun record =>
          { record with premises := Ascending.insert premise record.premises } } := by
  rw [getElem?_lines_document, Option.map_eq_some_iff] at hrecord
  obtain ⟨line, hline, rfl⟩ := hrecord
  rw [hp.layout_document] at haccessible
  -- The cited line stands before the citing one.
  have hlt := Nat.lt_trans (Layout.lt_of_isAccessible haccessible)
    (List.getElem?_eq_some_iff.1 hline).1
  have hid : p.lineId? premise = some p.lines[premise].id := by
    rw [lineId?, List.getElem?_eq_getElem hlt, Option.map_some]
  have hposition := (hp.position_iff _ _).2 hid
  have hcited : p.lines[premise].id ∉ line.premises := fun hmem =>
    hnew (mem_premiseNumbers.2 ⟨_, hmem, hposition⟩)
  rw [attempt_fst_of_ok rfl (togglePremise_of_isAccessible hline hid haccessible)]
  rw [document_eq_of_content_eq (content_edited _)]
  simp only [toggleCitation, notingAt_fst, Line.setPremises_fst]
  rw [document_eq_of_content_eq (content_verifyLineAt _ _ _),
    document_eq_of_content_eq (content_resetGoals _)]
  refine document_modify p index fun other hother => ?_
  obtain rfl : line = other := by simpa [hline] using hother
  simp only [record, toggled, List.contains_eq_mem, hcited, decide_false, Bool.false_eq_true,
    if_false, premiseNumbers_insert hposition]

/-! ## New lines -/

/-- The record of a blank line. -/
def blankRecord (row : Row) : LineRecord where
  text := ""
  assumption := row.assumption
  depth := row.level
  premises := []
  rule? := none

/-- A line without premise numbers cites nothing. -/
theorem premises_eq_nil_of_premiseNumbers (hp : WellFormedLines p) {line : Line}
    (hmem : line ∈ p.lines) (h : p.premiseNumbers line = []) : line.premises = [] := by
  obtain ⟨index, hline⟩ := List.mem_iff_getElem?.1 hmem
  refine List.eq_nil_iff_forall_not_mem.2 fun id hid => ?_
  obtain ⟨premise, hposition, -⟩ := hp.premise_accessible index line hline id hid
  have hnumber : premise ∈ p.premiseNumbers line := mem_premiseNumbers.2 ⟨id, hid, hposition⟩
  rw [h] at hnumber
  cases hnumber

theorem record_of_premises_eq_nil (p : Proof) {line : Line} (h : line.premises = []) :
    p.record line = { blankRecord line.row with text := line.text, rule? := line.rule? } := by
  simp [record, premiseNumbers, h, Ascending.ofList, blankRecord, Line.row]

/-- Lines that cite nothing are put into place by a new number alone. -/
theorem document_placeAll_of_uncited (rows : Layout)
    (huncited : ∀ line ∈ p.lines, line.premises = []) :
    (p.placeAll rows).1.document = p.document := by
  have hlines : (p.placeAll rows).1.lines.map (p.placeAll rows).1.record =
      p.lines.map p.record := by
    apply List.ext_getElem?
    intro index
    rw [List.getElem?_map, List.getElem?_map, getElem?_lines_placeAll]
    cases hline : p.lines[index]? with
    | none => rfl
    | some line =>
      have hpremises := huncited line (List.mem_of_getElem? hline)
      have hplaced : ((p.indexed rows).place index line).1 = { line with number := index } := by
        rw [place_fst, if_pos]
        simp [keptPremises, hpremises]
      have hmoved : ({ line with number := index } : Line).premises = [] := hpremises
      rw [Option.map_some, Option.map_some, Option.map_some, hplaced,
        record_of_premises_eq_nil _ hmoved, record_of_premises_eq_nil _ hpremises]
      rfl
  simp only [document, hlines]
  rfl

theorem document_insertLine_of_uncited (index : Nat) (row : Row)
    (huncited : ∀ line ∈ p.lines, line.premises = []) :
    (p.insertLine index row).proof.document =
      { p.document with lines := p.document.lines.insertIdx index (blankRecord row) } := by
  have hall : ∀ line ∈ p.lines.insertIdx index (Line.new p.nextLine index row),
      line.premises = [] := by
    intro line hline
    rcases List.eq_or_mem_of_mem_insertIdx hline with rfl | hline
    · rfl
    · exact huncited line hline
  rw [proof_insertLine, document_eq_of_content_eq (content_rearranged _ _ _),
    document_placeAll_of_uncited _ hall]
  simp only [document, List.map_insertIdx]
  rfl

/-- As long as nothing is cited, a new line at the end is a new record and nothing else. -/
theorem document_addLine (hp : WellFormedLines p)
    (huncited : ∀ record ∈ p.document.lines, record.premises = []) {row : Row}
    (hvalid : Layout.validate (p.document.layout ++ [row]) = .ok ()) :
    (p.attempt setting (.addLine p.document.lines.length row)).1.document =
      { p.document with lines := p.document.lines ++ [blankRecord row] } := by
  have hlength : p.document.lines.length = p.lines.length := List.length_map _
  have hrows : p.layout.insertIdx p.lines.length row = p.document.layout ++ [row] := by
    rw [hp.layout_document, ← hp.length_layout, List.insertIdx_length_self]
  have hadded : p.addLine p.document.lines.length row =
      .ok (edited (p.insertLine p.lines.length row)) := by
    rw [addLine, hlength, tryInsert_eq_ok.2 ⟨Nat.le_refl _, hrows ▸ hvalid, rfl⟩]
    rfl
  rw [attempt_fst_of_ok rfl hadded, document_eq_of_content_eq (content_edited _),
    document_insertLine_of_uncited, ← hlength, List.insertIdx_length_self]
  intro line hmem
  exact premises_eq_nil_of_premiseNumbers hp hmem (huncited _ (List.mem_map_of_mem hmem))

/-! ## Goals and the restriction -/

theorem document_restrict (p : Proof) (rules : List Rule) :
    (p.attempt setting (.restrict rules)).1.document =
      { p.document with restriction := Rule.setOf rules } := by
  have hdone : (p.attempt setting (.restrict rules)).1 = (p.restrict rules).proof := rfl
  rw [hdone]
  simp only [restrict, noting_fst]
  rw [document_eq_of_content_eq (content_edited _)]
  simp only
  rw [document_eq_of_content_eq (content_resetGoals _)]
  simp only [document, List.map_map]
  rfl

theorem document_writeGoal (p : Proof) (index : Nat) (text : String) :
    (p.writeGoal index text).proof.document =
      { p.document with goals := p.document.goals.modify index fun _ => text } := by
  have htext : ∀ goal : Goal, (goal.setText text).1.text = text := by
    intro goal
    unfold Goal.setText
    split
    · assumption
    · rfl
  have hgoals : (p.goals.modify index fun goal => (goal.setText text).1).map Goal.text =
      (p.goals.map Goal.text).modify index fun _ => text :=
    map_modify_of_comm fun goal _ => htext goal
  simp only [writeGoal, notingAt_fst, document, hgoals]
  rfl

/-- Setting the text of a goal changes one goal. -/
theorem document_setGoalText (p : Proof) (index : Nat) (text : String) :
    (p.attempt setting (.setGoalText index text)).1.document =
      { p.document with goals := p.document.goals.modify index fun _ => text } := by
  by_cases hindex : index < p.goals.length
  · have hgoal := List.getElem?_eq_getElem hindex
    rw [attempt_fst_of_ok rfl (setGoalText_of_getElem? hgoal text)]
    split
    · rename_i htext
      rw [modify_eq_self_of_getElem?]
      intro other hother
      simpa [document, hgoal, ← htext] using hother
    · exact document_writeGoal p index text
  · have hrefused : p.setGoalText index text = .error (.indexOutOfBounds index p.goals.length) := by
      rw [setGoalText, checkGoal_of_not_lt hindex]
      rfl
    rw [attempt_fst_of_error rfl hrefused, List.modify_eq_self]
    simpa [document] using hindex

/-- A new goal is blank. -/
theorem document_addGoal (p : Proof) {index : Nat} (hindex : index ≤ p.document.goals.length) :
    (p.attempt setting (.addGoal index)).1.document =
      { p.document with goals := p.document.goals.insertIdx index "" } := by
  have hle : ¬ p.goals.length < index := by
    simpa [document] using hindex
  have hadded : p.addGoal index = .ok (edited (p.insertGoal index)) := by
    rw [addGoal, if_neg hle]
    rfl
  rw [attempt_fst_of_ok rfl hadded, document_eq_of_content_eq (content_edited _)]
  have hgoals : ∀ goals : List Goal,
      (goals.mapIdx fun number goal => { goal with number }).map Goal.text =
        goals.map Goal.text := by
    intro goals
    apply List.ext_getElem?
    intro j
    rw [List.getElem?_map, List.getElem?_mapIdx, List.getElem?_map, Option.map_map]
    rfl
  simp only [insertGoal, document, goals_renumberGoals, hgoals, List.map_insertIdx]
  rfl

end Proof

end NaturalDeduction
