/-
  What the steps of an operation come to.

  The steps of an operation come in an order in which everything that may refuse
  it stands before the first change. So, step by step, an operation that is
  refused changes nothing and queues nothing, and one that is not refused does
  what it does as a whole.
-/

import NaturalDeduction.Proof.Live
import NaturalDeduction.Proofs.Store.Change

namespace NaturalDeduction

/-! ## Changes of one element -/

section

variable {α : Type}

/-- An element that stays as it was causes no events. -/
theorem notingAt_eq_self {index : Nat} {change : α → α × List Event} {as : List α}
    (h : ∀ a, as[index]? = some a → change a = (a, [])) : notingAt index change as = (as, []) := by
  unfold notingAt
  cases hat : as[index]? with
  | none => rfl
  | some a =>
    obtain ⟨hindex, rfl⟩ := List.getElem?_eq_some_iff.1 hat
    simp [h _ hat]

/-- A change without events may follow another change at once. -/
theorem notingAt_quietly (index : Nat) (change : α → α × List Event) (alter : α → α) (as : List α) :
    notingAt index (fun a => (alter a, [])) (notingAt index change as).1 =
        ((notingAt index (fun a => (alter (change a).1, (change a).2)) as).1, []) ∧
      (notingAt index change as).2 =
        (notingAt index (fun a => (alter (change a).1, (change a).2)) as).2 := by
  unfold notingAt
  cases hat : as[index]? with
  | none => simp [hat]
  | some a =>
    obtain ⟨hindex, rfl⟩ := List.getElem?_eq_some_iff.1 hat
    simp [hindex]

end

namespace Proof

/-! ## Edits that are not counted yet -/

variable {p : Proof}

/-- What depends on a line is a matter of identities, rows and citations. -/
theorem dependentsAt_with_lines {lines : List Line} (h : lines.map Line.id = p.lines.map Line.id)
    (index : Nat) : ({ p with lines } : Proof).dependentsAt index = p.dependentsAt index := by
  have hid : ({ p with lines } : Proof).lineId? = p.lineId? := by
    funext position
    rw [Proof.lineId?, Proof.lineId?, ← List.getElem?_map, ← List.getElem?_map, h]
  unfold Proof.dependentsAt
  rw [hid]
  rfl

/-- A line is written by putting the text in and letting the line wait. -/
theorem writeLine_in_steps (setting : Setting) (proof : Proof) (index : Nat) (text : String) :
    writeLine setting proof index text =
      let (written, events) := notingAt index (Line.setText text) proof.lines
      let (lines, quiet) := notingAt index (fun line =>
        ({ line with due? := setting.debounce?.map (proof.now + ·) }, [])) written
      let waiting : Proof := { proof with lines }
      let (stale, more) := waiting.invalidateEach (waiting.dependentsAt index)
      let (reset, last) := stale.resetGoals
      (reset, events ++ quiet ++ more ++ last) := by
  obtain ⟨hlines, hevents⟩ := notingAt_quietly index (Line.setText text)
    (fun line => { line with due? := setting.debounce?.map (proof.now + ·) }) proof.lines
  have hid (line : Line) : (line.setText text).1.id = line.id := by
    unfold Line.setText
    split <;> rfl
  simp only [hlines, hevents, List.append_nil]
  rw [dependentsAt_with_lines]
  · rfl
  · rw [notingAt_fst]
    refine map_modify_eq (fun line => ?_) _ _
    exact hid line

/-- Replacing the text of a line, with the answer whether it is another one. -/
def writing (setting : Setting) (proof : Proof) (index : Nat) (text : String) : Outcome Bool :=
  if proof.lines[index]?.any (·.text == text) then ⟨false, proof, []⟩
  else ⟨true, (writeLine setting proof index text).1, (writeLine setting proof index text).2⟩

/-- Selecting the rule of a line, with the answer whether it is another one. -/
def choosing (setting : Setting) (proof : Proof) (index : Nat) (rule? : Option Rule) :
    Outcome (Status × Bool) :=
  if proof.lines[index]?.any (·.rule? == rule?) then
    (verifyLineAt setting proof index).map (·, false)
  else (chooseRule setting proof index rule?).map (·, true)

/-- Citing a line, or taking the citation back, unless it is refused. -/
def toggling (setting : Setting) (proof : Proof) (index premise : Nat) :
    Attempt (Outcome Bool) := do
  proof.checkLine index
  proof.checkLine premise
  if proof.layout.isAssumption index then .error (.assumptionHasNoPremises index)
  match proof.lines[index]?, proof.lineId? premise with
  | some line, some id =>
    if !line.premises.contains id && !proof.layout.isAccessible premise index then
      .error (.premiseNotAccessible index premise)
    return toggleCitation setting proof index line id
  | _, _ => .error (.indexOutOfBounds premise proof.lines.length)

/-- Replacing the restriction, without the edit counted. -/
def restricting (proof : Proof) (rules : List Rule) : Outcome Unit :=
  let (lines, events) := noting Line.invalidate proof.lines
  let (reset, more) := { proof with lines, restriction := Rule.setOf rules }.resetGoals
  ⟨(), reset, events ++ more⟩

/-- Replacing the text of a goal, with the answer whether it is another one. -/
def rewording (proof : Proof) (index : Nat) (text : String) : Outcome Bool :=
  if proof.goals[index]?.any (·.text == text) then ⟨false, proof, []⟩
  else (proof.writeGoal index text).map fun _ => true

end Proof

namespace Steps

variable {α β : Type}

/-- What an operation as a whole makes of a live proof: nothing where it is refused. -/
def whole (attempt : Proof.Attempt (Outcome α)) (live : Live) : Proof.Attempt α × Live :=
  match attempt with
  | .ok outcome => (.ok outcome.answer, ⟨outcome.proof, live.events ++ outcome.events⟩)
  | .error reason => (.error reason, live)

@[simp] theorem whole_ok (outcome : Outcome α) (live : Live) : whole (.ok outcome) live =
    (.ok outcome.answer, ⟨outcome.proof, live.events ++ outcome.events⟩) := rfl

@[simp] theorem whole_error (reason : StructureError) (live : Live) :
    whole (.error reason : Proof.Attempt (Outcome α)) live = (.error reason, live) := rfl

@[simp] theorem whole_bind_ok (a : α) (next : α → Proof.Attempt (Outcome β)) (live : Live) :
    whole (Except.ok a >>= next) live = whole (next a) live := rfl

@[simp] theorem whole_bind_error (reason : StructureError)
    (next : α → Proof.Attempt (Outcome β)) (live : Live) :
    whole (Except.error reason >>= next) live = (.error reason, live) := rfl

@[simp] theorem whole_pure (outcome : Outcome α) (live : Live) : whole (pure outcome) live =
    (.ok outcome.answer, ⟨outcome.proof, live.events ++ outcome.events⟩) := rfl

theorem map_whole (f : α → β) (attempt : Proof.Attempt (Outcome α)) (live : Live) :
    ((whole attempt live).1.map f, (whole attempt live).2) =
      whole (do return (← attempt).map f) live := by
  cases attempt <;> rfl

@[simp] theorem answer_map (f : α → β) (outcome : Outcome α) :
    (outcome.map f).answer = f outcome.answer := rfl

/-! ## One step after the other -/

@[simp] theorem after_pure (a : α) (live : Live) :
    (pure a : Steps α).after live = (.ok a, live) := rfl

@[simp] theorem after_refuse (reason : StructureError) (live : Live) :
    (refuse reason : Steps α).after live = (.error reason, live) := rfl

@[simp] theorem after_demand (attempt : Proof.Attempt α) (live : Live) :
    (demand attempt).after live = (attempt, live) := rfl

@[simp] theorem after_current (live : Live) :
    current.after live = (.ok live.proof, live) := rfl

@[simp] theorem after_carry (change : Proof → Outcome α) (live : Live) :
    (carry change).after live = (.ok (change live.proof).answer,
      ⟨(change live.proof).proof, live.events ++ (change live.proof).events⟩) := rfl

@[simp] theorem after_change (change : Proof → Proof × List Event) (live : Live) :
    (Steps.change change).after live =
      (.ok (), ⟨(change live.proof).1, live.events ++ (change live.proof).2⟩) := rfl

@[simp] theorem after_checkLine (index : Nat) (live : Live) :
    (checkLine index).after live = (live.proof.checkLine index, live) := rfl

@[simp] theorem after_checkGoal (index : Nat) (live : Live) :
    (checkGoal index).after live = (live.proof.checkGoal index, live) := rfl

/-- Steps after a refusal are not carried out. -/
theorem after_bind (steps : Steps α) (next : α → Steps β) (live : Live) :
    (steps >>= next).after live =
      match steps.after live with
      | (.ok a, later) => (next a).after later
      | (.error reason, later) => (.error reason, later) := by
  unfold after
  rw [ExceptT.run_bind, StateT.run_bind]
  rcases (ExceptT.run steps).run live with ⟨_ | _, _⟩ <;> rfl

theorem after_map (f : α → β) (steps : Steps α) (live : Live) :
    (f <$> steps).after live = ((steps.after live).1.map f, (steps.after live).2) := by
  rw [map_eq_pure_bind, after_bind]
  rcases steps.after live with ⟨_ | _, _⟩ <;> rfl

/-! ## Lines added and removed -/

theorem after_rearrange (before : List (LineId × List LineId)) (rows : Layout) (live : Live) :
    (rearrange before rows).after live = (.ok (), ⟨(live.proof.rearranged before rows).1,
      live.events ++ (live.proof.rearranged before rows).2⟩) := by
  simp [rearrange, after_bind, Proof.rearranged]

theorem after_insertValid (index : Nat) (row : Row) (live : Live) :
    (insertValid index row).after live = whole (.ok (live.proof.insertLine index row)) live := by
  simp [insertValid, issueLine, after_bind, after_map, after_rearrange, Proof.insertLine,
    Except.map]

theorem after_insert (index : Nat) (row : Row) (live : Live) :
    (insert index row).after live = whole (live.proof.tryInsert index row) live := by
  unfold insert Proof.tryInsert
  by_cases hindex : live.proof.lines.length < index
  · simp [after_bind, hindex]
  · cases hvalid : Layout.validate (live.proof.layout.insertIdx index row) <;>
      simp [after_bind, hindex, hvalid, after_insertValid]

theorem after_startSubproof (index : Nat) (live : Live) :
    (startSubproof index).after live =
      whole (do
        live.proof.checkLine index
        live.proof.tryInsert (max (index + 1) live.proof.layout.premiseCount)
          ⟨live.proof.layout.levelAt index + 1, true⟩) live := by
  cases hindex : live.proof.checkLine index <;>
    simp [startSubproof, after_bind, hindex, after_insert]

theorem after_endSubproof (index : Nat) (live : Live) :
    (endSubproof index).after live =
      whole (do
        live.proof.checkLine index
        let position ← live.proof.layout.enclosingEnd index
        live.proof.tryInsert position ⟨live.proof.layout.levelAt index - 1, false⟩) live := by
  cases hindex : live.proof.checkLine index with
  | error reason => simp [endSubproof, after_bind, hindex]
  | ok _ =>
    cases hend : live.proof.layout.enclosingEnd index <;>
      simp [endSubproof, after_bind, hindex, hend, after_insert]

theorem after_remove (index : Nat) (live : Live) :
    (remove index).after live = whole (live.proof.removeLines index) live := by
  unfold Proof.removeLines
  cases hindex : live.proof.checkLine index with
  | error reason => simp [remove, after_bind, hindex]
  | ok _ =>
    cases hvalid : (live.proof.rowsWithout index).validate <;>
      simp [remove, after_bind, after_map, hindex, hvalid, after_rearrange, Proof.cutLines,
        Except.map]

theorem after_addPremise (live : Live) : addPremise.after live =
    whole (pure (live.proof.insertLine live.proof.layout.premiseCount ⟨0, true⟩)) live := by
  simp [addPremise, after_bind, after_insertValid]

/-! ## Lines edited -/

@[simp] theorem after_changeLine (index : Nat) (edit : Line → Line × List Event) (live : Live) :
    (changeLine index edit).after live =
      (.ok (), ⟨{ live.proof with lines := (notingAt index edit live.proof.lines).1 },
        live.events ++ (notingAt index edit live.proof.lines).2⟩) := rfl

@[simp] theorem after_verifyLine (setting : Setting) (index : Nat) (live : Live) :
    (verifyLine setting index).after live =
      whole (.ok (Proof.verifyLineAt setting live.proof index)) live := rfl

theorem after_setText (setting : Setting) (index : Nat) (text : String) (live : Live) :
    (setText setting index text).after live =
      whole (do
        live.proof.checkLine index
        return Proof.writing setting live.proof index text) live := by
  cases hindex : live.proof.checkLine index with
  | error reason => simp [setText, after_bind, hindex]
  | ok _ =>
    cases hsame : live.proof.lines[index]?.any (·.text == text) with
    | true =>
      have hself : notingAt index (Line.setText text) live.proof.lines =
          (live.proof.lines, []) := by
        refine notingAt_eq_self fun line hline => ?_
        simp_all [Line.setText]
      simp [setText, Proof.writing, after_bind, after_map, hindex, hsame, hself, Except.map]
    | false =>
      simp [setText, Proof.writing, after_bind, after_map, hindex, hsame,
        Proof.writeLine_in_steps, Except.map]

theorem after_setRule (setting : Setting) (index : Nat) (rule? : Option Rule) (live : Live) :
    (setRule setting index rule?).after live =
      whole (do
        live.proof.checkLine index
        return Proof.choosing setting live.proof index rule?) live := by
  cases hindex : live.proof.checkLine index with
  | error reason => simp [setRule, after_bind, hindex]
  | ok _ =>
    cases hsame : live.proof.lines[index]?.any (·.rule? == rule?) with
    | true =>
      have hself : notingAt index (Line.setRule rule?) live.proof.lines =
          (live.proof.lines, []) := by
        refine notingAt_eq_self fun line hline => ?_
        simp_all [Line.setRule]
      simp [setRule, Proof.choosing, after_bind, after_map, hindex, hsame, hself, Except.map]
    | false =>
      simp [setRule, Proof.choosing, after_bind, after_map, hindex, hsame, Proof.chooseRule,
        Except.map]

theorem after_toggle (setting : Setting) (index : Nat) (line : Line) (id : LineId)
    (live : Live) : (toggle setting index line id).after live =
      whole (.ok (Proof.toggleCitation setting live.proof index line id)) live := by
  simp [toggle, after_bind, after_map, Proof.toggleCitation, Except.map]

theorem after_togglePremise (setting : Setting) (index premise : Nat) (live : Live) :
    (togglePremise setting index premise).after live =
      whole (Proof.toggling setting live.proof index premise) live := by
  unfold togglePremise Proof.toggling
  cases hindex : live.proof.checkLine index with
  | error reason => simp [after_bind, hindex]
  | ok _ =>
    cases hpremise : live.proof.checkLine premise with
    | error reason => simp [after_bind, hindex, hpremise]
    | ok _ =>
      cases hassumption : live.proof.layout.isAssumption index with
      | true => simp [after_bind, hindex, hpremise, hassumption]
      | false =>
        simp only [after_bind, hindex, hpremise, hassumption, after_checkLine, after_current,
          whole_bind_ok, Bool.false_eq_true, if_false]
        -- Both lines are there, and what remains is whether the one may be cited.
        cases live.proof.lines[index]? with
        | none => rfl
        | some line =>
          cases live.proof.lineId? premise with
          | none => rfl
          | some id =>
            simp only
            split
            · rfl
            · exact after_toggle ..

theorem after_restrict (rules : List Rule) (live : Live) : (restrict rules).after live =
    whole (pure (live.proof.restricting rules)) live := by
  simp [restrict, Proof.restricting, after_bind]

/-! ## Goals -/

theorem after_addGoal (index : Nat) (live : Live) :
    (addGoal index).after live = whole (do
      if live.proof.goals.length < index then
        .error (.indexOutOfBounds index live.proof.goals.length)
      return live.proof.insertGoal index) live := by
  by_cases hindex : live.proof.goals.length < index
  · simp [addGoal, after_bind, hindex]
  · simp [addGoal, issueGoal, after_bind, after_map, hindex, Proof.insertGoal, Except.map]

theorem after_removeGoal (index : Nat) (live : Live) :
    (removeGoal index).after live = whole (do
      live.proof.checkGoal index
      if live.proof.goals.length = 1 then .error .lastGoal
      return live.proof.cutGoal index) live := by
  cases hindex : live.proof.checkGoal index with
  | error reason => simp [removeGoal, after_bind, hindex]
  | ok _ =>
    by_cases hcount : live.proof.goals.length = 1
    · simp [removeGoal, after_bind, hindex, hcount]
    · simp [removeGoal, after_bind, hindex, hcount, Proof.cutGoal]

theorem after_setGoalText (index : Nat) (text : String) (live : Live) :
    (setGoalText index text).after live = whole (do
      live.proof.checkGoal index
      return live.proof.rewording index text) live := by
  cases hindex : live.proof.checkGoal index with
  | error reason => simp [setGoalText, after_bind, hindex]
  | ok _ =>
    cases hsame : live.proof.goals[index]?.any (·.text == text) with
    | true =>
      have hself : notingAt index (Goal.setText text) live.proof.goals =
          (live.proof.goals, []) := by
        refine notingAt_eq_self fun goal hgoal => ?_
        simp_all [Goal.setText]
      simp [setGoalText, Proof.rewording, after_bind, after_map, hindex, hsame, hself, Except.map,
        -notingAt_fst]
    | false =>
      simp [setGoalText, Proof.rewording, after_bind, after_map, hindex, hsame, Proof.writeGoal,
        Except.map]

end Steps

end NaturalDeduction
