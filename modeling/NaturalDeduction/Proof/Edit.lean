/-
  Editing a proof.

  Every operation either is refused, and then there is nothing but the reason,
  or gives its answer, the changed proof and what was announced. An edit of a
  text leaves lines that rest on it unverified; choosing a rule or a citation
  verifies the line at once.
-/

import NaturalDeduction.Proof.Rearrange
import NaturalDeduction.Proof.Verify
import NaturalDeduction.Rule.Suggest
import NaturalDeduction.Text.Blank

namespace NaturalDeduction.Proof

/-- What comes of an operation that may be refused. -/
abbrev Attempt := Except StructureError

/-- Counts an edit. -/
def edited {α : Type} (outcome : Outcome α) : Outcome α :=
  { outcome with proof := { outcome.proof with edits := outcome.proof.edits + 1 } }

/-! ## Structure -/

/-- Adds a premise after the existing ones. -/
def addPremise (proof : Proof) : Outcome LineId :=
  edited (proof.insertLine proof.layout.premiseCount ⟨0, true⟩)

/-- Adds a line at a position. -/
def addLine (proof : Proof) (index : Nat) (row : Row) : Attempt (Outcome LineId) := do
  return edited (← proof.tryInsert index row)

/-- Opens a subproof one level below a line, right after it but never among the premises. -/
def startSubproof (proof : Proof) (index : Nat) : Attempt (Outcome LineId) := do
  proof.checkLine index
  let row : Row := ⟨proof.layout.levelAt index + 1, true⟩
  return edited (← proof.tryInsert (max (index + 1) proof.layout.premiseCount) row)

/-- Adds a line one level up, right after the innermost subproof of a line. -/
def endSubproof (proof : Proof) (index : Nat) : Attempt (Outcome LineId) := do
  proof.checkLine index
  let position ← proof.layout.enclosingEnd index
  return edited (← proof.tryInsert position ⟨proof.layout.levelAt index - 1, false⟩)

/-- Removes a line, or its whole subproof if it opens one. The answer is what was removed. -/
def delete (proof : Proof) (index : Nat) : Attempt (Outcome (List LineId)) := do
  return edited (← proof.removeLines index)

/-! ## Texts -/

/-- The lines whose claims hold the sentence of the line at a position: those that cite it, and
those that cite the subproof it concludes, in the order of their identities. -/
def dependentsAt (proof : Proof) (index : Nat) : List LineId :=
  let citingAt (position? : Option Nat) : List LineId :=
    ((position?.bind proof.lineId?).map proof.citing).getD []
  (citingAt (proof.layout.concludedSubproof? index)).foldr Ascending.insert (citingAt (some index))

/-- Puts a text into a line, which waits for its verification from now on. -/
def writeLine (setting : Setting) (proof : Proof) (index : Nat) (text : String) :
    Proof × List Event :=
  let due? := setting.debounce?.map (proof.now + ·)
  let (lines, events) := notingAt index (fun line =>
    let (written, events) := line.setText text
    ({ written with due? }, events)) proof.lines
  let (stale, more) := { proof with lines }.invalidateEach (proof.dependentsAt index)
  let (reset, last) := stale.resetGoals
  (reset, events ++ more ++ last)

/-- Replaces the text of a line. The lines and goals that rest on it go back to the blank mark. -/
def setText (setting : Setting) (proof : Proof) (index : Nat) (text : String) :
    Attempt (Outcome Unit) := do
  proof.checkLine index
  -- The same text again is no edit.
  if proof.lines[index]?.any (·.text == text) then return ⟨(), proof, []⟩
  let (written, events) := writeLine setting proof index text
  return edited ⟨(), written, events⟩

/-! ## Rules and citations -/

/-- Puts a rule into a line and verifies the line. -/
def chooseRule (setting : Setting) (proof : Proof) (index : Nat) (rule? : Option Rule) :
    Outcome Status :=
  let (lines, events) := notingAt index (Line.setRule rule?) proof.lines
  let (reset, more) := { proof with lines }.resetGoals
  let verified := verifyLineAt setting reset index
  { verified with events := events ++ more ++ verified.events }

/-- Selects the rule of a line and verifies the line. -/
def setRule (setting : Setting) (proof : Proof) (index : Nat) (rule? : Option Rule) :
    Attempt (Outcome Status) := do
  proof.checkLine index
  if proof.lines[index]?.any (·.rule? == rule?) then return verifyLineAt setting proof index
  return edited (chooseRule setting proof index rule?)

/-- The citations of a line with one line added, or removed if it was there. -/
def toggled (premises : List LineId) (id : LineId) : List LineId :=
  if premises.contains id then premises.filter (· ≠ id) else Ascending.insert id premises

/-- Adds the citation of the line `id` to the line at a position, or takes it back if it was there,
and verifies the citing line. The answer tells whether it is cited now. -/
def toggleCitation (setting : Setting) (proof : Proof) (index : Nat) (line : Line) (id : LineId) :
    Outcome Bool :=
  let isCited := line.premises.contains id
  let (lines, events) := notingAt index (Line.setPremises (toggled line.premises id)) proof.lines
  let citations :=
    if isCited then proof.citations.remove id line.id else proof.citations.add id line.id
  let (reset, more) := { proof with lines, citations }.resetGoals
  let verified := verifyLineAt setting reset index
  ⟨!isCited, verified.proof, events ++ more ++ verified.events⟩

/-- Cites a line, or takes the citation back, and verifies the citing line. The answer tells
whether the line is cited now. -/
def togglePremise (setting : Setting) (proof : Proof) (index premise : Nat) :
    Attempt (Outcome Bool) := do
  proof.checkLine index
  proof.checkLine premise
  if proof.layout.isAssumption index then .error (.assumptionHasNoPremises index)
  match proof.lines[index]?, proof.lineId? premise with
  | some line, some id =>
    -- A citation that became inaccessible may still be taken back.
    if !line.premises.contains id && !proof.layout.isAccessible premise index then
      .error (.premiseNotAccessible index premise)
    return edited (toggleCitation setting proof index line id)
  | _, _ => .error (.indexOutOfBounds premise proof.lines.length)

/-- Replaces the restriction. Every line and goal goes back to the blank mark. -/
def restrict (proof : Proof) (rules : List Rule) : Outcome Unit :=
  let (lines, events) := noting Line.invalidate proof.lines
  let (reset, more) := { proof with lines, restriction := Rule.setOf rules }.resetGoals
  edited ⟨(), reset, events ++ more⟩

/-! ## Verification on request -/

/-- Verifies a line. -/
def verifyLine (setting : Setting) (proof : Proof) (index : Nat) : Attempt (Outcome Status) := do
  proof.checkLine index
  return verifyLineAt setting proof index

/-- Verifies a goal. -/
def verifyGoal (setting : Setting) (proof : Proof) (index : Nat) : Attempt (Outcome Status) := do
  proof.checkGoal index
  return verifyGoalAt setting proof index

/-! ## Filling in conclusions -/

/-- The squeezed texts and renderings of the lines that a line may cite. -/
def takenBy (proof : Proof) (index : Nat) : List String :=
  ((proof.layout.accessible index).filterMap fun position => proof.lines[position]?).flatMap
    fun line => (line.text :: (line.sentence?.map Sentence.render).toList).map Text.squeeze

/-- The text to fill into a blank line: the first suggestion of its rule that is not stated by a
line it may cite, or the first one if all are. -/
def suggestionFor? (proof : Proof) (index : Nat) : Option String := do
  let line ← proof.lines[index]?
  if line.assumption || !Text.isBlankText line.text then none
  let rule ← line.rule?
  let premises ← (proof.premisesOf index line).toOption
  let suggestions := rule.suggestions premises
  let taken := proof.takenBy index
  (suggestions.find? fun text => !taken.contains (Text.squeeze text)).or suggestions.head?

/-- Fills a suggested conclusion into a blank line and verifies the line. The answer is the text
written, if there was one to write. -/
def autoFill (setting : Setting) (proof : Proof) (index : Nat) :
    Attempt (Outcome (Option String)) := do
  proof.checkLine index
  match proof.suggestionFor? index with
  | none => return ⟨none, proof, []⟩
  | some text =>
    let written ← proof.setText setting index text
    let verified := verifyLineAt setting written.proof index
    return ⟨some text, verified.proof, written.events ++ verified.events⟩

/-! ## Goals -/

/-- Moves every goal to its position. -/
def renumberGoals (proof : Proof) : Proof × List Event :=
  let (goals, events) := noting (fun (goal, number) =>
    let (moved, events) := goal.setNumber number
    ((moved, number), events)) proof.goals.zipIdx
  ({ proof with goals := goals.map Prod.fst }, events)

/-- Puts a blank goal at a position. -/
def insertGoal (proof : Proof) (index : Nat) : Outcome GoalId :=
  let id := proof.nextGoal
  let goals := proof.goals.insertIdx index (Goal.new id index)
  let (numbered, events) := { proof with goals, nextGoal := id + 1 }.renumberGoals
  ⟨id, numbered, .goalAdded id index :: events⟩

/-- Adds a blank goal at a position, if the position exists. -/
def addGoal (proof : Proof) (index : Nat) : Attempt (Outcome GoalId) := do
  if proof.goals.length < index then .error (.indexOutOfBounds index proof.goals.length)
  return edited (proof.insertGoal index)

/-- Takes away the goal at a position. -/
def cutGoal (proof : Proof) (index : Nat) : Outcome Unit :=
  let removed := proof.goals[index]?.toList.map fun goal => Event.goalRemoved goal.id
  let (numbered, events) := { proof with goals := proof.goals.eraseIdx index }.renumberGoals
  ⟨(), numbered, removed ++ events⟩

/-- Removes a goal, unless it is the last one. -/
def removeGoal (proof : Proof) (index : Nat) : Attempt (Outcome Unit) := do
  proof.checkGoal index
  if proof.goals.length = 1 then .error .lastGoal
  return edited (proof.cutGoal index)

/-- Puts a text into a goal. -/
def writeGoal (proof : Proof) (index : Nat) (text : String) : Outcome Unit :=
  let (goals, events) := notingAt index (Goal.setText text) proof.goals
  ⟨(), { proof with goals }, events⟩

/-- Replaces the text of a goal. -/
def setGoalText (proof : Proof) (index : Nat) (text : String) : Attempt (Outcome Unit) := do
  proof.checkGoal index
  if proof.goals[index]?.any (·.text == text) then return ⟨(), proof, []⟩
  return edited (proof.writeGoal index text)

end NaturalDeduction.Proof
