/-
  Editing step by step.

  A live proof is edited in place, and its listeners are told of the changes
  when an operation is over. An operation is a sequence of steps, each of which
  may change the proof, queue events, or refuse the operation. A refusal drops
  the events that are queued, but it takes no change back: that a refused
  operation leaves no trace is up to the order of its steps.
-/

import NaturalDeduction.Proof.Operation

namespace NaturalDeduction

/-! ## Steps -/

/-- A proof in use, and its events: those that are queued while an operation is carried out, and
between operations those that the listeners were sent. -/
structure Live where
  proof : Proof
  events : List Event
  deriving DecidableEq, Repr

/-- A sequence of steps. -/
abbrev Steps := ExceptT StructureError (StateM Live)

namespace Steps

variable {α : Type}

/-- The result of steps, and the live proof that they leave. -/
def after (steps : Steps α) (live : Live) : Proof.Attempt α × Live :=
  (ExceptT.run steps).run live

/-- Refuses the operation. -/
def refuse (reason : StructureError) : Steps α := throw reason

/-- Goes on with the result of a computation, unless it refuses. -/
def demand (attempt : Proof.Attempt α) : Steps α := ExceptT.mk (return attempt)

/-- The proof as it is now. -/
def current : Steps Proof := return (← get).proof

/-- Changes the proof and queues what is to be announced. -/
def carry (change : Proof → Outcome α) : Steps α := do
  let outcome := change (← current)
  modify fun live => ⟨outcome.proof, live.events ++ outcome.events⟩
  return outcome.answer

/-- The same for a change without an answer. -/
def change (change : Proof → Proof × List Event) : Steps Unit :=
  carry fun proof => ⟨(), (change proof).1, (change proof).2⟩

/-- Accepts the index of a line. -/
def checkLine (index : Nat) : Steps Unit := do
  demand ((← current).checkLine index)

/-- Accepts the index of a goal. -/
def checkGoal (index : Nat) : Steps Unit := do
  demand ((← current).checkGoal index)

/-! ### Lines added and removed -/

/-- Issues the identity of a line. -/
def issueLine : Steps LineId :=
  carry fun proof => ⟨proof.nextLine, { proof with nextLine := proof.nextLine + 1 }, []⟩

/-- Settles the proof after its lines were rearranged. -/
def rearrange (before : List (LineId × List LineId)) (rows : Layout) : Steps Unit := do
  change (Proof.placeAll rows)
  change fun proof => proof.invalidateEach (proof.citingReshaped before)
  change Proof.resetGoals

/-- Inserts a row into rows that are known to be well nested then. -/
def insertValid (index : Nat) (row : Row) : Steps LineId := do
  let proof ← current
  let rows := proof.layout.insertIdx index row
  let id ← issueLine
  change fun proof =>
    ({ proof with lines := proof.lines.insertIdx index (Line.new id index row) },
      [.lineAdded id index row.level row.assumption])
  rearrange proof.subproofs rows
  return id

/-- Inserts a row, if the position exists and the row fits there. -/
def insert (index : Nat) (row : Row) : Steps LineId := do
  let proof ← current
  if proof.lines.length < index then refuse (.indexOutOfBounds index proof.lines.length)
  demand (Layout.validate (proof.layout.insertIdx index row))
  insertValid index row

/-- Removes a line, or its whole subproof if it opens one. -/
def remove (index : Nat) : Steps (List LineId) := do
  checkLine index
  let proof ← current
  let range := proof.layout.subproofRange index
  let removed := range.filterMap proof.lineId?
  demand (Layout.validate (proof.rowsWithout index))
  change fun proof =>
    ({ proof with lines := proof.lines.take index ++ proof.lines.drop (index + range.length) },
      removed.map .lineRemoved)
  rearrange proof.subproofs (proof.rowsWithout index)
  return removed

/-- Opens a subproof one level below a line. -/
def startSubproof (index : Nat) : Steps LineId := do
  checkLine index
  let layout := (← current).layout
  insert (max (index + 1) layout.premiseCount) ⟨layout.levelAt index + 1, true⟩

/-- Adds a line one level up, right after the innermost subproof of a line. -/
def endSubproof (index : Nat) : Steps LineId := do
  checkLine index
  let layout := (← current).layout
  let position ← demand (layout.enclosingEnd index)
  insert position ⟨layout.levelAt index - 1, false⟩

/-! ### Lines edited -/

/-- Changes the line at a position. -/
def changeLine (index : Nat) (edit : Line → Line × List Event) : Steps Unit :=
  change fun proof =>
    let (lines, events) := notingAt index edit proof.lines
    ({ proof with lines }, events)

/-- Verifies the line at a position. -/
def verifyLine (setting : Setting) (index : Nat) : Steps Status :=
  carry fun proof => proof.verifyLineAt setting index

/-- Replaces the text of a line. The answer tells whether it is another one. -/
def setText (setting : Setting) (index : Nat) (text : String) : Steps Bool := do
  checkLine index
  let proof ← current
  let isSame := proof.lines[index]?.any (·.text == text)
  changeLine index (Line.setText text)
  if isSame then return false
  -- The verification becomes due after the quiet period.
  changeLine index fun line => ({ line with due? := setting.debounce?.map (proof.now + ·) }, [])
  change fun proof => proof.invalidateEach (proof.dependentsAt index)
  change Proof.resetGoals
  return true

/-- Selects the rule of a line and verifies the line. The answer also tells whether it is another
rule. -/
def setRule (setting : Setting) (index : Nat) (rule? : Option Rule) : Steps (Status × Bool) := do
  checkLine index
  let isSame := (← current).lines[index]?.any (·.rule? == rule?)
  changeLine index (Line.setRule rule?)
  unless isSame do change Proof.resetGoals
  return (← verifyLine setting index, !isSame)

/-- Adds the citation of the line `id` to a line, or takes it back if it was there, and verifies
the citing line. -/
def toggle (setting : Setting) (index : Nat) (line : Line) (id : LineId) : Steps Bool := do
  let isCited := line.premises.contains id
  changeLine index (Line.setPremises (Proof.toggled line.premises id))
  change fun proof =>
    ({ proof with citations :=
        if isCited then proof.citations.remove id line.id else proof.citations.add id line.id },
      [])
  change Proof.resetGoals
  let _ ← verifyLine setting index
  return !isCited

/-- Cites a line, or takes the citation back, unless the line may not be cited. -/
def togglePremise (setting : Setting) (index premise : Nat) : Steps Bool := do
  checkLine index
  checkLine premise
  let proof ← current
  if proof.layout.isAssumption index then refuse (.assumptionHasNoPremises index)
  match proof.lines[index]?, proof.lineId? premise with
  | some line, some id =>
    if !line.premises.contains id && !proof.layout.isAccessible premise index then
      refuse (.premiseNotAccessible index premise)
    toggle setting index line id
  | _, _ => refuse (.indexOutOfBounds premise proof.lines.length)

/-! ### Goals -/

/-- Issues the identity of a goal. -/
def issueGoal : Steps GoalId :=
  carry fun proof => ⟨proof.nextGoal, { proof with nextGoal := proof.nextGoal + 1 }, []⟩

/-- Adds a blank goal at a position, if the position exists. -/
def addGoal (index : Nat) : Steps GoalId := do
  let proof ← current
  if proof.goals.length < index then refuse (.indexOutOfBounds index proof.goals.length)
  let id ← issueGoal
  change fun proof =>
    ({ proof with goals := proof.goals.insertIdx index (Goal.new id index) },
      [.goalAdded id index])
  change Proof.renumberGoals
  return id

/-- Removes a goal, unless it is the last one. -/
def removeGoal (index : Nat) : Steps Unit := do
  checkGoal index
  let proof ← current
  if proof.goals.length = 1 then refuse .lastGoal
  change fun proof =>
    ({ proof with goals := proof.goals.eraseIdx index },
      proof.goals[index]?.toList.map fun goal => .goalRemoved goal.id)
  change Proof.renumberGoals

/-- Replaces the text of a goal. The answer tells whether it is another one. -/
def setGoalText (index : Nat) (text : String) : Steps Bool := do
  checkGoal index
  let isSame := (← current).goals[index]?.any (·.text == text)
  change fun proof =>
    let (goals, events) := notingAt index (Goal.setText text) proof.goals
    ({ proof with goals }, events)
  return !isSame

/-! ## Operations -/

/-- Counts an edit, if the answer of an outcome tells of one. -/
def counted (isEdit : α → Bool) (outcome : Outcome α) : Outcome α :=
  if isEdit outcome.answer then Proof.edited outcome else outcome

/-- Carries out steps as one operation, of which `isEdit` tells by its answer whether it changed
what is edited. What the steps changed is changed for good; what they queued is delivered at the
end. -/
def call (isEdit : α → Bool) (steps : Steps α) : Steps α := do
  let live ← get
  let (result, left) := steps.after ⟨live.proof, []⟩
  set (⟨left.proof, live.events⟩ : Live)
  let answer ← demand result
  carry fun proof => counted isEdit ⟨answer, proof, left.events⟩

/-- Verifies the line at a position on request. -/
def requestLine (setting : Setting) (index : Nat) : Steps Status := do
  checkLine index
  verifyLine setting index

/-- Verifies the goal at a position on request. -/
def requestGoal (setting : Setting) (index : Nat) : Steps Status := do
  checkGoal index
  carry fun proof => proof.verifyGoalAt setting index

/-- Fills a suggested conclusion into a blank line and verifies the line: two operations. -/
def autoFill (setting : Setting) (index : Nat) : Steps (Option String) := do
  checkLine index
  match (← current).suggestionFor? index with
  | none => return none
  | some text =>
    let _ ← call id (setText setting index text)
    let _ ← call (fun _ => false) (requestLine setting index)
    return some text

/-- Adds a premise after the existing ones. -/
def addPremise : Steps LineId := do
  insertValid (← current).layout.premiseCount ⟨0, true⟩

/-- Replaces the restriction. -/
def restrict (rules : List Rule) : Steps Unit := do
  change fun proof =>
    let (lines, events) := noting Line.invalidate proof.lines
    ({ proof with lines, restriction := Rule.setOf rules }, events)
  change Proof.resetGoals

/-- Carries out an operation. -/
def perform (setting : Setting) : Operation → Steps Reply
  | .addPremise => .line <$> call (fun _ => true) addPremise
  | .addLine index row => .line <$> call (fun _ => true) (insert index row)
  | .startSubproof index => .line <$> call (fun _ => true) (startSubproof index)
  | .endSubproof index => .line <$> call (fun _ => true) (endSubproof index)
  | .delete index => .removed <$> call (fun _ => true) (remove index)
  | .setText index text => (fun _ => .done) <$> call id (setText setting index text)
  | .setRule index rule? =>
    (fun answer => .status answer.1) <$> call Prod.snd (setRule setting index rule?)
  | .togglePremise index premise =>
    .cited <$> call (fun _ => true) (togglePremise setting index premise)
  | .restrict rules => (fun _ => .done) <$> call (fun _ => true) (restrict rules)
  | .verifyLine index => .status <$> call (fun _ => false) (requestLine setting index)
  | .verifyGoal index => .status <$> call (fun _ => false) (requestGoal setting index)
  | .verifyAll => .summary <$> call (fun _ => false) (carry (Proof.verifyAll setting))
  | .autoFill index => .filled <$> autoFill setting index
  | .addGoal index => .goal <$> call (fun _ => true) (addGoal index)
  | .removeGoal index => (fun _ => .done) <$> call (fun _ => true) (removeGoal index)
  | .setGoalText index text => (fun _ => .done) <$> call id (setGoalText index text)
  | .advance milliseconds => (fun _ => .done) <$> call (fun _ => false)
    (carry fun proof => proof.advance setting milliseconds)

end Steps

namespace Live

/-- What an operation answers, or why it is refused, and the live proof afterwards. -/
def attempt (setting : Setting) (live : Live) (operation : Operation) :
    Proof.Attempt Reply × Live :=
  (Steps.perform setting operation).after live

/-- Operations one after the other, refused operations among them. -/
def run (setting : Setting) (live : Live) (operations : List Operation) : Live :=
  operations.foldl (fun live operation => (live.attempt setting operation).2) live

end Live

end NaturalDeduction
