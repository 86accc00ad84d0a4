/-
  Answering a request on machine words.

  The same computations as for the answer to a request, with every look-up, sum
  and difference on the way spelled out: checking the document, building its
  table of subproofs, issuing identities, finding lines by their identities,
  checking a claim's premises by their indices, collecting what a claim or a goal
  rests on, and numbering the rows in a text. Sentences are read as they are
  elsewhere: the offsets there stay within the text, and no number of a request
  reaches them.
-/

import NaturalDeduction.Checker.Verdict
import NaturalDeduction.Layout.BlockTable
import NaturalDeduction.Proof.Edit
import NaturalDeduction.Proof.View

namespace NaturalDeduction.Machine

open Trapping

/-! ## Documents -/

/-- The table of the rows of a document. -/
def tableOf (layout : Layout) : Trapping (Except DocumentError BlockTable) := do
  match ← BlockTable.firstMisplaced? 0 true 0 layout with
  | some index => return .error (.structural (.illFormedNesting index))
  | none => return .ok (← BlockTable.ofRows layout)

/-- What is wrong with the premises of the record at line `line`, if anything. -/
def premiseError? (table : BlockTable) (line : Nat) (record : LineRecord) :
    Trapping (Option DocumentError) := do
  if record.assumption && !record.premises.isEmpty then
    return some (.assumptionWithPremises line)
  let refused? ← find? (fun premise => do return !(← table.isAccessible premise line))
    record.premises
  return refused?.map (.badPremise line)

/-- The first error among the premises of the records, the first of which is at line `line`. -/
def firstPremiseError? (table : BlockTable) :
    Nat → List LineRecord → Trapping (Option DocumentError)
  | _, [] => .ok none
  | line, record :: records => do
    match ← premiseError? table line record with
    | some error => return some error
    | none => firstPremiseError? table (line + 1) records

/-- Accepts a valid document, and gives the table of its rows. -/
def validate (document : Document) : Trapping (Except DocumentError BlockTable) := do
  if document.version ≠ Document.currentVersion then
    return .error (.unsupportedVersion document.version)
  match ← tableOf document.layout with
  | .error error => return .error error
  | .ok table =>
    match ← firstPremiseError? table 0 document.lines with
    | some error => return .error error
    | none => return .ok table

/-! ## Loading -/

/-- Issues so many identities, and gives the one that is next after them. -/
def issue : Nat → Nat → Trapping (List Nat × Nat)
  | 0, next => .ok ([], next)
  | count + 1, next => do
    let (ids, last) ← issue count (← sum next 1)
    return (next :: ids, last)

/-- Whether the line at position `index` may cite the line with an identity. -/
def mayCite (table : BlockTable) (positions : Positions) (index : Nat) (id : LineId) :
    Trapping Bool :=
  match positions.lookup id with
  | some position => table.isAccessible position index
  | none => .ok false

/-- The line that a record describes. Citations that the table does not allow are dropped. -/
def placeRecord (table : BlockTable) (ids : List LineId) (index : Nat) (record : LineRecord) :
    Trapping Line := do
  let id ← lookUp ids index
  let cited ← record.premises.mapM (lookUp ids)
  let positions := ids.mapIdx fun index id => (id, index)
  let kept ← filter (mayCite table positions index) cited
  return { Line.new id index ⟨record.depth, record.assumption⟩ with
    text := record.text
    premises := Ascending.ofList kept
    rule? := record.rule? }

/-- The lines that records describe, the first of which is at the given position. -/
def placeRecords (table : BlockTable) (ids : List LineId) :
    Nat → List LineRecord → Trapping (List Line)
  | _, [] => .ok []
  | index, record :: records => do
    let line ← placeRecord table ids index record
    return line :: (← placeRecords table ids (index + 1) records)

/-- The proof that a valid document describes, with the table of its rows. -/
def load (document : Document) : Trapping (Except DocumentError (Proof × BlockTable)) := do
  match ← validate document with
  | .error error => return .error error
  | .ok table =>
    let (ids, nextLine) ← issue document.lines.length 1
    let lines ← placeRecords table ids 0 document.lines
    let (goalIds, nextGoal) ← issue document.goals.length 1
    let goals := goalIds.zipWith (fun id (number, text) => { Goal.new id number with text })
      (document.goals.mapIdx fun number text => (number, text))
    let proof : Proof := {
      lines
      layout := document.layout
      positions := .ofLines lines
      citations := .ofLines lines
      goals
      restriction := document.restriction
      nextLine
      nextGoal
      edits := 0
      consulted := []
      now := 0 }
    return .ok (proof, table)

/-! ## Checking a claim -/

/-- The sentences of the premises, none of which may be a subproof, once they are counted. -/
def countedPremises (rule : Rule) (count : Nat) (premises : List Premise) :
    Rule.Checked (List Sentence) := do
  let sentences ← rule.plainPremises premises
  if sentences.length = count then return sentences
  else .error (.premiseCount rule count sentences.length)

/-- Checks what a rule requires of its only premise, the first one. -/
def checkFirst (rule : Rule) (premises : List Premise) (required : Sentence → Rule.Checked Unit) :
    Trapping (Rule.Checked Unit) :=
  match countedPremises rule 1 premises with
  | .error violation => .ok (.error violation)
  | .ok sentences => do return required (← lookUp sentences 0)

/-- Whether there are two disjuncts, one of them the negation of the other. -/
def isExcludedMiddle (disjuncts : List Sentence) : Trapping Bool := do
  if disjuncts.length ≠ 2 then return false
  if (← lookUp disjuncts 1).negated? == some (← lookUp disjuncts 0) then return true
  return (← lookUp disjuncts 0).negated? == some (← lookUp disjuncts 1)

/-- Whether the claim's rule licenses it, or why not. The rules for two premises and for subproofs
look nothing up. -/
def checkClaim (claim : Claim) : Trapping (Rule.Checked Unit) :=
  let check := checkFirst claim.rule claim.premises
  let conclusion := claim.conclusion
  match claim.rule with
  | .reiteration => check fun premise =>
    Rule.require (premise == conclusion) (.notThePremise conclusion premise)
  | .simplification => check (Rule.checkSimplification · conclusion)
  | .addition => check (Rule.checkAddition · conclusion)
  | .doubleNegation => check (Rule.checkDoubleNegation · conclusion)
  | .principleOfExplosion => check fun premise =>
    Rule.require (premise == .falsum) (.premiseNotFalsum premise)
  | .universalInstantiation => check (Rule.checkUniversalInstantiation · conclusion)
  | .existentialGeneralization => check (Rule.checkExistentialGeneralization · conclusion)
  | .excludedMiddle =>
    match countedPremises claim.rule 0 claim.premises with
    | .error violation => .ok (.error violation)
    | .ok _ => do
      let excluded ← isExcludedMiddle (conclusion.disjuncts?.getD [])
      return Rule.require excluded (.notExcludedMiddle conclusion)
  | _ => .ok claim.check

/-- The verdict of a claim's own rule. -/
def ruleVerdict (claim : Claim) : Trapping Verdict := do
  match ← checkClaim claim with
  | .ok () => return .valid
  | .error violation => return .invalid violation.message

/-! ## Verifying a line -/

/-- The line at a position, found by its identity. -/
def lineAt (proof : Proof) (index : Nat) : Trapping Line := do
  let id ← lookUp (proof.lines.map Line.id) index
  match proof.lines.find? (·.id == id) with
  | some line => return line
  | none => .error .outOfRange

/-- The sentence at a position, or the message that there is none. -/
def sentenceAt (proof : Proof) (index : Nat) : Trapping (Except String Sentence) := do
  match (← lineAt proof index).sentence? with
  | some sentence => return .ok sentence
  | none =>
    return .error ("The expression at line " ++ toString (← sum index 1) ++ " is invalid")

/-- The premise that a line cites by citing the line at position `cited`. -/
def premiseAt (table : BlockTable) (proof : Proof) (index cited : Nat) :
    Trapping (Except String Premise) := do
  match ← sentenceAt proof cited with
  | .error message => return .error message
  | .ok sentence =>
    if ← table.isSubproofPremise cited index then
      let conclusions ← collect (sentenceAt proof) (← table.subproofConclusions cited)
      return conclusions.map (.subproof sentence)
    else
      return .ok (.line sentence)

/-- Finds the mark and the claim of a line. -/
def judgeLine (table : BlockTable) (proof : Proof) (index : Nat) (line : Line) :
    Trapping (Mark × Option Claim) := do
  match Proof.examine proof.restriction line with
  | .settled mark => return (mark, none)
  | .claims conclusion rule =>
    match ← collect (premiseAt table proof index) (proof.premiseNumbers line) with
    | .error message => return (.invalid message, none)
    | .ok premises =>
      let claim : Claim := ⟨conclusion, premises, rule⟩
      return (Proof.lineMark (← ruleVerdict claim), some claim)

/-- Verifies the line at a position. -/
def verifyLine (table : BlockTable) (proof : Proof) (index : Nat) : Trapping (Outcome Status) := do
  let line ← lineAt proof index
  let (mark, claim?) ← judgeLine table proof index line
  let (settled, events) := { line with due? := none }.settle mark claim?
  return ⟨mark.status, { proof with lines := proof.lines.set index settled }, events⟩

/-! ## Verifying a goal -/

/-- The positions that a line cites, all rows of a cited subproof included. -/
def restsOn (table : BlockTable) (proof : Proof) (index : Nat) : Trapping (List Nat) := do
  let line ← lineAt proof index
  let parts ← (proof.premiseNumbers line).mapM fun cited => do
    if ← table.isSubproofPremise cited index then table.subproofRange cited
    else return [cited]
  return parts.flatten

/-- Goes through the positions below a bound from the last to the first, adding to the derivation
what each of its lines rests on. -/
def collectBelow (table : BlockTable) (proof : Proof) : Nat → List Nat → Trapping (List Nat)
  | 0, derivation => .ok derivation
  | bound + 1, derivation => do
    if derivation.contains bound then
      let positions ← restsOn table proof bound
      collectBelow table proof bound (positions.foldr Ascending.insert derivation)
    else
      collectBelow table proof bound derivation

/-- The level-0 lines that state a sentence. -/
def statedAt (table : BlockTable) (proof : Proof) (sentence : Sentence) : Trapping (List Nat) :=
  filter (fun index => do
      if (← lookUp table.rows index).level == 0 then
        return (← lineAt proof index).sentence? == some sentence
      else return false)
    (List.range proof.lines.length)

/-- Verifies lines in order up to the first one that is not correct, which is the answer. -/
def firstIncorrect (table : BlockTable) : Proof → List Nat → Trapping (Outcome (Option Nat))
  | proof, [] => .ok ⟨none, proof, []⟩
  | proof, index :: rest => do
    let verified ← verifyLine table proof index
    if verified.answer = .correct then
      let others ← firstIncorrect table verified.proof rest
      return ⟨others.answer, others.proof, verified.events ++ others.events⟩
    else
      return ⟨some index, verified.proof, verified.events⟩

/-- Tries lines that state the goal, in order, up to the first one whose derivation is correct. -/
def reachFrom (table : BlockTable) : Proof → Option Nat → List Nat → Trapping (Outcome Verdict)
  | proof, none, [] => .ok ⟨.invalid "The goal has not been reached", proof, []⟩
  | proof, some broken, [] => do
    let number ← sum broken 1
    return ⟨.invalid ("Line " ++ toString number ++ ", used to reach the goal, is not correct"),
      proof, []⟩
  | proof, broken?, candidate :: others => do
    let derivation ← collectBelow table proof (candidate + 1) [candidate]
    let steps ← filter (fun index => do return !(← lookUp table.rows index).assumption) derivation
    let tried ← firstIncorrect table proof steps
    match tried.answer with
    | none => return ⟨.valid, tried.proof, tried.events⟩
    | some broken =>
      let last ← reachFrom table tried.proof (some (broken?.getD broken)) others
      return ⟨last.answer, last.proof, tried.events ++ last.events⟩

/-- Finds the mark of a goal. -/
def judgeGoal (table : BlockTable) (proof : Proof) (goal : Goal) : Trapping (Outcome Mark) := do
  match Sentence.read goal.text with
  | .ok none => return ⟨.blank, proof, []⟩
  | .error failure => return ⟨.malformed failure, proof, []⟩
  | .ok (some sentence) =>
    let reached ← reachFrom table proof none (← statedAt table proof sentence)
    return ⟨Proof.goalMark reached.answer, reached.proof, reached.events⟩

/-- Verifies the goal at a position. -/
def verifyGoal (table : BlockTable) (proof : Proof) (index : Nat) : Trapping (Outcome Status) := do
  let goal ← lookUp proof.goals index
  let judged ← judgeGoal table proof goal
  let (marked, events) := goal.setMark judged.answer
  return ⟨judged.answer.status,
    { judged.proof with goals := judged.proof.goals.set index marked }, judged.events ++ events⟩

/-! ## Requests -/

/-- Verifies the row that a request asks about, and gives its status and message. -/
def verifyTarget (table : BlockTable) (proof : Proof) :
    Target → Trapping (Except StructureError (Status × Option String))
  | .line index => do
    if index < proof.lines.length then
      let verified ← verifyLine table proof index
      let line ← lineAt verified.proof index
      return .ok (verified.answer, line.mark.message?)
    else return .error (.indexOutOfBounds index proof.lines.length)
  | .goal index => do
    if index < proof.goals.length then
      let verified ← verifyGoal table proof index
      let goal ← lookUp verified.proof.goals index
      return .ok (verified.answer, goal.mark.message?)
    else return .error (.indexOutOfBounds index proof.goals.length)

/-- How messages name a target. -/
def describe : Target → Trapping String
  | .line index => do return "line " ++ toString (← sum index 1)
  | .goal index => do return "goal " ++ toString (← sum index 1)

/-- Answers a request, or tells why its document or its target is refused. -/
def answer (request : CheckRequest) : Trapping (Except DocumentError Verdict) := do
  match ← load request.document with
  | .error error => return .error error
  | .ok (proof, table) =>
    match ← verifyTarget table proof request.target with
    | .error reason => return .error (.structural reason)
    | .ok (status, message?) =>
      if status = .correct then return .ok .valid
      match message? with
      | some message => return .ok (.invalid message)
      | none => return .ok (.invalid ((← describe request.target) ++ " is " ++ status.name))

/-- Answers a request, or gives the text of the error that it is refused with. -/
def reply (request : CheckRequest) : Trapping (Except String Verdict) := do
  match ← answer request with
  | .error error => return .error (← error.text)
  | .ok verdict => return .ok verdict

end NaturalDeduction.Machine
