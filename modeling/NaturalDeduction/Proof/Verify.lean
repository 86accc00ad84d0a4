/-
  Verifying lines and goals.

  A line is first judged by itself: blank lines and assumptions are left
  unmarked, a text that is no sentence, a missing rule and a restricted rule
  are errors. Otherwise its claim is built from the cited lines and put to the
  external checker; when there is none, or it does not answer, the claim's
  rule decides.

  A goal is reached when a line at level 0 states it and every line that this
  line rests on is correct.
-/

import NaturalDeduction.Layout.Scope
import NaturalDeduction.Proof.Basic
import NaturalDeduction.Rule.Check

namespace NaturalDeduction.Proof

/-! ## Building a claim -/

/-- What a line is found to be by itself: settled with a mark, or a claim still to be checked. -/
inductive Finding where
  | settled (mark : Mark)
  | claims (conclusion : Sentence) (rule : Rule)
  deriving DecidableEq, Repr

/-- Whether a restriction allows a rule; an empty one allows all. -/
def allows (restriction : List Rule) (rule : Rule) : Bool :=
  restriction.isEmpty || restriction.contains rule

/-- The message for a rule that the restriction does not allow. -/
def restrictedMessage (rule : Rule) : String :=
  "The Rule \"" ++ rule.displayName ++ "\" has been restricted for this proof"

/-- Judges a line by itself. -/
def examine (restriction : List Rule) (line : Line) : Finding :=
  match Sentence.read line.text with
  | .ok none => .settled .blank
  | .error failure => .settled (.malformed failure)
  | .ok (some conclusion) =>
    if line.assumption then .settled .blank
    else
      match line.rule? with
      | none => .settled (.plain .noRule "Rule Not Specified")
      | some rule =>
        if allows restriction rule then .claims conclusion rule
        else .settled (.invalid (restrictedMessage rule))

/-- The sentence at a position, or the position itself when there is none. -/
def sentenceAt (proof : Proof) (index : Nat) : Except Nat Sentence :=
  match proof.sentenceAt? index with
  | some sentence => .ok sentence
  | none => .error index

/-- The premise that a line cites by citing the line at position `cited`. -/
def premiseAt (proof : Proof) (index cited : Nat) : Except Nat Premise := do
  let sentence ← proof.sentenceAt cited
  if proof.layout.isSubproofPremise cited index then
    let conclusions ← (proof.layout.subproofConclusions cited).mapM proof.sentenceAt
    return .subproof sentence conclusions
  else
    return .line sentence

/-- The premises of a line, in the order of the cited lines, or the first position among the cited
lines and conclusions that states no sentence. -/
def premisesOf (proof : Proof) (index : Nat) (line : Line) : Except Nat (List Premise) :=
  (proof.premiseNumbers line).mapM (proof.premiseAt index)

/-- The message for a cited line that states no sentence. -/
def unreadableMessage (index : Nat) : String :=
  "The expression at line " ++ toString (index + 1) ++ " is invalid"

/-! ## Verifying a line -/

/-- The verdict of a claim's own rule. -/
def ruleVerdict (claim : Claim) : Verdict :=
  match claim.check with
  | .ok () => .valid
  | .error violation => .invalid violation.message

/-- The mark that a verdict on a line leaves. -/
def lineMark : Verdict → Mark
  | .valid => .plain .correct "Line is Correct!"
  | .invalid message => .invalid message

/-- Asks the external checker, if there is one. There is no verdict when it does not answer. -/
def consult (setting : Setting) (proof : Proof) (target : Target) : Option Verdict × Proof :=
  match setting.checker? with
  | none => (none, proof)
  | some checker =>
    let request : CheckRequest := ⟨proof.document, target⟩
    let asked := { proof with consulted := proof.consulted ++ [request] }
    match checker proof.consulted request with
    | .ok verdict => (some verdict, asked)
    | .error _ => (none, asked)

/-- Finds the mark and the claim of a line. -/
def judgeLine (setting : Setting) (proof : Proof) (index : Nat) (line : Line) :
    Mark × Option Claim × Proof :=
  match examine proof.restriction line with
  | .settled mark => (mark, none, proof)
  | .claims conclusion rule =>
    match proof.premisesOf index line with
    | .error unreadable => (.invalid (unreadableMessage unreadable), none, proof)
    | .ok premises =>
      -- The claim is kept whatever its verdict: it says what the mark was found for.
      let claim : Claim := ⟨conclusion, premises, rule⟩
      let (verdict?, asked) := consult setting proof (.line index)
      (lineMark (verdict?.getD (ruleVerdict claim)), some claim, asked)

/-- Verifies the line at a position, and gives up its pending verification. -/
def verifyLineAt (setting : Setting) (proof : Proof) (index : Nat) : Outcome Status :=
  match proof.lines[index]? with
  | none => ⟨.unmarked, proof, []⟩
  | some line =>
    let (mark, claim?, asked) := judgeLine setting proof index line
    let (settled, events) := { line with due? := none }.settle mark claim?
    ⟨mark.status, { asked with lines := asked.lines.set index settled }, events⟩

/-! ## Verifying a goal -/

/-- The positions that a line cites, all rows of a cited subproof included. -/
def restsOn (proof : Proof) (index : Nat) : List Nat :=
  match proof.lines[index]? with
  | none => []
  | some line =>
    (proof.premiseNumbers line).flatMap fun cited =>
      if proof.layout.isSubproofPremise cited index then proof.layout.subproofRange cited
      else [cited]

/-- Goes through the positions below a bound from the last to the first, adding to the derivation
what each of its lines rests on. -/
def collectBelow (proof : Proof) : Nat → List Nat → List Nat
  | 0, derivation => derivation
  | bound + 1, derivation =>
    -- What a position adds lies below it, so positions already passed stay settled.
    proof.collectBelow bound <|
      if derivation.contains bound then
        (proof.restsOn bound).foldr Ascending.insert derivation
      else derivation

/-- The positions that the derivation of a line rests on, the line itself included. A line rests
only on lines before it, so one pass from the line to the top finds them all. -/
def derivation (proof : Proof) (root : Nat) : List Nat :=
  proof.collectBelow (root + 1) [root]

/-- The level-0 lines that state a sentence. -/
def statedAt (proof : Proof) (sentence : Sentence) : List Nat :=
  (List.range proof.lines.length).filter fun index =>
    proof.layout.levelAt index == 0 && proof.sentenceAt? index == some sentence

/-- Verifies lines in order up to the first one that is not correct, which is the answer. -/
def firstIncorrect (setting : Setting) : Proof → List Nat → Outcome (Option Nat)
  | proof, [] => ⟨none, proof, []⟩
  | proof, index :: rest =>
    let verified := verifyLineAt setting proof index
    if verified.answer = .correct then
      let others := firstIncorrect setting verified.proof rest
      ⟨others.answer, others.proof, verified.events ++ others.events⟩
    else
      ⟨some index, verified.proof, verified.events⟩

/-- Tries lines that state the goal, in order, up to the first one whose derivation is correct.
Otherwise the answer names the first line that failed for the first of them. -/
def reachFrom (setting : Setting) : Proof → Option Nat → List Nat → Outcome Verdict
  | proof, none, [] => ⟨.invalid "The goal has not been reached", proof, []⟩
  | proof, some broken, [] =>
    ⟨.invalid ("Line " ++ toString (broken + 1) ++ ", used to reach the goal, is not correct"),
      proof, []⟩
  | proof, broken?, candidate :: others =>
    let steps := (proof.derivation candidate).filter fun index => !proof.layout.isAssumption index
    let tried := firstIncorrect setting proof steps
    match tried.answer with
    | none => ⟨.valid, tried.proof, tried.events⟩
    | some broken =>
      -- The first candidate's failure is the one to report.
      let last := reachFrom setting tried.proof (some (broken?.getD broken)) others
      ⟨last.answer, last.proof, tried.events ++ last.events⟩

/-- Whether the proof reaches a sentence, verifying the lines that it rests on. -/
def reach (setting : Setting) (proof : Proof) (sentence : Sentence) : Outcome Verdict :=
  reachFrom setting proof none (proof.statedAt sentence)

/-- The mark that a verdict on a goal leaves. -/
def goalMark : Verdict → Mark
  | .valid => .plain .correct "The goal has been reached"
  | .invalid message => .invalid message

/-- Finds the mark of a goal. -/
def judgeGoal (setting : Setting) (proof : Proof) (index : Nat) (goal : Goal) : Outcome Mark :=
  match Sentence.read goal.text with
  | .ok none => ⟨.blank, proof, []⟩
  | .error failure => ⟨.malformed failure, proof, []⟩
  | .ok (some sentence) =>
    match consult setting proof (.goal index) with
    | (some verdict, asked) => ⟨goalMark verdict, asked, []⟩
    | (none, asked) =>
      let reached := reach setting asked sentence
      ⟨goalMark reached.answer, reached.proof, reached.events⟩

/-- Verifies the goal at a position. -/
def verifyGoalAt (setting : Setting) (proof : Proof) (index : Nat) : Outcome Status :=
  match proof.goals[index]? with
  | none => ⟨.unmarked, proof, []⟩
  | some goal =>
    let judged := judgeGoal setting proof index goal
    let (marked, events) := goal.setMark judged.answer
    ⟨judged.answer.status,
      { judged.proof with goals := judged.proof.goals.set index marked },
      judged.events ++ events⟩

/-! ## Collecting a derivation with a stack

The positions that a line rests on are found in another way as well: those to
be looked at wait on a stack, and each turn takes one of them. A position that
was collected before is dropped; otherwise it is collected, and the lines that
it cites are put on the stack, a cited subproof with all of its rows. There is
nothing left to do when the stack is empty. -/

/-- A derivation that is being collected: the positions found so far, in order, and the stack of
those to be looked at, the next one first. -/
structure Collecting where
  collected : List Nat
  pending : List Nat
  deriving DecidableEq, Repr

/-- The positions that a line puts on the stack, in the order of the identities that it cites. -/
def pushed (proof : Proof) (index : Nat) : List Nat :=
  match proof.lines[index]? with
  | none => []
  | some line =>
    (line.premises.filterMap proof.position?).flatMap fun cited =>
      if proof.layout.isSubproofPremise cited index then proof.layout.subproofRange cited
      else [cited]

/-- One turn: takes the next position off the stack. -/
def collectNext (proof : Proof) : Collecting → Collecting
  | ⟨collected, []⟩ => ⟨collected, []⟩
  | ⟨collected, index :: pending⟩ =>
    if collected.contains index then ⟨collected, pending⟩
    else ⟨Ascending.insert index collected, (proof.pushed index).reverse ++ pending⟩

/-! ## Verifying everything -/

/-- Verifies positions in order, collecting the statuses. -/
def verifyEach (verify : Proof → Nat → Outcome Status) :
    Proof → List Nat → Outcome (List Status)
  | proof, [] => ⟨[], proof, []⟩
  | proof, index :: rest =>
    let first := verify proof index
    let others := verifyEach verify first.proof rest
    ⟨first.answer :: others.answer, others.proof, first.events ++ others.events⟩

/-- The statuses of all lines and goals. -/
structure Summary where
  lines : List Status
  goals : List Status
  deriving DecidableEq, Repr

namespace Summary

/-- Whether any line or goal is in error. -/
def hasErrors (summary : Summary) : Bool :=
  (summary.lines ++ summary.goals).any Status.isError

/-- Whether nothing is in error, and there are goals, and all are reached. -/
def isComplete (summary : Summary) : Bool :=
  !summary.hasErrors && !summary.goals.isEmpty && summary.goals.all (· == .correct)

end Summary

/-- Verifies every line in order, then every goal. -/
def verifyAll (setting : Setting) (proof : Proof) : Outcome Summary :=
  let lines := verifyEach (verifyLineAt setting) proof (List.range proof.lines.length)
  let goals := verifyEach (verifyGoalAt setting) lines.proof (List.range lines.proof.goals.length)
  ⟨⟨lines.answer, goals.answer⟩, goals.proof, lines.events ++ goals.events⟩

end NaturalDeduction.Proof
