/-
  Carrying out a task.

  A run reads files, looks variables up and starts checkers only through its
  `World`, and what it does to the world is in its `Report`: what it prints,
  its exit code, and the file that it writes, if any. A run that traps ends
  there; what the system says about the trap is not part of the report.
-/

import NaturalDeduction.Checker.Client
import NaturalDeduction.Checker.Server
import NaturalDeduction.Command.Invocation
import NaturalDeduction.Proof.Operation
import NaturalDeduction.Proof.View
import NaturalDeduction.Report
import NaturalDeduction.Settings.Document

namespace NaturalDeduction

/-- What a run can see: files by their paths, variables, what arrives on standard input, and what
comes of starting a checker and sending it bytes. -/
structure World where
  read : String → Except FileError (List UInt8)
  home? : Option String
  environment : Environment
  input : List UInt8
  launch : CheckerSettings → List UInt8 → Exchange

/-- What a run does, and what it trapped over, if it did. -/
structure RunReport where
  code : Nat
  output : List UInt8 := []
  errors : String := ""
  written? : Option (String × String) := none
  trap? : Option Trap := none
  deriving DecidableEq, Repr

/-- What comes of a task that may fail. The text of a failure is written at the very end, and may
trap then. -/
abbrev Failing := Except (Trapping String)

namespace RunReport

/-- The exit code when a row is in error or there was nothing to do. -/
def problemCode : Nat := 1

/-- The exit code when the task could not be carried out. -/
def failureCode : Nat := 2

/-- The report of a run that prints a text. -/
def printing (text : String) (succeeded : Bool) : RunReport where
  code := if succeeded then 0 else problemCode
  output := Text.Utf8.encode text

/-- The exit code of a run that traps. -/
def trapCode : Nat := 101

/-- The report of a run that cannot be carried out. -/
def failure (message : String) : RunReport where
  code := failureCode
  errors := "Error: " ++ message ++ "\n"

/-- The report of a run that traps. -/
def trapped (trap : Trap) : RunReport where
  code := trapCode
  trap? := some trap

/-- The report of a run that fails with a text. -/
def failing : Trapping String → RunReport
  | .ok message => failure message
  | .error trap => trapped trap

end RunReport

namespace World

/-! ## Loading -/

/-- The path of the settings file in a home directory. -/
def settingsPath (home : String) : String :=
  home ++ "/.deduct/config.toml"

/-- Whether there is a file or a directory at a path. -/
def isThere (world : World) (path : String) : Bool :=
  match world.read path with
  | .error .notFound | .error .notADirectory => false
  | _ => true

/-- The settings file to use: the one that is named, or else the one in the home directory, if it
is there. -/
def settingsFile? (world : World) (named? : Option String) : Option String :=
  named?.or ((world.home?.map settingsPath).filter world.isThere)

/-- What a run prints about settings that cannot be loaded: the error and the cause behind it. -/
def describe (error : SettingsError) : String :=
  error.message ++ ": " ++ error.cause

/-- Loads the settings; without a file all of them have their defaults. -/
def loadSettings (world : World) (named? : Option String) : Except String Settings :=
  match world.settingsFile? named? with
  | none => .ok {}
  | some path => (Settings.ofFile world.environment path (world.read path)).mapError describe

/-- The external checker of the settings. Every request is a call with the next id. -/
def checker (world : World) (settings : CheckerSettings) : ExternalChecker := fun earlier request =>
  let id := earlier.length + 1
  (world.launch settings (Exchange.input id request)).verdict settings.timeout id

/-- What proofs work with under the settings. -/
def setting (world : World) (settings : Settings) : Setting where
  checker? := settings.checker?.map world.checker
  debounce? := some settings.debounce

/-- Loads a proof. A restriction in its document counts before the one in the settings. -/
def loadProof (world : World) (settings : Settings) (file : String) : Failing Proof := do
  let text ← ((world.read file).bind textOfFile).mapError
    fun reason => .ok ("reading " ++ file ++ ": " ++ reason.message)
  let proof ← (Proof.ofText text).mapError
    fun reason => reason.text.map ("loading " ++ file ++ ": " ++ ·)
  return if proof.restriction.isEmpty && !settings.restriction.isEmpty then
    (proof.restrict settings.restriction).proof
  else proof

/-! ## Verifying -/

/-- The index of the row with a number, which counts from 1. -/
def indexOf (kind : String) (number count : Nat) : Failing Nat :=
  if 0 < number && number ≤ count then .ok (number - 1)
  else
    .error <| .ok <|
      kind ++ " " ++ toString number ++ " does not exist; the proof has " ++ toString count

/-- The texts as lines. -/
def asLines (texts : List String) : String :=
  String.join (texts.map (· ++ "\n"))

/-- Verifies a line and shows it. -/
def verifyLine (setting : Setting) (proof : Proof) (number : Nat) : Failing RunReport := do
  let index ← indexOf "line" number proof.lines.length
  let verified ← (proof.verifyLine setting index).mapError StructureError.text
  let row := (verified.proof.lineView? index).map Report.lineRow
  return .printing (asLines row.toList) !verified.answer.isError

/-- Verifies a goal and shows it. -/
def verifyGoal (setting : Setting) (proof : Proof) (number : Nat) : Failing RunReport := do
  let index ← indexOf "goal" number proof.goals.length
  let verified ← (proof.verifyGoal setting index).mapError StructureError.text
  let row := (verified.proof.goalView? index).map Report.goalRow
  return .printing (asLines row.toList) !verified.answer.isError

/-- Verifies everything and shows it. -/
def verifyAll (setting : Setting) (proof : Proof) : RunReport :=
  let verified := proof.verifyAll setting
  let ending := if verified.answer.isComplete then ["Proof complete."] else []
  .printing (asLines (Report.rows verified.proof.snapshot ++ ending)) !verified.answer.hasErrors

/-- Verifies what the focus names, or everything. -/
def verify (setting : Setting) (proof : Proof) : Option Focus → Failing RunReport
  | some (.line number) => verifyLine setting proof number
  | some (.goal number) => verifyGoal setting proof number
  | none => .ok (verifyAll setting proof)

/-! ## Filling in -/

/-- Fills a suggested conclusion into a line. The proof is printed, or else saved, and then the
line is shown. -/
def autoFill (setting : Setting) (proof : Proof) (file : String) (number : Nat) (write : Bool) :
    Failing RunReport := do
  let index ← indexOf "line" number proof.lines.length
  let filled ← (proof.autoFill setting index).mapError StructureError.text
  if filled.answer.isNone then
    return {
      code := RunReport.problemCode
      errors := "line " ++ toString number ++ " cannot be auto-filled\n" }
  let text := filled.proof.toText ++ "\n"
  if write then
    let row := (filled.proof.lineView? index).map Report.lineRow
    return { RunReport.printing (asLines row.toList) true with written? := some (file, text) }
  else
    return .printing text true

/-! ## Running -/

/-- Serves standard input. -/
def serve (input : List UInt8) : RunReport :=
  let session := Server.serve input
  match session.ending with
  | .closed => { code := 0, output := session.output }
  | .unreadable reason => { RunReport.failure reason.message with output := session.output }
  | .trapped trap => { RunReport.trapped trap with output := session.output }

/-- Carries out a task on a proof file. -/
def onProof (world : World) (settings? : Option String) (file : String)
    (task : Setting → Proof → Failing RunReport) : RunReport :=
  let report : Failing RunReport := do
    let settings ← (world.loadSettings settings?).mapError .ok
    let proof ← world.loadProof settings file
    task (world.setting settings) proof
  match report with
  | .ok report => report
  | .error text => .failing text

/-- Carries out an invocation. -/
def run (world : World) (invocation : Invocation) : RunReport :=
  match invocation.task with
  | .listRules => .printing Report.catalog true
  | .serve => serve world.input
  | .verify file focus? =>
    world.onProof invocation.settings? file fun setting proof => verify setting proof focus?
  | .autoFill file line write =>
    world.onProof invocation.settings? file fun setting proof =>
      autoFill setting proof file line write

/-! ## Whole commands -/

/-- How the command is used. -/
def synopsis : String :=
  asLines ["Usage: deduct [--config PATH] verify FILE [--line N | --goal N]",
    "       deduct [--config PATH] autofill FILE --line N [--write]",
    "       deduct rules",
    "       deduct check-server"]

/-- The version of the command. -/
def version : String := "deduct 0.0.0"

/-- Carries out what the arguments ask for. -/
def command (world : World) (arguments : List String) : RunReport :=
  match CommandLine.ofArguments arguments with
  | .run invocation => world.run invocation
  | .help => .printing synopsis true
  | .version => .printing (asLines [version]) true
  | .misuse => { code := RunReport.failureCode, errors := synopsis }

/-- Starts the command itself as a checker. Anything but its server says nothing that is an
answer, and a server that traps says no more than it wrote before. -/
def launchItself (arguments : List String) (input : List UInt8) : Exchange :=
  match CommandLine.ofArguments arguments with
  | .run ⟨_, .serve⟩ => .answered (Server.serve input).output
  | _ => .answered []

end World

end NaturalDeduction
