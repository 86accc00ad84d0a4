/-
  The command `deduct`.

  Everything that a run may look at is read beforehand: the settings file, the
  proof file, the variables that the settings refer to, and standard input when
  it is to be served. The run itself is a pure function of that.
-/

import NaturalDeduction.Command.Saving

namespace NaturalDeduction.Main

/-- Tells why a file could not be read. -/
def fileError : IO.Error → FileError
  | .noFileOrDirectory .. => .notFound
  | .permissionDenied .. => .permissionDenied
  | .inappropriateType _ code _ => if code = 20 then .notADirectory else .isADirectory
  | error => .other (toString error)

/-- Reads a file. -/
def readFile (path : String) : IO (Except FileError (List UInt8)) := do
  try
    return .ok (← IO.FS.readBinFile path).data.toList
  catch error =>
    return .error (fileError error)

/-- Reads a stream to its end. -/
partial def readStream (stream : IO.FS.Stream) (before : ByteArray) : IO ByteArray := do
  let bytes ← stream.read 65536
  if bytes.isEmpty then return before else readStream stream (before ++ bytes)

/-- The file that a task works on. -/
def taskFile? : Task → Option String
  | .verify file _ => some file
  | .autoFill file _ _ => some file
  | .listRules | .serve => none

/-- The names that the checker in a settings text refers to. -/
def referredNames (content : List UInt8) : List String :=
  match (textOfFile content).toOption.bind Settings.written? with
  | some ⟨_, _, some checker⟩ =>
    (checker.command :: checker.args).flatMap fun text => Text.namesIn text.toList
  | _ => []

/-- Looks up what is given for a key. -/
def lookUp {α : Type} (given : List (String × α)) (key : String) : Option α :=
  given.lookup key

/-- Reads everything that a run may look at. -/
def observe (invocation : Invocation) : IO World := do
  let home? ← IO.getEnv "HOME"
  let paths := invocation.settings?.toList ++ (home?.map World.settingsPath).toList
    ++ (taskFile? invocation.task).toList
  let files ← paths.mapM fun path => return (path, ← readFile path)
  let names := files.flatMap fun (_, content) =>
    match content with
    | .ok bytes => referredNames bytes
    | .error _ => []
  let values ← names.mapM fun name => return (name, ← IO.getEnv name)
  let input ← match invocation.task with
    | .serve => readStream (← IO.getStdin) .empty
    | _ => pure .empty
  return {
    read := fun path => (lookUp files path).getD (.error .notFound)
    home?
    environment := fun name => (lookUp values name).join
    input := input.data.toList
    launch := fun settings bytes =>
      if settings.command = "deduct" then World.launchItself settings.args bytes
      else .notStarted (settings.command ++ " cannot be started") }

/-- A world in which there is nothing to look at. -/
def emptyWorld : World where
  read := fun _ => .error .notFound
  home? := none
  environment := fun _ => none
  input := []
  launch := fun _ _ => .silent

/-- Writes a file. -/
def writeFile (path text : String) : IO Writing := do
  try
    IO.FS.writeFile path text
    return .whole
  catch error =>
    return .refused (fileError error)

/-- Writes the file of a report, if there is one, and gives the report to print. -/
def save (report : RunReport) : IO RunReport := do
  match report.written? with
  | none => return report
  | some (path, text) => return report.saved (← writeFile path text)

end NaturalDeduction.Main

/-- Runs the command with its arguments. -/
def main (arguments : List String) : IO UInt32 := do
  let world ← match NaturalDeduction.CommandLine.ofArguments arguments with
    | .run invocation => NaturalDeduction.Main.observe invocation
    | _ => pure NaturalDeduction.Main.emptyWorld
  let report ← NaturalDeduction.Main.save (world.command arguments)
  (← IO.getStdout).write ⟨report.output.toArray⟩
  (← IO.getStderr).putStr report.errors
  return report.code.toUInt32
