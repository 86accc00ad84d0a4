/-
  Saving the file of a run.

  A run that has a file to write writes it after everything else was done, by
  replacing its whole content. A file that cannot be opened stays as it is; one
  that was opened is emptied first, so when writing fails later on it holds the
  beginning of the new content.
-/

import NaturalDeduction.Command.Run

namespace NaturalDeduction

/-- What comes of writing a file: all of it is written, none of it, or only so many bytes. -/
inductive Writing where
  | whole
  | refused (reason : FileError)
  | cutShort (count : Nat) (reason : FileError)
  deriving DecidableEq, Repr

namespace Writing

/-- Why the file could not be written, if it could not. -/
def failure? : Writing → Option FileError
  | whole => none
  | refused reason | cutShort _ reason => some reason

/-- What the file holds afterwards, unless it was not opened. -/
def content? (bytes : List UInt8) : Writing → Option (List UInt8)
  | whole => some bytes
  | refused _ => none
  | cutShort count _ => some (bytes.take count)

end Writing

/-- The report of a run after its file was written, or could not be written. -/
def RunReport.saved (report : RunReport) (writing : Writing) : RunReport :=
  match report.written?, writing.failure? with
  | some (path, _), some reason => .failure ("writing " ++ path ++ ": " ++ reason.message)
  | _, _ => report

namespace World

/-- The world with another content in the file at a path. -/
def holding (world : World) (path : String) (content : List UInt8) : World :=
  { world with read := fun other => if other = path then .ok content else world.read other }

/-- The world after the file of a run, if it has one, was written. -/
def saved (world : World) (report : RunReport) (writing : Writing) : World :=
  match report.written? with
  | none => world
  | some (path, text) =>
    match writing.content? (Text.Utf8.encode text) with
    | some content => world.holding path content
    | none => world

end World

end NaturalDeduction
