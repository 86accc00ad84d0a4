/-
  Why a file cannot be read or written.
-/

import NaturalDeduction.Text.Utf8

namespace NaturalDeduction

/-- The reasons that are told apart. -/
inductive FileError where
  | notFound
  | permissionDenied
  | notADirectory
  | isADirectory
  | notText
  | other (reason : String)
  deriving DecidableEq, Repr

namespace FileError

/-- The wording of each reason. -/
def message : FileError → String
  | notFound => "No such file or directory (os error 2)"
  | permissionDenied => "Permission denied (os error 13)"
  | notADirectory => "Not a directory (os error 20)"
  | isADirectory => "Is a directory (os error 21)"
  | notText => "stream did not contain valid UTF-8"
  | other reason => reason

end FileError

/-- The text of a file with the given content. -/
def textOfFile (content : List UInt8) : Except FileError String :=
  match Text.Utf8.decode? content with
  | some text => .ok text
  | none => .error .notText

end NaturalDeduction
