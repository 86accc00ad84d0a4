/-
  Settings.

  Settings say how long an edited line waits for its verification, which rules
  proofs are restricted to, and which external checker is asked.
-/

import NaturalDeduction.File.Failure
import NaturalDeduction.Rule.Basic
import NaturalDeduction.Text.Expansion

namespace NaturalDeduction

/-- How an external checker is run: a command with its arguments, and the milliseconds it has for
an answer. -/
structure CheckerSettings where
  command : String
  args : List String := []
  timeout : Nat := 2000
  deriving DecidableEq, Repr

/-- The checker with the references to variables expanded in its command and arguments. -/
def CheckerSettings.expand (environment : Environment) (checker : CheckerSettings) :
    CheckerSettings :=
  { checker with
    command := Text.expand environment checker.command
    args := checker.args.map (Text.expand environment) }

/-- The settings. The debounce period is in milliseconds, and an empty restriction allows every
rule. -/
structure Settings where
  debounce : Nat := 1000
  restriction : List Rule := []
  checker? : Option CheckerSettings := none
  deriving DecidableEq, Repr

/-- Why settings cannot be loaded; each reason names the file. -/
inductive SettingsError where
  | unreadable (path : String) (reason : FileError)
  | malformed (path : String)
  | unknownRule (path : String) (unknown : Rule.UnknownName)
  deriving DecidableEq, Repr

namespace SettingsError

/-- The cause behind an error. -/
def cause : SettingsError → String
  | unreadable _ reason => reason.message
  | malformed _ => "not a settings document"
  | unknownRule _ unknown => unknown.message

/-- The wording of each reason. -/
def message : SettingsError → String
  | unreadable path reason => "failed to read " ++ path ++ ": " ++ reason.message
  | malformed path => "failed to parse " ++ path ++ ": " ++ cause (malformed path)
  | unknownRule path unknown => unknown.message ++ " in [rules] of " ++ path

end SettingsError

end NaturalDeduction
