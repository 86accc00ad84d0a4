/-
  Asking about a line or a goal.

  A request holds a proof document and says which of its rows is asked about.
  The answer is a verdict; an external checker may also fail to answer, which
  is a fault and not a verdict.
-/

import NaturalDeduction.Document.Basic

namespace NaturalDeduction

/-- The row that is asked about, counted from 0. -/
inductive Target where
  | line (index : Nat)
  | goal (index : Nat)
  deriving DecidableEq, Repr

/-- How messages name a target, counting from 1. -/
def Target.describe : Target → String
  | line index => "line " ++ toString (index + 1)
  | goal index => "goal " ++ toString (index + 1)

/-- A document and the row of it that is asked about. -/
structure CheckRequest where
  document : Document
  target : Target
  deriving DecidableEq, Repr

/-- The answer to a request. -/
inductive Verdict where
  | valid
  | invalid (message : String)
  deriving DecidableEq, Repr

/-- Why a checker gave no answer. -/
inductive Fault where
  | unavailable (reason : String)
  | timeout (milliseconds : Nat)
  | transport (reason : String)
  | unreadable (reason : String)
  | rejected (code : Int) (message : String)
  deriving DecidableEq, Repr

namespace Fault

/-- The digits of a fraction of `width` places without the zeros at its end. -/
def fractionDigits (width value : Nat) : List Char :=
  let digits := (toString value).toList
  ((List.replicate (width - digits.length) '0' ++ digits).reverse.dropWhile (· == '0')).reverse

/-- A time span in the largest unit in which it is at least one. -/
def describeDuration (milliseconds : Nat) : String :=
  if milliseconds = 0 then "0ns"
  else if milliseconds < 1000 then toString milliseconds ++ "ms"
  else
    match fractionDigits 3 (milliseconds % 1000) with
    | [] => toString (milliseconds / 1000) ++ "s"
    | digits => toString (milliseconds / 1000) ++ "." ++ String.ofList digits ++ "s"

/-- The wording of each fault. -/
def message : Fault → String
  | unavailable reason => "checker unavailable: " ++ reason
  | timeout milliseconds => "checker did not answer within " ++ describeDuration milliseconds
  | transport reason => "checker transport failed: " ++ reason
  | unreadable reason => "checker sent an unreadable response: " ++ reason
  | rejected code message =>
    "checker rejected the request (" ++ toString code ++ "): " ++ message

end Fault

/-- An external checker. Its answer may depend on the requests it was sent before, oldest first. -/
abbrev ExternalChecker := List CheckRequest → CheckRequest → Except Fault Verdict

end NaturalDeduction
