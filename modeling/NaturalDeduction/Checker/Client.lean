/-
  Asking an external checker.

  A checker is a program that is started for each request, is sent one frame
  and answers with one. `Exchange` says what came of that, and `Exchange.verdict`
  what it means.
-/

import NaturalDeduction.Checker.Frame
import NaturalDeduction.Checker.Message

namespace NaturalDeduction

/-- What came of running a checker on a request. -/
inductive Exchange where
  | notStarted (reason : String)
  | silent
  | answered (output : List UInt8)
  deriving DecidableEq, Repr

namespace Exchange

/-- The bytes that a checker is sent. -/
def input (id : Nat) (request : CheckRequest) : List UInt8 :=
  Frame.write (Call.encode id request)

/-- The verdict of an exchange, given the time limit in milliseconds and the id of the call. -/
def verdict (limit id : Nat) : Exchange → Except Fault Verdict
  | notStarted reason => .error (.unavailable reason)
  | silent => .error (.timeout limit)
  | answered output =>
    match Frame.read output with
    | .error reason => .error (.transport reason.message)
    | .ok none => .error (.transport "checker exited without answering")
    | .ok (some (message, _)) => Response.verdict id message

/-- The id of the next call: an id is used up by every checker that was started. -/
def nextId (id : Nat) : Exchange → Nat
  | notStarted _ => id
  | silent | answered _ => id + 1

end Exchange

end NaturalDeduction
