/-
  The check server.

  The server answers every frame of its input with one response, in order,
  until the input ends or no further frame can be read. A request is answered
  with the rules alone: its document is loaded as a proof, the row is verified
  without an external checker, and a correct row is valid. Any other row is
  invalid, with its message, or with its status when it has none.

  The server is a computation on machine words, so it may also trap over a
  frame. Then it is gone: what it wrote before stays written, and nothing
  follows.
-/

import NaturalDeduction.Checker.Frame
import NaturalDeduction.Checker.Machine
import NaturalDeduction.Checker.Message

namespace NaturalDeduction

/-! ## Requests -/

namespace CheckRequest

/-- Verifies the row that the request asks about. -/
def verifyTarget (proof : Proof) : Target → Proof.Attempt (Outcome Status)
  | .line index => proof.verifyLine {} index
  | .goal index => proof.verifyGoal {} index

/-- The mark of the row that the request asks about. -/
def markAt? (proof : Proof) : Target → Option Mark
  | .line index => (proof.lineView? index).map LineView.mark
  | .goal index => (proof.goalView? index).map GoalView.mark

/-- The answer to the request, or why its document or its target is refused. -/
def answer (request : CheckRequest) : Except DocumentError Verdict := do
  let proof ← Proof.ofDocument request.document
  let verified ← (verifyTarget proof request.target).mapError .structural
  if verified.answer = .correct then return .valid
  match (markAt? verified.proof request.target).bind Mark.message? with
  | some message => return .invalid message
  | none => return .invalid (request.target.describe ++ " is " ++ verified.answer.name)

end CheckRequest

namespace Server

/-! ## Single messages -/

/-- The body of the response to a request. -/
def answerRequest (request : CheckRequest) : Trapping ResponseBody := do
  match ← Machine.reply request with
  | .error text => return .error Response.refused text
  | .ok verdict => return .result verdict

/-- Answers the parameters of a call. -/
def answerParams (params : Json) : Trapping ResponseBody :=
  match CheckRequest.decode params with
  | .error reason => .ok (.error Response.refused reason.message)
  | .ok request => answerRequest request

/-- Answers a message. -/
def respond (message : Json) : Trapping Response :=
  match Call.decode message with
  | .error reason => .ok ⟨.null, .error Response.notACall reason.message⟩
  | .ok call =>
    if call.method = checkMethod then return ⟨call.id, ← answerParams call.params⟩
    else
      return ⟨call.id, .error Response.unknownMethod ("unknown method '" ++ call.method ++ "'")⟩

/-! ## Whole inputs -/

/-- How the server ends: where its input is at an end, where no frame can be read, or where it
traps. -/
inductive Ending where
  | closed
  | unreadable (reason : FrameError)
  | trapped (trap : Trap)
  deriving DecidableEq, Repr

/-- The end of a server that has answered every frame, given the error that ended the input
early. -/
def Ending.ofReading : Option FrameError → Ending
  | none => closed
  | some reason => unreadable reason

/-- Answers messages one after the other, up to the first one that it traps over. -/
def respondEach : List Json → List Response × Option Trap
  | [] => ([], none)
  | message :: messages =>
    match respond message with
    | .error trap => ([], some trap)
    | .ok response =>
      let (responses, trap?) := respondEach messages
      (response :: responses, trap?)

/-- What the server did with an input: its responses, and how it ended. -/
structure Session where
  responses : List Response
  ending : Ending
  deriving Repr

/-- The bytes that the server wrote. -/
def Session.output (session : Session) : List UInt8 :=
  session.responses.flatMap fun response => Frame.write response.encode

/-- Serves an input. -/
def serve (input : List UInt8) : Session :=
  let (messages, error?) := Frame.readAll input
  let (responses, trap?) := respondEach messages
  ⟨responses, (trap?.map Ending.trapped).getD (.ofReading error?)⟩

end Server

end NaturalDeduction
