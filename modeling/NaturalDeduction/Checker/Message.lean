/-
  The messages between a proof and its checker.

  Both sides exchange JSON-RPC messages: a call of the one method there is, and
  a response, which carries a result or an error. An error about the parameters
  means that the proof was read and refused, so it is a verdict; any other
  error means that the two sides do not understand each other.
-/

import NaturalDeduction.Checker.Request
import NaturalDeduction.Word.Trap

namespace NaturalDeduction

/-- The method that asks for a verdict. -/
def checkMethod : String := "check"

/-- The protocol version that messages name. -/
def protocolVersion : String := "2.0"

/-! ## Calls -/

/-- A call as it arrives, before its parameters are looked at. -/
structure Call where
  id : Json
  method : String
  params : Json
  deriving Repr

namespace Call

/-- Writes the call that puts a request. -/
def encode (id : Nat) (request : CheckRequest) : Json :=
  .object [("jsonrpc", .string protocolVersion), ("id", .natural id),
    ("method", .string checkMethod), ("params", request.encode)]

/-- Reads a call; one without an id or parameters has `null` for them. -/
def decode (json : Json) : Json.Decoded Call := do
  let fields ← json.asRecord ["id", "method", "params"]
  let id ← fields.optional "id" .null .ok
  let method ← fields.required "method" Json.asText
  let params ← fields.optional "params" .null .ok
  return { id, method, params }

end Call

/-! ## Responses -/

/-- What a response says about the call it answers. -/
inductive ResponseBody where
  | result (verdict : Verdict)
  | error (code : Int) (message : String)
  deriving DecidableEq, Repr

/-- A response with the id of the call it answers. -/
structure Response where
  id : Json
  body : ResponseBody
  deriving Repr

namespace Response

/-- The code for a message that is no call. -/
def notACall : Int := -32600

/-- The code for a method that there is not. -/
def unknownMethod : Int := -32601

/-- The code for parameters that are no request, and for a request that is refused. -/
def refused : Int := -32602

/-- Writes a verdict. -/
def encodeVerdict : Verdict → Json
  | .valid => .object [("valid", .bool true)]
  | .invalid message => .object [("valid", .bool false), ("message", .string message)]

/-- Writes a response. -/
def encode (response : Response) : Json :=
  let body := match response.body with
    | .result verdict => ("result", encodeVerdict verdict)
    | .error code message =>
      ("error", .object [("code", .integer code), ("message", .string message)])
  .object [("jsonrpc", .string protocolVersion), ("id", response.id), body]

/-! ### Reading responses -/

/-- The message of a verdict that came without one. -/
def defaultMessage : String := "The external checker rejected this claim"

/-- Reads a verdict; the message of a valid one is not looked at. -/
def decodeVerdict (json : Json) : Json.Decoded Verdict := do
  let fields ← json.asRecord ["valid", "message"]
  let isValid ← fields.required "valid" Json.asBool
  let message? ← fields.optional "message" none (Json.asOption Json.asText)
  return if isValid then .valid else .invalid (message?.getD defaultMessage)

/-- The 64-bit number that a value is. -/
def decodeCode : Json → Json.Decoded Int
  | .number (.natural n) =>
    if n < Word.limit 63 then .ok n else .error (.expected "a smaller number")
  | .number (.negative n) =>
    if n ≤ Word.limit 63 then .ok (-n) else .error (.expected "a greater number")
  | _ => .error (.expected "a whole number")

/-- Reads the error of a response. -/
def decodeError (json : Json) : Json.Decoded (Int × String) := do
  let fields ← json.asRecord ["code", "message"]
  return (← fields.required "code" decodeCode, ← fields.required "message" Json.asText)

/-- Reads the id of a response, and its result and its error as far as they are given. -/
def decodeParts (json : Json) :
    Json.Decoded (Json × Option Verdict × Option (Int × String)) := do
  let fields ← json.asRecord ["jsonrpc", "id", "result", "error"]
  let _ ← fields.optional "jsonrpc" none (Json.asOption Json.asText)
  let id ← fields.optional "id" .null .ok
  let result? ← fields.optional "result" none (Json.asOption decodeVerdict)
  let error? ← fields.optional "error" none (Json.asOption decodeError)
  return (id, result?, error?)

/-- Whether a value is the id of a call. -/
def isId (id : Nat) : Json → Bool
  | .number (.natural n) => n == id
  | _ => false

/-- The verdict that the response to a call brings. An error counts before a result. -/
def verdict (id : Nat) (json : Json) : Except Fault Verdict :=
  match decodeParts json with
  | .error reason => .error (.unreadable ("not a check response: " ++ reason.message))
  | .ok (other, result?, error?) =>
    if isId id other then
      match error?, result? with
      | some (code, message), _ =>
        if code = refused then .ok (.invalid ("The checker rejected this proof: " ++ message))
        else .error (.rejected code message)
      | none, some verdict => .ok verdict
      | none, none => .error (.unreadable "response carries neither result nor error")
    else
      .error (.unreadable
        ("response id " ++ other.render ++ " does not match request id " ++ toString id))

end Response

end NaturalDeduction
