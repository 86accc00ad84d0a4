/-
  Requests as JSON.

  A request is a record of the document and its target. A target is an object
  with one member, named after the kind of row.
-/

import NaturalDeduction.Checker.Verdict
import NaturalDeduction.Document.Encoding

namespace NaturalDeduction

namespace Target

/-- Writes a target. -/
def encode : Target → Json
  | line index => .object [("line", .natural index)]
  | goal index => .object [("goal", .natural index)]

/-- Reads a target. -/
def decode : Json → Json.Decoded Target
  | .object [(kind, index)] =>
    if kind = "line" then line <$> index.asNatural (Word.limit 64)
    else if kind = "goal" then goal <$> index.asNatural (Word.limit 64)
    else .error (.expected "a line or a goal")
  | _ => .error (.expected "a target")

end Target

namespace CheckRequest

/-- Writes a request. -/
def encode (request : CheckRequest) : Json :=
  .object [("proof", request.document.encode), ("target", request.target.encode)]

/-- Reads a request. -/
def decode (json : Json) : Json.Decoded CheckRequest := do
  let fields ← json.asRecord ["proof", "target"]
  let document ← fields.required "proof" Document.decode
  let target ← fields.required "target" Target.decode
  return { document, target }

end CheckRequest

end NaturalDeduction
