/-
  Documents as JSON.

  A document is written with its fields in a fixed order, and read from
  records with those fields; only its version and the texts of its lines must
  be given. `Document.ofText` reads a text and accepts the document in it if
  it describes a proof.
-/

import NaturalDeduction.Document.Basic
import NaturalDeduction.Json.Decode
import NaturalDeduction.Json.Printer
import NaturalDeduction.Word.Trap

namespace NaturalDeduction

/-! ## Rules -/

namespace Rule

/-- A rule is written as its identifier. -/
def encode (rule : Rule) : Json := .string rule.identifier

/-- The rule with an identifier. -/
def ofIdentifier (name : String) : Json.Decoded Rule :=
  match ofIdentifier? name with
  | some rule => .ok rule
  | none => .error (.expected "a rule")

/-- Reads an identifier, which may also be the only key of an object with the value `null`. -/
def decode : Json → Json.Decoded Rule
  | .string name => ofIdentifier name
  | .object [(name, .null)] => ofIdentifier name
  | _ => .error (.expected "a rule")

end Rule

/-! ## Lines -/

namespace LineRecord

/-- Writes a line. -/
def encode (record : LineRecord) : Json :=
  .object [("text", .string record.text), ("assumption", .bool record.assumption),
    ("depth", .natural record.depth), ("premises", .array (record.premises.map Json.natural)),
    ("rule", (record.rule?.map Rule.encode).getD .null)]

/-- Reads a line. -/
def decode (json : Json) : Json.Decoded LineRecord := do
  let fields ← json.asRecord ["text", "assumption", "depth", "premises", "rule"]
  let text ← fields.required "text" Json.asText
  let assumption ← fields.optional "assumption" false Json.asBool
  let depth ← fields.optional "depth" 0 (Json.asNatural (Word.limit 64))
  let premises ← fields.optional "premises" [] (Json.asList (Json.asNatural (Word.limit 64)))
  let rule? ← fields.optional "rule" none (Json.asOption Rule.decode)
  return { text, assumption, depth, premises, rule? }

end LineRecord

/-! ## Documents -/

/-- Why a text is not the document of a proof. -/
inductive LoadError where
  | malformed (reason : Json.DecodeError)
  | invalid (reason : DocumentError)
  deriving DecidableEq, Repr

/-- The text of a reason. -/
def LoadError.text : LoadError → Trapping String
  | malformed reason => .ok ("malformed proof document: " ++ reason.message)
  | invalid reason => reason.text

namespace Document

/-- Writes a document. -/
def encode (document : Document) : Json :=
  .object [("version", .natural document.version),
    ("restricted_rules", .array (document.restriction.map Rule.encode)),
    ("lines", .array (document.lines.map LineRecord.encode)),
    ("goals", .array (document.goals.map Json.string))]

/-- Reads a document. -/
def decode (json : Json) : Json.Decoded Document := do
  let fields ← json.asRecord ["version", "restricted_rules", "lines", "goals"]
  let version ← fields.required "version" (Json.asNatural (Word.limit 32))
  let restriction ← fields.optional "restricted_rules" [] (Json.asList Rule.decode)
  let lines ← fields.optional "lines" [] (Json.asList LineRecord.decode)
  let goals ← fields.optional "goals" [] (Json.asList Json.asText)
  return { version, restriction := Rule.setOf restriction, lines, goals }

/-- The text of a document. -/
def toText (document : Document) : String :=
  document.encode.renderPretty

/-- Reads the document of a proof. -/
def ofText (text : String) : Except LoadError Document := do
  let document ← (Json.decodeText decode text).mapError .malformed
  document.validate.mapError .invalid
  return document

end Document

end NaturalDeduction
