/-
  Proof documents.

  A document is what an editor saves and what a checker is sent: the lines and
  goals of a proof as texts, with premises given by line number. `validate`
  says which documents describe a proof.
-/

import NaturalDeduction.Layout.Scope
import NaturalDeduction.Rule.Basic

namespace NaturalDeduction

/-- One line of a document. -/
structure LineRecord where
  text : String
  assumption : Bool
  depth : Nat
  premises : List Nat
  rule? : Option Rule
  deriving DecidableEq, Repr

/-- A saved proof. The restriction lists the rules that the proof may use, in catalog order; an
empty one allows every rule. -/
structure Document where
  version : Nat
  restriction : List Rule
  lines : List LineRecord
  goals : List String
  deriving DecidableEq, Repr

/-- Why a document is not a proof. -/
inductive DocumentError where
  | unsupportedVersion (version : Nat)
  | badPremise (line premise : Nat)
  | assumptionWithPremises (line : Nat)
  | structural (reason : StructureError)
  deriving DecidableEq, Repr

namespace DocumentError

/-- The wording of each reason, given how rows are numbered. -/
def wording (number : Nat → Nat) : DocumentError → String
  | unsupportedVersion version => "unsupported proof document version " ++ toString version
  | badPremise line premise =>
    "line " ++ toString (number line) ++ " cites line " ++ toString (number premise)
      ++ ", which is not accessible from it"
  | assumptionWithPremises line =>
    "line " ++ toString (number line) ++ " cites premises but is an assumption"
  | structural reason => reason.wording number

/-- The rows whose numbers the wording shows. -/
def rows : DocumentError → List Nat
  | unsupportedVersion _ => []
  | badPremise line premise => [line, premise]
  | assumptionWithPremises line => [line]
  | structural reason => reason.rows

/-- The text of a reason. A premise is the one row in it that may be no line of the document. -/
def text (reason : DocumentError) : Trapping String :=
  .numbered reason.rows reason.wording

end DocumentError

namespace Document

/-- The version of the documents described here. -/
def currentVersion : Nat := 1

/-- The rows of the lines. -/
def layout (document : Document) : Layout :=
  document.lines.map fun record => ⟨record.depth, record.assumption⟩

/-- What is wrong with the premises of the record at line `line`, if anything. -/
def premiseError? (layout : Layout) (line : Nat) (record : LineRecord) : Option DocumentError :=
  if record.assumption && !record.premises.isEmpty then
    some (.assumptionWithPremises line)
  else
    (record.premises.find? fun premise => !layout.isAccessible premise line).map (.badPremise line)

/-- The first error among the premises of the records, the first of which is at line `line`. -/
def firstPremiseError? (layout : Layout) : Nat → List LineRecord → Option DocumentError
  | _, [] => none
  | line, record :: records =>
    (premiseError? layout line record).or (firstPremiseError? layout (line + 1) records)

/-- Accepts a document of the current version that is well nested and whose lines cite only what
they may cite. -/
def validate (document : Document) : Except DocumentError Unit := do
  if document.version ≠ currentVersion then .error (.unsupportedVersion document.version)
  document.layout.validate.mapError .structural
  match firstPremiseError? document.layout 0 document.lines with
  | some error => .error error
  | none => .ok ()

end Document

end NaturalDeduction
