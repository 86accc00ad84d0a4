/-
  Claims: a conclusion, the premises cited for it and the rule that is said to
  license it.

  A premise is the sentence of a cited line, or a cited subproof, which counts
  through its assumption and the conclusions drawn at its own level.
-/

import NaturalDeduction.Rule.Basic
import NaturalDeduction.Sentence.Printer

namespace NaturalDeduction

/-- What a claim cites. -/
inductive Premise where
  | line (sentence : Sentence)
  | subproof (assumption : Sentence) (conclusions : List Sentence)
  deriving DecidableEq, Repr

namespace Premise

/-- The sentence of the cited line, which for a subproof is its assumption. -/
def sentence : Premise → Sentence
  | line sentence => sentence
  | subproof assumption _ => assumption

/-- The sentence of a premise that is a single line. -/
def line? : Premise → Option Sentence
  | line sentence => some sentence
  | subproof .. => none

/-- The assumption and the conclusions of a premise that is a subproof. -/
def subproof? : Premise → Option (Sentence × List Sentence)
  | line _ => none
  | subproof assumption conclusions => some (assumption, conclusions)

/-- The sentences of the single lines among the premises. -/
def lines (premises : List Premise) : List Sentence :=
  premises.filterMap line?

/-- The subproofs among the premises. -/
def subproofs (premises : List Premise) : List (Sentence × List Sentence) :=
  premises.filterMap subproof?

end Premise

/-- A conclusion with its justification. -/
structure Claim where
  conclusion : Sentence
  premises : List Premise
  rule : Rule
  deriving DecidableEq, Repr

end NaturalDeduction
