/-
  What a line or a goal shows.

  A mark is the result of the last verification: a status, a message and, for
  a text that is no sentence, the span to highlight. Any relevant edit puts
  the blank mark back.
-/

import NaturalDeduction.Sentence.Failure

namespace NaturalDeduction

/-- The state of verification. A line is unmarked when it was not verified since the last edit
that concerns it, and when it is blank or an assumption. -/
inductive Status where
  | unmarked
  | invalidExpression
  | noRule
  | invalidClaim
  | correct
  deriving DecidableEq, Repr, Inhabited

namespace Status

/-- The name of a status. -/
def name : Status → String
  | unmarked => "none"
  | invalidExpression => "invalid_expression"
  | noRule => "no_rule"
  | invalidClaim => "invalid_claim"
  | correct => "correct"

/-- Whether the status is a problem to be solved. -/
def isError : Status → Bool
  | invalidExpression | noRule | invalidClaim => true
  | unmarked | correct => false

end Status

/-- A status with its message and its highlight. -/
structure Mark where
  status : Status
  message? : Option String
  range? : Option Span
  deriving DecidableEq, Repr

namespace Mark

/-- The mark of a row that is not verified. -/
def blank : Mark := ⟨.unmarked, none, none⟩

/-- A mark without a highlight. -/
def plain (status : Status) (message : String) : Mark := ⟨status, some message, none⟩

/-- The mark of a claim that does not hold. -/
def invalid (message : String) : Mark := plain .invalidClaim message

/-- The mark of a text that is no sentence. -/
def malformed (failure : ParseFailure) : Mark :=
  ⟨.invalidExpression, some failure.message, failure.span⟩

end Mark

end NaturalDeduction
