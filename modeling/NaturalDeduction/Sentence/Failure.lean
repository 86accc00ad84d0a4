/-
  Why a text is not a sentence.

  A failure is a cause together with the span of the text to highlight. The
  span is missing only when the text is blank and a sentence is required.
-/

import NaturalDeduction.Text.Span

namespace NaturalDeduction

/-! ## The kinds of tokens -/

/-- What a token stands for, whatever its spelling. -/
inductive Symbol where
  | word (name : String)
  | openParen
  | closeParen
  | comma
  | not
  | and
  | or
  | implies
  | iff
  | forAll
  | thereExists
  | falsum
  | verum
  deriving DecidableEq, Repr

namespace Symbol

/-- How messages name a token. -/
def describe : Symbol → String
  | word name => "'" ++ name ++ "'"
  | openParen => "'('"
  | closeParen => "')'"
  | comma => "','"
  | not => "negation"
  | and => "conjunction"
  | or => "disjunction"
  | implies => "implication"
  | iff => "biconditional"
  | forAll | thereExists => "quantifier"
  | falsum | verum => "constant"

end Symbol

/-- What the grammar asks for at a place. -/
inductive Expected where
  | sentence
  | variableName
  | term
  | closing
  | separator
  deriving DecidableEq, Repr

namespace Expected

/-- How messages name what is asked for. -/
def describe : Expected → String
  | sentence => "a sentence"
  | variableName => "a variable"
  | term => "a term"
  | closing => "')'"
  | separator => "',' or ')'"

end Expected

/-! ## Causes and failures -/

/-- What is wrong with a text. -/
inductive ParseCause where
  | noSentence
  | unknownCharacter (c : Char)
  | endedBefore (expected : Expected)
  | foundInstead (expected : Expected) (found : Symbol)
  | leftOver (found : Symbol)
  | tooDeep
  deriving DecidableEq, Repr

namespace ParseCause

/-- The wording of each cause. -/
def message : ParseCause → String
  | noSentence => "no expression"
  | unknownCharacter c => "unexpected character '" ++ String.ofList [c] ++ "'"
  | endedBefore expected => "expected " ++ expected.describe ++ " after this"
  | foundInstead expected found => "expected " ++ expected.describe ++ ", found " ++ found.describe
  | leftOver found => "unexpected " ++ found.describe
  | tooDeep => "sentence nested too deeply"

end ParseCause

/-- A cause and the part of the text to highlight. -/
structure ParseFailure where
  cause : ParseCause
  span : Option Span
  deriving DecidableEq, Repr

namespace ParseFailure

/-- The wording of the cause. -/
def message (failure : ParseFailure) : String :=
  failure.cause.message

/-- The failure of a blank text where a sentence is required. -/
def blank : ParseFailure :=
  ⟨.noSentence, none⟩

/-- A failure that highlights `span`. -/
def spanning (span : Span) (cause : ParseCause) : ParseFailure :=
  ⟨cause, some span⟩

end ParseFailure

end NaturalDeduction
