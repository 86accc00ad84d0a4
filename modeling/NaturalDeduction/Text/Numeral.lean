/-
  Reading a count from text.

  Counts on the command line and in frame headers are decimal numerals of at
  most 64 bits, with an optional plus sign. `readCount` reports the first
  thing that is wrong, reading from the left.
-/

import NaturalDeduction.Word.Trap

namespace NaturalDeduction.Text

/-- Why a text is not a count. -/
inductive NumeralError where
  | empty
  | invalidDigit
  | tooLarge
  deriving DecidableEq, Repr

namespace NumeralError

/-- The wording of each error. -/
def message : NumeralError → String
  | empty => "cannot parse integer from empty string"
  | invalidDigit => "invalid digit found in string"
  | tooLarge => "number too large to fit in target type"

end NumeralError

/-- Reads digits onto the value read so far. -/
def readDigits : Nat → List Char → Except NumeralError Nat
  | value, [] => .ok value
  | value, c :: cs =>
    if c.isDigit then
      let next := value * 10 + (c.toNat - '0'.toNat)
      if next < Word.limit 64 then readDigits next cs else .error .tooLarge
    else
      .error .invalidDigit

/-- Reads a count: at least one digit, after an optional plus sign. -/
def readCount (text : String) : Except NumeralError Nat :=
  match text.toList with
  | [] => .error .empty
  | ['+'] => .error .invalidDigit
  | '+' :: digits => readDigits 0 digits
  | digits => readDigits 0 digits

end NaturalDeduction.Text
