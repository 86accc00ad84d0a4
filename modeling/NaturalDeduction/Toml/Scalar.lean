/-
  Bare values in TOML: truth values, numbers and moments.

  A bare value is a run of letters, digits and a few signs; a date and a time
  may have a space between them. `ofBare?` reads a whole run.
-/

import NaturalDeduction.Text.Hexadecimal
import NaturalDeduction.Toml.Basic
import NaturalDeduction.Toml.Moment

namespace NaturalDeduction.Toml

/-! ## Digits -/

/-- The digits of a group without the underscores, each of which must stand between two digits. -/
def ungroup? (isDigit : Char → Bool) : List Char → Option (List Char)
  | [] => none
  | [c] => if isDigit c then some [c] else none
  | c :: '_' :: cs => if isDigit c then (ungroup? isDigit cs).map (c :: ·) else none
  | c :: cs => if isDigit c then (ungroup? isDigit cs).map (c :: ·) else none

/-- The value of digits in a base. -/
def valueIn (base : Nat) (digits : List Char) : Nat :=
  digits.foldl (fun value c => value * base + (Text.Hexadecimal.value? c).getD 0) 0

/-- Digits of a base other than ten. -/
def radixValue? (base : Nat) (cs : List Char) : Option Nat :=
  let isDigit (c : Char) : Bool := (Text.Hexadecimal.value? c).any (· < base)
  (ungroup? isDigit cs).map (valueIn base)

/-- Decimal digits, which begin with a zero only when there is no other digit. -/
def decimalDigits? (cs : List Char) : Option (List Char) :=
  (ungroup? Char.isDigit cs).filter fun digits => digits.head? != some '0' || digits.length == 1

/-! ## Numbers -/

/-- A sign, if there is one, and the rest. -/
def splitSign : List Char → Bool × List Char
  | '-' :: cs => (true, cs)
  | '+' :: cs => (false, cs)
  | cs => (false, cs)

/-- An integer. Only decimal ones have a sign. -/
def integer? (cs : List Char) : Option Int :=
  match cs with
  | '0' :: 'x' :: digits => (radixValue? 16 digits).map Int.ofNat
  | '0' :: 'o' :: digits => (radixValue? 8 digits).map Int.ofNat
  | '0' :: 'b' :: digits => (radixValue? 2 digits).map Int.ofNat
  | cs =>
    let (isNegative, digits) := splitSign cs
    (decimalDigits? digits).map fun digits =>
      if isNegative then -(valueIn 10 digits : Int) else valueIn 10 digits

/-- The least number that rounds to no finite binary64 number. -/
def floatLimit : Nat := Nat.pow 2 1024 - Nat.pow 2 970

/-- Whether the digits times a power of ten round to a finite binary64 number. -/
def isFiniteDecimal (digits : List Char) (exponent : Int) : Bool :=
  let digits := digits.dropWhile (· == '0')
  let places : Int := digits.length + exponent
  if digits.isEmpty || places ≤ 308 then true
  else if 310 ≤ places then false
  else if 0 ≤ exponent then valueIn 10 digits * Nat.pow 10 exponent.toNat < floatLimit
  else valueIn 10 digits < floatLimit * Nat.pow 10 (-exponent).toNat

/-- The value of an exponent: at least one digit, with an optional sign. -/
def exponent? (cs : List Char) : Option Int :=
  let (isNegative, digits) := splitSign cs
  (ungroup? Char.isDigit digits).map fun digits =>
    if isNegative then -(valueIn 10 digits : Int) else valueIn 10 digits

/-- Whether a character starts an exponent. -/
def startsExponent (c : Char) : Bool := c == 'e' || c == 'E'

/-- A floating-point number: whether it is finite when it is written with digits. The names of
infinity and of no number at all are values like any other. -/
def float? (cs : List Char) : Option Bool := do
  let (_, unsigned) := splitSign cs
  if unsigned == ['i', 'n', 'f'] || unsigned == ['n', 'a', 'n'] then return true
  let mantissa := unsigned.takeWhile fun c => !startsExponent c
  let exponent ← match unsigned.dropWhile fun c => !startsExponent c with
    | [] => some 0
    | _ :: cs => exponent? cs
  let whole ← decimalDigits? (mantissa.takeWhile (· != '.'))
  match mantissa.dropWhile (· != '.') with
  | [] => if mantissa.length == unsigned.length then none else isFiniteDecimal whole exponent
  | _ :: fraction =>
    let fraction ← ungroup? Char.isDigit fraction
    isFiniteDecimal (whole ++ fraction) (exponent - fraction.length)

/-! ## Bare values -/

/-- Whether a character belongs to a bare value. -/
def isBare (c : Char) : Bool :=
  c.isAlphanum || c == '_' || c == '+' || c == '-' || c == '.' || c == ':'

/-- The value that a run of bare characters denotes. -/
def ofBare? (cs : List Char) : Option Toml :=
  if cs == ['t', 'r', 'u', 'e'] then some (.bool true)
  else if cs == ['f', 'a', 'l', 's', 'e'] then some (.bool false)
  else
    match integer? cs, float? cs with
    | some value, _ => some (.integer value)
    | none, some isFinite => some (.float isFinite)
    | none, none => if isMoment cs then some .moment else none

/-- The run of bare characters at the head of a text, and the rest. A date takes a space and the
time behind it along. -/
def bareAt (cs : List Char) : List Char × List Char :=
  let run := cs.takeWhile isBare
  let rest := cs.dropWhile isBare
  match rest with
  | ' ' :: c :: more =>
    if dateAt? run == some [] && c.isDigit then
      (run ++ ' ' :: (c :: more).takeWhile isBare, (c :: more).dropWhile isBare)
    else (run, rest)
  | _ => (run, rest)

end NaturalDeduction.Toml
