/-
  Numbers in JSON texts.

  A numeral without a fraction and an exponent is a whole number when it fits
  64 bits. Every other numeral is rounded to binary64: of its digits the first
  ones that fit 64 bits count, and their value is multiplied or divided by the
  power of ten that the point and the exponent call for.
-/

import NaturalDeduction.Json.Basic
import NaturalDeduction.Word.Trap

namespace NaturalDeduction.Json

/-! ## The parts of a numeral -/

/-- A numeral: its sign, the digits before and after the point, and the exponent with its sign. -/
structure Numeral where
  isNegative : Bool
  whole : List Char
  fraction? : Option (List Char)
  exponent? : Option (Bool × List Char)
  deriving DecidableEq, Repr

/-- The digits at the head of a text, of which there must be one, and the rest. -/
def digitsAt? (cs : List Char) : Option (List Char × List Char) :=
  match cs.takeWhile Char.isDigit with
  | [] => none
  | digits => some (digits, cs.dropWhile Char.isDigit)

/-- The digits before the point: a single zero, or digits that do not begin with one. -/
def wholeAt? : List Char → Option (List Char × List Char)
  | '0' :: rest =>
    match rest with
    | c :: _ => if c.isDigit then none else some (['0'], rest)
    | [] => some (['0'], [])
  | cs => digitsAt? cs

/-- The digits after the point, if there is a point. -/
def fractionAt? : List Char → Option (Option (List Char) × List Char)
  | '.' :: rest => (digitsAt? rest).map fun (digits, rest) => (some digits, rest)
  | cs => some (none, cs)

/-- The exponent, if there is one. Its sign is negative when the flag is set. -/
def exponentAt? : List Char → Option (Option (Bool × List Char) × List Char)
  | c :: rest =>
    if c = 'e' ∨ c = 'E' then
      match rest with
      | '-' :: rest => (digitsAt? rest).map fun (digits, rest) => (some (true, digits), rest)
      | '+' :: rest => (digitsAt? rest).map fun (digits, rest) => (some (false, digits), rest)
      | rest => (digitsAt? rest).map fun (digits, rest) => (some (false, digits), rest)
    else some (none, c :: rest)
  | [] => some (none, [])

/-- The numeral at the head of a text, and the rest. -/
def numeralAt? (cs : List Char) : Option (Numeral × List Char) := do
  let (isNegative, cs) := match cs with
    | '-' :: rest => (true, rest)
    | cs => (false, cs)
  let (whole, cs) ← wholeAt? cs
  let (fraction?, cs) ← fractionAt? cs
  let (exponent?, cs) ← exponentAt? cs
  return (⟨isNegative, whole, fraction?, exponent?⟩, cs)

/-! ## The value of a numeral -/

/-- The value of decimal digits. -/
def digitsValue (digits : List Char) : Nat :=
  digits.foldl (fun value c => value * 10 + (c.toNat - '0'.toNat)) 0

/-- Reads digits onto a significand as long as it fits 64 bits; the answer holds the digits that
are left over. -/
def significand (value : Nat) : List Char → Nat × List Char
  | [] => (value, [])
  | c :: cs =>
    let next := value * 10 + (c.toNat - '0'.toNat)
    -- The first digit that does not fit ends the significand, even if later ones would.
    if next < Word.limit 64 then significand next cs else (value, c :: cs)

/-- A significand times a power of ten, in binary64 arithmetic. The factors are powers of ten up
to the largest one that is finite; there is no result when it would be infinite. -/
def scale : Nat → Float → Int → Option Float
  | 0, value, _ => some value
  | steps + 1, value, exponent =>
    if exponent.natAbs ≤ 308 then
      let power := Float.ofScientific 1 false exponent.natAbs
      if 0 ≤ exponent then
        let scaled := value * power
        if scaled.isInf then none else some scaled
      else some (value / power)
    else if value == 0 then some value
    else if 0 ≤ exponent then none
    else scale steps (value / Float.ofScientific 1 false 308) (exponent + 308)

/-- The largest exponent that is told from larger ones. -/
def exponentLimit : Nat := Word.limit 31

/-- The binary64 number that a numeral denotes, unless it lies beyond the finite ones. -/
def Numeral.real? (numeral : Numeral) : Option Float := do
  let (value, restWhole) := significand 0 numeral.whole
  let fraction := numeral.fraction?.getD []
  let (value, restFraction) := significand value fraction
  let taken := fraction.length - restFraction.length
  let point : Int := restWhole.length - taken
  let (isNegative, size) := match numeral.exponent? with
    | none => (false, 0)
    | some (isNegative, digits) => (isNegative, digitsValue digits)
  let scaled ←
    if exponentLimit ≤ size then
      -- Such an exponent decides by itself, whatever the digits after the point do.
      if value ≠ 0 ∧ !isNegative then none else some 0
    else
      let exponent := if isNegative then point - size else point + size
      scale (exponent.natAbs / 308 + 1) value.toUInt64.toFloat exponent
  return if numeral.isNegative then -scaled else scaled

/-- The number that a numeral denotes, unless it lies beyond the finite ones. -/
def Numeral.number? (numeral : Numeral) : Option JsonNumber :=
  let real? := numeral.real?.map fun value => JsonNumber.real value.toBits
  match numeral.fraction?, numeral.exponent? with
  | none, none =>
    let value := digitsValue numeral.whole
    if numeral.isNegative then
      if 0 < value ∧ value ≤ Word.limit 63 then some (.negative value) else real?
    else if value < Word.limit 64 then some (.natural value)
    else real?
  | _, _ => real?

end NaturalDeduction.Json
