/-
  The shortest decimal that reads back.

  A positive binary64 number stands for every real number that rounds to it.
  Among the decimals in that interval `shortest` takes one with the fewest
  digits, and of those the nearest to the number itself; of two equally near
  ones it takes the one that ends in an even digit.
-/

import NaturalDeduction.Word.Trap

namespace NaturalDeduction

/-- The number `digits · 10 ^ exponent`. -/
structure Decimal where
  digits : Nat
  exponent : Int
  deriving DecidableEq, Repr

namespace Decimal

/-! ## The interval of a binary64 number -/

/-- The reals that round to a number, as fractions with one denominator. The ends belong to the
interval when `closed` is set. -/
structure Interval where
  lower : Nat
  value : Nat
  upper : Nat
  denominator : Nat
  closed : Bool
  deriving DecidableEq, Repr

/-- The interval of a positive number, given by its fraction bits and its biased exponent. The gap
below a power of two is half as wide as the one above it. -/
def Interval.ofParts (fraction biased : Nat) : Interval :=
  let mantissa := if biased = 0 then fraction else fraction + Word.limit 52
  let exponent : Int := (if biased = 0 then (1 : Int) else biased) - 1075 - 2
  let narrow := fraction = 0 && 1 < biased
  let scale := Nat.pow 2 exponent.toNat
  { lower := (4 * mantissa - (if narrow then 1 else 2)) * scale
    value := 4 * mantissa * scale
    upper := (4 * mantissa + 2) * scale
    denominator := Nat.pow 2 (-exponent).toNat
    closed := mantissa % 2 == 0 }

/-- Whether the decimal lies in the interval. -/
def Interval.contains (interval : Interval) (decimal : Decimal) : Bool :=
  let point := decimal.digits * Nat.pow 10 decimal.exponent.toNat * interval.denominator
  let unit := Nat.pow 10 (-decimal.exponent).toNat
  if interval.closed then interval.lower * unit ≤ point && point ≤ interval.upper * unit
  else interval.lower * unit < point && point < interval.upper * unit

/-! ## The search -/

/-- Counts how often a fraction below one has to be multiplied by ten to reach one. -/
def placesToOne : Nat → Nat → Nat → Nat
  | 0, _, _ => 0
  | steps + 1, numerator, denominator =>
    if denominator ≤ numerator then 0 else placesToOne steps (numerator * 10) denominator + 1

/-- The exponent of the first digit of the interval's value. -/
def Interval.firstExponent (interval : Interval) : Int :=
  let whole := interval.value / interval.denominator
  if whole = 0 then -(placesToOne 400 interval.value interval.denominator : Int)
  else (toString whole).length - 1

/-- The decimal with the given exponent that is nearest to the value, provided one of the two
neighbours of the value is in the interval. -/
def Interval.nearest? (interval : Interval) (exponent : Int) : Option Decimal :=
  let numerator := interval.value * Nat.pow 10 (-exponent).toNat
  let denominator := interval.denominator * Nat.pow 10 exponent.toNat
  let below : Decimal := ⟨numerator / denominator, exponent⟩
  let above : Decimal := ⟨numerator / denominator + 1, exponent⟩
  let twice := 2 * (numerator % denominator)
  match interval.contains below, interval.contains above with
  | true, true =>
    if twice < denominator then some below
    else if denominator < twice then some above
    else if below.digits % 2 = 0 then some below
    else some above
  | true, false => some below
  | false, true => some above
  | false, false => none

/-- Tries one more digit at a time. -/
def Interval.search (interval : Interval) (first : Int) : Nat → Nat → Decimal
  | 0, _ => ⟨0, 0⟩
  | steps + 1, places =>
    match interval.nearest? (first - places) with
    | some decimal => decimal
    | none => interval.search first steps (places + 1)

/-- Moves zeros at the end of the digits into the exponent. -/
def stripZeros : Nat → Decimal → Decimal
  | 0, decimal => decimal
  | steps + 1, decimal =>
    if decimal.digits ≠ 0 ∧ decimal.digits % 10 = 0 then
      stripZeros steps ⟨decimal.digits / 10, decimal.exponent + 1⟩
    else decimal

/-- The shortest decimal of a positive finite binary64 number; seventeen digits are enough. -/
def shortest (bits : UInt64) : Decimal :=
  let interval := Interval.ofParts (bits.toNat % Word.limit 52)
    (bits.toNat / Word.limit 52 % Word.limit 11)
  stripZeros 20 (interval.search interval.firstExponent 18 0)

end Decimal

end NaturalDeduction
