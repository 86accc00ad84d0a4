/-
  Hexadecimal digits.

  Digits are read in either case and written in lower case.
-/

namespace NaturalDeduction.Text.Hexadecimal

/-- The value of a digit. -/
def value? (c : Char) : Option Nat :=
  if c.isDigit then some (c.toNat - '0'.toNat)
  else if 'a' ≤ c ∧ c ≤ 'f' then some (c.toNat - 'a'.toNat + 10)
  else if 'A' ≤ c ∧ c ≤ 'F' then some (c.toNat - 'A'.toNat + 10)
  else none

/-- The digit for a value below sixteen. -/
def digit (n : Nat) : Char :=
  if n < 10 then Char.ofNat ('0'.toNat + n) else Char.ofNat ('a'.toNat + (n - 10))

/-- Reads digits onto a value. -/
def readOnto? : Nat → List Char → Option Nat
  | value, [] => some value
  | value, c :: cs => do readOnto? (value * 16 + (← value? c)) cs

/-- The value of digits. -/
def read? (digits : List Char) : Option Nat :=
  readOnto? 0 digits

/-- A digit that was written is read back. -/
theorem value?_digit {n : Nat} (h : n < 16) : value? (digit n) = some n := by
  have : n = 0 ∨ n = 1 ∨ n = 2 ∨ n = 3 ∨ n = 4 ∨ n = 5 ∨ n = 6 ∨ n = 7 ∨ n = 8 ∨ n = 9 ∨ n = 10
      ∨ n = 11 ∨ n = 12 ∨ n = 13 ∨ n = 14 ∨ n = 15 := by omega
  rcases this with rfl | rfl | rfl | rfl | rfl | rfl | rfl | rfl | rfl | rfl | rfl | rfl | rfl
    | rfl | rfl | rfl <;> decide

end NaturalDeduction.Text.Hexadecimal
