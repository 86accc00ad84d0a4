/-
  TOML values.

  Tables keep their entries in the order in which they are defined, each key
  once. No setting is a floating-point number, a date or a time: such values
  are recognised, but what they denote is not kept.
-/

import NaturalDeduction.Word.Trap

namespace NaturalDeduction

/-- The values of TOML documents. A floating-point number may lie beyond the finite ones. -/
inductive Toml where
  | string (value : String)
  | integer (value : Int)
  | float (isFinite : Bool)
  | bool (value : Bool)
  | moment
  | array (items : List Toml)
  | table (entries : List (String × Toml))
  deriving Repr, Inhabited

namespace Toml

mutual

/-- Whether every number in the value can be held: integers in 128 bits, signed or not, and
floating-point numbers in the finite ones. -/
def usable : Toml → Bool
  | integer value => -(Word.limit 127 : Int) ≤ value && value < Word.limit 128
  | float isFinite => isFinite
  | array items => usableItems items
  | table entries => usableEntries entries
  | string _ | bool _ | moment => true

/-- Whether all items are usable. -/
def usableItems : List Toml → Bool
  | [] => true
  | item :: items => item.usable && usableItems items

/-- Whether the values of all entries are usable. -/
def usableEntries : List (String × Toml) → Bool
  | [] => true
  | (_, value) :: entries => value.usable && usableEntries entries

end

end Toml

end NaturalDeduction
