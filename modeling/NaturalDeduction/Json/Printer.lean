/-
  Writing JSON.

  `render` writes a value without any white space, `renderPretty` with one
  member or item on each line and an indent of two spaces. In strings the quote
  and the backslash are escaped, and the characters below the space, with a
  short escape where there is one and four hexadecimal digits otherwise.
-/

import NaturalDeduction.Decimal.Shortest
import NaturalDeduction.Json.Basic
import NaturalDeduction.Text.Hexadecimal
import NaturalDeduction.Word.Trap

namespace NaturalDeduction.Json

/-! ## Strings -/

/-- How a character is written in a string. -/
def escape (c : Char) : List Char :=
  if c = '"' then ['\\', '"']
  else if c = '\\' then ['\\', '\\']
  else if c.toNat = 0x08 then ['\\', 'b']
  else if c.toNat = 0x09 then ['\\', 't']
  else if c.toNat = 0x0A then ['\\', 'n']
  else if c.toNat = 0x0C then ['\\', 'f']
  else if c.toNat = 0x0D then ['\\', 'r']
  else if c.toNat < 0x20 then
    ['\\', 'u', '0', '0', Text.Hexadecimal.digit (c.toNat / 16),
      Text.Hexadecimal.digit (c.toNat % 16)]
  else [c]

/-- A text between quotes. -/
def renderString (text : String) : String :=
  "\"" ++ String.ofList (text.toList.flatMap escape) ++ "\""

/-! ## Numbers -/

/-- Where a real number is written without an exponent: its point stands at most `lastPoint`
digits after the first digit and fewer than `firstZeros` zeros follow the point. -/
structure RealFormat where
  lastPoint : Int
  firstZeros : Int

/-- Real numbers are written without an exponent from `0.00001` up to sixteen whole digits. -/
def realFormat : RealFormat := ⟨16, 5⟩

/-- Writes a positive decimal. -/
def renderDecimal (format : RealFormat) (decimal : Decimal) : String :=
  let digits := (toString decimal.digits).toList
  let point : Int := digits.length + decimal.exponent
  if 0 ≤ decimal.exponent ∧ point ≤ format.lastPoint then
    String.ofList (digits ++ List.replicate decimal.exponent.toNat '0') ++ ".0"
  else if 0 < point ∧ point ≤ format.lastPoint then
    String.ofList (digits.take point.toNat) ++ "." ++ String.ofList (digits.drop point.toNat)
  else if -format.firstZeros < point ∧ point ≤ 0 then
    "0." ++ String.ofList (List.replicate (-point).toNat '0' ++ digits)
  else
    let fraction := match digits.drop 1 with
      | [] => ""
      | rest => "." ++ String.ofList rest
    String.ofList (digits.take 1) ++ fraction ++ "e" ++ toString (point - 1)

/-- Writes a binary64 number, which is finite. -/
def renderReal (bits : UInt64) : String :=
  let magnitude := bits.toNat % Word.limit 63
  let sign := if bits.toNat < Word.limit 63 then "" else "-"
  if magnitude = 0 then sign ++ "0.0"
  else sign ++ renderDecimal realFormat (Decimal.shortest (UInt64.ofNat magnitude))

/-- Writes a number. -/
def renderNumber : JsonNumber → String
  | .natural n => toString n
  | .negative magnitude => "-" ++ toString magnitude
  | .real bits => renderReal bits

/-! ## Compact form -/

mutual

/-- Writes a value without white space. -/
def render : Json → String
  | null => "null"
  | bool true => "true"
  | bool false => "false"
  | number value => renderNumber value
  | string text => renderString text
  | array items => "[" ++ String.intercalate "," (renderItems items) ++ "]"
  | object members => "\x7b" ++ String.intercalate "," (renderMembers members) ++ "\x7d"
  | unrepresentable => "null"

/-- Writes the items of an array. -/
def renderItems : List Json → List String
  | [] => []
  | item :: items => render item :: renderItems items

/-- Writes the members of an object. -/
def renderMembers : List (String × Json) → List String
  | [] => []
  | (key, value) :: members =>
    (renderString key ++ ":" ++ render value) :: renderMembers members

end

/-! ## Indented form -/

/-- The start of a line at an indent of two spaces for each level. -/
def lineStart (level : Nat) : String :=
  "\n" ++ String.ofList (List.replicate (2 * level) ' ')

/-- Puts parts on lines of their own between two brackets; without parts the brackets touch. -/
def layOut (level : Nat) (opening closing : String) : List String → String
  | [] => opening ++ closing
  | parts =>
    opening ++ lineStart (level + 1) ++ String.intercalate ("," ++ lineStart (level + 1)) parts
      ++ lineStart level ++ closing

mutual

/-- Writes a value with its parts on lines of their own, `level` deep in other values. -/
def renderIndented (level : Nat) : Json → String
  | array items => layOut level "[" "]" (indentItems (level + 1) items)
  | object members => layOut level "\x7b" "\x7d" (indentMembers (level + 1) members)
  | value => render value

/-- Writes the items of an array for lines of their own. -/
def indentItems (level : Nat) : List Json → List String
  | [] => []
  | item :: items => renderIndented level item :: indentItems level items

/-- Writes the members of an object for lines of their own. -/
def indentMembers (level : Nat) : List (String × Json) → List String
  | [] => []
  | (key, value) :: members =>
    (renderString key ++ ": " ++ renderIndented level value) :: indentMembers level members

end

/-- Writes a value with one member or item on each line. -/
def renderPretty (value : Json) : String :=
  renderIndented 0 value

end NaturalDeduction.Json
