/-
  Reading JSON.

  `read?` takes a whole text, with white space around the value. The reader
  recurses on a number of steps; each value, item and member takes at least
  one character, so twice the length of the text is enough.
-/

import NaturalDeduction.Json.Numeral
import NaturalDeduction.Text.Hexadecimal

namespace NaturalDeduction.Json

/-- White space between the parts of a JSON text. -/
def isSpace (c : Char) : Bool :=
  c == ' ' || c == '\t' || c == '\n' || c == '\r'

/-- The text without the white space at its head. -/
def skipSpace (cs : List Char) : List Char :=
  cs.dropWhile isSpace

/-! ## Strings -/

/-- The character that an escape of one letter stands for. -/
def shortEscape? (c : Char) : Option Char :=
  match c with
  | '"' => some '"'
  | '\\' => some '\\'
  | '/' => some '/'
  | 'b' => some (Char.ofNat 0x08)
  | 'f' => some (Char.ofNat 0x0C)
  | 'n' => some '\n'
  | 'r' => some '\r'
  | 't' => some '\t'
  | _ => none

/-- Whether a 16-bit unit is the first half of a surrogate pair. -/
def isHighSurrogate (unit : Nat) : Bool := 0xD800 ≤ unit && unit < 0xDC00

/-- Whether a 16-bit unit is the second half of a surrogate pair. -/
def isLowSurrogate (unit : Nat) : Bool := 0xDC00 ≤ unit && unit < 0xE000

/-- The character that a surrogate pair stands for. -/
def pairChar (high low : Nat) : Char :=
  Char.ofNat (0x10000 + (high - 0xD800) * 0x400 + (low - 0xDC00))

/-- What was read of a string: its characters, or nothing when it holds half of a pair. -/
abbrev Characters := Option (List Char)

/-- Reads the rest of a string behind its opening quote, with the first half of a surrogate pair
when one has just been read. -/
def stringBody? : Option Nat → List Char → Option (Characters × List Char)
  | half?, '\\' :: 'u' :: a :: b :: c :: d :: rest => do
    let unit ← Text.Hexadecimal.read? [a, b, c, d]
    match half? with
    | some high =>
      -- Only the second half may follow; anything else leaves the first half alone in the string.
      if isLowSurrogate unit then
        let (characters, rest) ← stringBody? none rest
        return (characters.map (pairChar high unit :: ·), rest)
      else
        let (_, rest) ← stringBody? (if isHighSurrogate unit then some unit else none) rest
        return (none, rest)
    | none =>
      -- A first half waits for what comes next; a second half by itself stands for no character.
      if isHighSurrogate unit then stringBody? (some unit) rest
      else
        let (characters, rest) ← stringBody? none rest
        if isLowSurrogate unit then return (none, rest)
        else return (characters.map (Char.ofNat unit :: ·), rest)
  -- A first half at the end of the string stays alone.
  | half?, '"' :: rest => some (if half?.isSome then none else some [], rest)
  | half?, '\\' :: c :: rest => do
    let character ← shortEscape? c
    let (characters, rest) ← stringBody? none rest
    return (if half?.isSome then none else characters.map (character :: ·), rest)
  | half?, c :: rest => do
    if c.toNat < 0x20 || c == '\\' then none
    let (characters, rest) ← stringBody? none rest
    return (if half?.isSome then none else characters.map (c :: ·), rest)
  | _, [] => none

/-! ## Values -/

/-- Takes the expected characters from the head of a text. -/
def expect? : List Char → List Char → Option (List Char)
  | [], cs => some cs
  | _ :: _, [] => none
  | e :: es, c :: cs => if e = c then expect? es cs else none

/-- An object whose keys are all representable, and otherwise nothing that can be used. -/
def objectOf (members? : Option (List (String × Json))) : Json :=
  (members?.map object).getD unrepresentable

/-- Adds a member in front, unless a key is not representable. -/
def addMember (key : Characters) (value : Json) (members? : Option (List (String × Json))) :
    Option (List (String × Json)) := do
  return (String.ofList (← key), value) :: (← members?)

mutual

/-- Reads the value at the head of a text. -/
def valueAt? : Nat → List Char → Option (Json × List Char)
  | 0, _ => none
  | steps + 1, cs =>
    match skipSpace cs with
    | '\x7b' :: rest =>
      match skipSpace rest with
      | '\x7d' :: rest => some (object [], rest)
      | rest => do
        let (members?, rest) ← membersAt? steps rest
        return (objectOf members?, rest)
    | '[' :: rest =>
      match skipSpace rest with
      | ']' :: rest => some (array [], rest)
      | rest => do
        let (items, rest) ← itemsAt? steps rest
        return (array items, rest)
    | '"' :: rest => do
      let (characters, rest) ← stringBody? none rest
      return ((characters.map fun cs => string (String.ofList cs)).getD unrepresentable, rest)
    | 'n' :: rest => (expect? ['u', 'l', 'l'] rest).map fun rest => (null, rest)
    | 't' :: rest => (expect? ['r', 'u', 'e'] rest).map fun rest => (bool true, rest)
    | 'f' :: rest => (expect? ['a', 'l', 's', 'e'] rest).map fun rest => (bool false, rest)
    | rest => do
      let (numeral, rest) ← numeralAt? rest
      return ((numeral.number?.map number).getD unrepresentable, rest)

/-- Reads the items of an array, of which there is at least one, up to the closing bracket. -/
def itemsAt? : Nat → List Char → Option (List Json × List Char)
  | 0, _ => none
  | steps + 1, cs => do
    let (item, rest) ← valueAt? steps cs
    match skipSpace rest with
    | ',' :: rest =>
      let (items, rest) ← itemsAt? steps rest
      return (item :: items, rest)
    | ']' :: rest => return ([item], rest)
    | _ => none

/-- Reads the members of an object, of which there is at least one, up to the closing brace. -/
def membersAt? : Nat → List Char → Option (Option (List (String × Json)) × List Char)
  | 0, _ => none
  | steps + 1, cs => do
    match skipSpace cs with
    | '"' :: rest =>
      let (key, rest) ← stringBody? none rest
      match skipSpace rest with
      | ':' :: rest =>
        let (value, rest) ← valueAt? steps rest
        match skipSpace rest with
        | ',' :: rest =>
          let (members?, rest) ← membersAt? steps rest
          return (addMember key value members?, rest)
        | '\x7d' :: rest => return (addMember key value (some []), rest)
        | _ => none
      | _ => none
    | _ => none

end

/-- Reads a text that holds one value and nothing else. -/
def readChars? (cs : List Char) : Option Json := do
  let (value, rest) ← valueAt? (2 * cs.length + 2) cs
  if (skipSpace rest).isEmpty then some value else none

/-- Reads a text that holds one value and nothing else. -/
def read? (text : String) : Option Json :=
  readChars? text.toList

/-- Reads a text as a canonical value, every part of which can be used. -/
def readValue? (cs : List Char) : Option Json :=
  (readChars? cs).bind fun value =>
    if value.usable maxDepth then some value.canonical else none

end NaturalDeduction.Json
