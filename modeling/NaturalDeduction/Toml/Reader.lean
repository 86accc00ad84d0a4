/-
  Reading TOML.

  A document is read line by line into the tables that it defines, and arrays
  and inline tables are read in place. The readers recurse on a number of
  steps; each step takes at least one character, so the length of the text is
  enough.
-/

import NaturalDeduction.Toml.Definition
import NaturalDeduction.Toml.Quoted
import NaturalDeduction.Toml.Scalar

namespace NaturalDeduction.Toml

/-! ## Between values -/

/-- The text without spaces and tabs at its head. -/
def skipBlanks (cs : List Char) : List Char :=
  cs.dropWhile fun c => c == ' ' || c == '\t'

/-- The text without a comment at its head. -/
def skipComment (cs : List Char) : List Char :=
  match cs with
  | '#' :: cs => cs.dropWhile isPlain
  | cs => cs

/-- The rest of a line that holds nothing but blanks and a comment: what follows it. -/
def restOfLine? (cs : List Char) : Option (List Char) :=
  match skipComment (skipBlanks cs) with
  | [] => some []
  | cs => lineEnd? cs

/-- The text without blanks, line ends and comments at its head. -/
def skipTrivia : Nat → List Char → List Char
  | 0, cs => cs
  | steps + 1, cs =>
    let next := skipComment (skipBlanks cs)
    match lineEnd? next with
    | some rest => skipTrivia steps rest
    | none => next

/-! ## Keys -/

/-- Whether a character may stand in a key without quotes. -/
def isKeyChar (c : Char) : Bool :=
  c.isAlphanum || c == '_' || c == '-'

/-- Reads one part of a key. -/
def partAt? (cs : List Char) : Option (String × List Char) :=
  match singleLineAt? cs with
  | some found => some found
  | none =>
    match cs.takeWhile isKeyChar with
    | [] => none
    | name => some (String.ofList name, cs.dropWhile isKeyChar)

/-- How many parts a key may have, and how deeply arrays and inline tables may be nested. -/
def nestingLimit : Nat := 80

/-- Reads the parts of a key, between which there are dots, up to a limit of further parts. -/
def partsAt? : Nat → List Char → Option (List String × List Char)
  | 0, _ => none
  | limit + 1, cs => do
    let (part, cs) ← partAt? (skipBlanks cs)
    match skipBlanks cs with
    | '.' :: cs =>
      let (parts, rest) ← partsAt? limit cs
      return (part :: parts, rest)
    | cs => return ([part], cs)

/-- Reads a key: the path to its table, and its last part. -/
def keyAt? (cs : List Char) : Option ((List String × String) × List Char) := do
  let (parts, rest) ← partsAt? nestingLimit cs
  return ((parts.dropLast, ← parts.getLast?), rest)

/-- Reads a key and the equals sign behind it. -/
def assignmentAt? (cs : List Char) : Option ((List String × String) × List Char) := do
  let (key, cs) ← keyAt? cs
  let '=' :: rest := cs | none
  return (key, rest)

/-! ## Values -/

mutual

/-- Reads a value inside of which `room` more levels may be nested. -/
def valueAt? : Nat → Nat → List Char → Option (Toml × List Char)
  | 0, _, _ => none
  | steps + 1, room, cs =>
    match skipBlanks cs with
    | '[' :: rest =>
      match room with
      | 0 => none
      | room + 1 => do
        let (items, rest) ← itemsAt? steps room (skipTrivia steps rest)
        return (.array items, rest)
    | '\x7b' :: rest =>
      match room with
      | 0 => none
      | room + 1 => do
        let (entries, rest) ← entriesAt? steps room [] (skipTrivia steps rest)
        return (.table (finishEntries entries), rest)
    | cs =>
      match quotedAt? cs with
      | some (characters, rest) => some (.string characters, rest)
      | none => do
        let (bare, rest) := bareAt cs
        return (← ofBare? bare, rest)

/-- Reads the items of an array up to the closing bracket. A comma may follow the last one. -/
def itemsAt? : Nat → Nat → List Char → Option (List Toml × List Char)
  | 0, _, _ => none
  | _, _, ']' :: rest => some ([], rest)
  | steps + 1, room, cs => do
    let (item, rest) ← valueAt? steps room cs
    match skipTrivia steps rest with
    | ',' :: rest =>
      let (items, rest) ← itemsAt? steps room (skipTrivia steps rest)
      return (item :: items, rest)
    | ']' :: rest => return ([item], rest)
    | _ => none

/-- Reads the entries of an inline table onto those before them, up to the closing brace. A comma
may follow the last one. -/
def entriesAt? : Nat → Nat → Entries → List Char → Option (Entries × List Char)
  | 0, _, _, _ => none
  | _, _, entries, '\x7d' :: rest => some (entries, rest)
  | steps + 1, room, entries, cs => do
    let ((path, key), rest) ← assignmentAt? cs
    let (value, rest) ← valueAt? steps room rest
    let entries ← entries.insert? path key value
    match skipTrivia steps rest with
    | ',' :: rest => entriesAt? steps room entries (skipTrivia steps rest)
    | '\x7d' :: rest => return (entries, rest)
    | _ => none

end

/-! ## Documents -/

/-- What the lines read so far have defined, and the table that the last header names. -/
structure Progress where
  header : List String
  entries : Entries

/-- Reads a header, behind its opening bracket. -/
def headerAt? (progress : Progress) (cs : List Char) : Option (Progress × List Char) :=
  match cs with
  | '[' :: cs => do
    let ((path, key), cs) ← keyAt? cs
    let ']' :: ']' :: rest := cs | none
    return (⟨path ++ [key], ← progress.entries.append? path key⟩, rest)
  | cs => do
    let ((path, key), cs) ← keyAt? cs
    let ']' :: rest := cs | none
    return (⟨path ++ [key], ← progress.entries.define? path key⟩, rest)

/-- Reads an entry of the current table. -/
def entryAt? (progress : Progress) (cs : List Char) : Option (Progress × List Char) := do
  let ((path, key), rest) ← assignmentAt? cs
  let (value, rest) ← valueAt? (2 * rest.length + 2) nestingLimit rest
  return (⟨progress.header, ← progress.entries.insertUnder? progress.header path key value⟩, rest)

/-- Reads lines to the end of the text. -/
def linesAt? : Nat → Progress → List Char → Option Progress
  | 0, _, _ => none
  | steps + 1, progress, cs =>
    match skipTrivia (cs.length + 1) cs with
    | [] => some progress
    | '[' :: cs => do
      let (progress, cs) ← headerAt? progress cs
      linesAt? steps progress (← restOfLine? cs)
    | cs => do
      let (progress, cs) ← entryAt? progress cs
      linesAt? steps progress (← restOfLine? cs)

/-- The text without a byte order mark at its head. -/
def skipMark (cs : List Char) : List Char :=
  match cs with
  | c :: rest => if c.toNat = 0xFEFF then rest else cs
  | [] => []

/-- Reads a whole document: its top-level entries. -/
def read? (text : String) : Option (List (String × Toml)) := do
  let cs := skipMark text.toList
  let progress ← linesAt? (cs.length + 1) ⟨[], []⟩ cs
  return finishEntries progress.entries

end NaturalDeduction.Toml
