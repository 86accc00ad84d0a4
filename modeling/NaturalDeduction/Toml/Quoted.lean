/-
  Quoted texts in TOML.

  A text stands between single or double quotes, or between three of them when
  it may go over several lines. Double quotes allow escapes. The readers here
  start behind the opening quotes and give the characters and what follows the
  closing quotes; every step takes at least one character.
-/

import NaturalDeduction.Text.Hexadecimal

namespace NaturalDeduction.Toml

/-- Whether a character may stand for itself in a text or a comment: any but the controls, of
which only the tab is allowed. -/
def isPlain (c : Char) : Bool :=
  c == '\t' || (0x20 ≤ c.toNat && c.toNat != 0x7F)

/-! ## Escapes -/

/-- The character with a code point. -/
def charOf? (code : Nat) : Option Char :=
  if h : code.isValidChar then some (Char.ofNatAux code h) else none

/-- The character that hexadecimal digits at the head of a text give, and the rest. -/
def codeAt? (width : Nat) (cs : List Char) : Option (Char × List Char) := do
  let digits := cs.take width
  if digits.length < width then none
  let c ← charOf? (← Text.Hexadecimal.read? digits)
  return (c, cs.drop width)

/-- The character that an escape stands for, read behind the backslash, and the rest. -/
def escapeAt? : List Char → Option (Char × List Char)
  | 'b' :: cs => some (Char.ofNat 0x08, cs)
  | 't' :: cs => some ('\t', cs)
  | 'n' :: cs => some ('\n', cs)
  | 'f' :: cs => some (Char.ofNat 0x0C, cs)
  | 'r' :: cs => some ('\r', cs)
  | 'e' :: cs => some (Char.ofNat 0x1B, cs)
  | '"' :: cs => some ('"', cs)
  | '\\' :: cs => some ('\\', cs)
  | 'x' :: cs => codeAt? 2 cs
  | 'u' :: cs => codeAt? 4 cs
  | 'U' :: cs => codeAt? 8 cs
  | _ => none

/-! ## Texts on one line -/

/-- Reads a text up to a double quote. -/
def basicBody? : Nat → List Char → Option (List Char × List Char)
  | 0, _ => none
  | _, [] => none
  | _ + 1, '"' :: cs => some ([], cs)
  | steps + 1, '\\' :: cs => do
    let (c, cs) ← escapeAt? cs
    let (text, rest) ← basicBody? steps cs
    return (c :: text, rest)
  | steps + 1, c :: cs => do
    if !isPlain c then none
    let (text, rest) ← basicBody? steps cs
    return (c :: text, rest)

/-- Reads a text up to a single quote. -/
def literalBody? : List Char → Option (List Char × List Char)
  | [] => none
  | c :: cs => do
    if c == '\'' then return ([], cs)
    if !isPlain c then none
    let (text, rest) ← literalBody? cs
    return (c :: text, rest)

/-! ## Texts on several lines -/

/-- The rest behind a line end, if there is one here. -/
def lineEnd? : List Char → Option (List Char)
  | '\n' :: cs => some cs
  | '\r' :: '\n' :: cs => some cs
  | _ => none

/-- The text without spaces, tabs and line ends at its head. -/
def skipLines : List Char → List Char
  | '\r' :: '\n' :: cs => skipLines cs
  | c :: cs => if c == ' ' || c == '\t' || c == '\n' then skipLines cs else c :: cs
  | [] => []

/-- The rest behind a backslash at the end of a line, which takes away the white space before the
next character. -/
def foldedLine? (cs : List Char) : Option (List Char) :=
  (lineEnd? (cs.dropWhile fun c => c == ' ' || c == '\t')).map skipLines

/-- Behind three closing quotes: up to two more of them belong to the text. -/
def trailingQuotes (quote : Char) : List Char → List Char × List Char
  | a :: b :: cs =>
    if a == quote && b == quote then ([quote, quote], cs)
    else if a == quote then ([quote], b :: cs)
    else ([], a :: b :: cs)
  | [a] => if a == quote then ([quote], []) else ([], [a])
  | [] => ([], [])

/-- Reads a text up to three quotes. Line ends become line feeds. -/
def multilineBody? (quote : Char) : Nat → List Char → Option (List Char × List Char)
  | 0, _ => none
  | _, [] => none
  | steps + 1, c :: cs =>
    -- Both kinds of line end are read before the carriage return could be taken for a control.
    match lineEnd? (c :: cs) with
    | some rest => do
      let (text, rest) ← multilineBody? quote steps rest
      return ('\n' :: text, rest)
    | none =>
      if (c :: cs).take 3 == [quote, quote, quote] then
        some (trailingQuotes quote (cs.drop 2))
      else if c == '\\' && quote == '"' then
        -- A backslash folds the line if only white space is left on it; else it is an escape.
        match foldedLine? cs with
        | some rest => multilineBody? quote steps rest
        | none => do
          let (escaped, rest) ← escapeAt? cs
          let (text, rest) ← multilineBody? quote steps rest
          return (escaped :: text, rest)
      else if isPlain c then do
        let (text, rest) ← multilineBody? quote steps cs
        return (c :: text, rest)
      else none

/-- Reads a text between three quotes, behind the opening ones. A line end right behind them does
not belong to the text. -/
def multiline? (quote : Char) (cs : List Char) : Option (List Char × List Char) :=
  multilineBody? quote (cs.length + 1) ((lineEnd? cs).getD cs)

/-! ## Any text -/

/-- Reads a quoted text on one line. -/
def singleLineAt? : List Char → Option (String × List Char)
  | '"' :: cs => (basicBody? (cs.length + 1) cs).map fun (text, rest) => (String.ofList text, rest)
  | '\'' :: cs => (literalBody? cs).map fun (text, rest) => (String.ofList text, rest)
  | _ => none

/-- Reads a quoted text. -/
def quotedAt? : List Char → Option (String × List Char)
  | '"' :: '"' :: '"' :: cs =>
    (multiline? '"' cs).map fun (text, rest) => (String.ofList text, rest)
  | '\'' :: '\'' :: '\'' :: cs =>
    (multiline? '\'' cs).map fun (text, rest) => (String.ofList text, rest)
  | cs => singleLineAt? cs

end NaturalDeduction.Toml
