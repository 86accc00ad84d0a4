/-
  The tokens of a text.

  `Token.scan` cuts a text into tokens by longest match and drops the white
  space between them. Each connective has an ASCII spelling and a logical
  symbol; a word is a letter followed by letters, digits and underscores, and
  the words `forall`, `exists` and `or` are connectives.
-/

import NaturalDeduction.Sentence.Failure
import NaturalDeduction.Text.Blank

namespace NaturalDeduction

/-- A symbol and the bytes that spell it. -/
structure Token where
  symbol : Symbol
  span : Span
  deriving DecidableEq, Repr

namespace Token

/-! ## Spellings -/

/-- The characters that may begin a word: the ASCII letters. -/
def startsWord (c : Char) : Bool :=
  c.isAlpha

/-- The characters that may continue a word: ASCII letters and digits, and the underscore. -/
def continuesWord (c : Char) : Bool :=
  c.isAlphanum || c == '_'

/-- What a word stands for. -/
def ofWord (name : String) : Symbol :=
  if name = "forall" then .forAll
  else if name = "exists" then .thereExists
  else if name = "or" then .or
  else .word name

/-- What a single character stands for, if it is a symbol. -/
def ofChar? (c : Char) : Option Symbol :=
  match c with
  | '(' => some .openParen
  | ')' => some .closeParen
  | ',' => some .comma
  | '~' | '¬' | '!' => some .not
  | '&' | '∧' | '^' => some .and
  | '|' | '∨' => some .or
  | '→' => some .implies
  | '↔' => some .iff
  | '∀' => some .forAll
  | '∃' => some .thereExists
  | '⊥' => some .falsum
  | '⊤' => some .verum
  | _ => none

/-- The symbol at the head of the text, and how many characters spell it after the first. -/
def symbolAt? : List Char → Option (Symbol × Nat)
  | '<' :: '-' :: '>' :: _ => some (.iff, 2)
  | '-' :: '>' :: _ => some (.implies, 1)
  | '_' :: '|' :: '_' :: _ => some (.falsum, 2)
  | c :: _ => (ofChar? c).map (·, 0)
  | [] => none

/-! ## Scanning -/

/-- The token spelled by `cs`, which begins at byte `offset`. -/
def spelled (symbol : Symbol) (offset : Nat) (cs : List Char) : Token :=
  ⟨symbol, ⟨offset, offset + Text.byteLength cs⟩⟩

/-- Scans the characters from byte `offset` on. Every step takes at least one character, so a
number of steps equal to the number of characters is enough. -/
def scanFrom : Nat → Nat → List Char → Except ParseFailure (List Token)
  | 0, _, _ => .ok []
  | _ + 1, _, [] => .ok []
  | steps + 1, offset, c :: cs =>
    if Text.isBlank c then
      scanFrom steps (offset + c.utf8Size) cs
    else if startsWord c then
      let word := c :: cs.takeWhile continuesWord
      let rest := cs.dropWhile continuesWord
      let token := spelled (ofWord (String.ofList word)) offset word
      (scanFrom steps token.span.stop rest).map (token :: ·)
    else
      match symbolAt? (c :: cs) with
      | some (symbol, more) =>
        let token := spelled symbol offset (c :: cs.take more)
        (scanFrom steps token.span.stop (cs.drop more)).map (token :: ·)
      | none => .error (.spanning ⟨offset, offset + c.utf8Size⟩ (.unknownCharacter c))

/-- The tokens of a text, or the first character that belongs to none. -/
def scan (text : String) : Except ParseFailure (List Token) :=
  scanFrom text.toList.length 0 text.toList

end Token

end NaturalDeduction
