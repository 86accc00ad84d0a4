/-
  Reading a sentence from text.

  The grammar has five categories, loosest first: biconditionals and
  implications, both grouping to the right; disjunctions and conjunctions,
  whose chains become one node; and units, which are atoms, constants,
  parenthesised sentences and sentences behind a prefix operator.

  A sentence stands inside another one behind a prefix operator, in
  parentheses, or to the right of `→` or `↔`. Such nesting is limited, and the
  limit is the quantity that the reader recurses on: `readAt` reads a category
  with a given number of levels left, and its parts with one level less.
-/

import NaturalDeduction.Sentence.Basic
import NaturalDeduction.Sentence.Token

namespace NaturalDeduction.Sentence

/-- How deeply sentences may be nested in a text. -/
def maxDepth : Nat := 128

/-- The categories that may stand nested in a sentence. -/
inductive Category where
  | biconditional
  | implication
  | unit
  deriving DecidableEq, Repr

/-- The outcome of reading; a part of a token list is read together with the tokens left. -/
abbrev Reading := Except ParseFailure

/-- Reads a sentence from the head of a token list. -/
abbrev PartReader := List Token → Reading (Sentence × List Token)

/-- Reads a nested part; the span is that of the token that opens the nesting. -/
abbrev NestedReader := Category → Span → PartReader

/-! ## Tokens one at a time -/

/-- The failure of running out of tokens, at the last token of the text. -/
def endedBefore (last : Span) (expected : Expected) : ParseFailure :=
  .spanning last (.endedBefore expected)

/-- Takes one name, asked for as `expected`. -/
def readName (last : Span) (expected : Expected) : List Token → Reading (String × List Token)
  | [] => .error (endedBefore last expected)
  | token :: rest =>
    match token.symbol with
    | .word name => .ok (name, rest)
    | other => .error (.spanning token.span (.foundInstead expected other))

/-- Takes the closing parenthesis of a nested sentence. -/
def readClosing (last : Span) : List Token → Reading (Unit × List Token)
  | [] => .error (endedBefore last .closing)
  | token :: rest =>
    if token.symbol = .closeParen then .ok ((), rest)
    else .error (.spanning token.span (.foundInstead .closing token.symbol))

/-- Takes a predicate's terms up to and including the closing parenthesis. Each round takes two
tokens, so as many rounds as there are tokens are enough. -/
def readTerms (last : Span) : Nat → List Token → Reading (List String × List Token)
  | 0, _ => .error (endedBefore last .term)
  | rounds + 1, tokens => do
    let (name, rest) ← readName last .term tokens
    match rest with
    | [] => .error (endedBefore last .separator)
    | token :: rest =>
      match token.symbol with
      | .comma =>
        let (names, rest) ← readTerms last rounds rest
        return (name :: names, rest)
      | .closeParen => return ([name], rest)
      | other => .error (.spanning token.span (.foundInstead .separator other))

/-! ## One level of the grammar -/

/-- Reads a quantified sentence behind its quantifier. -/
def readQuantified (nested : NestedReader) (last : Span) (build : String → Sentence → Sentence)
    (tokens : List Token) : Reading (Sentence × List Token) := do
  let (name, rest) ← readName last .variableName tokens
  -- The variable counts as the opener of the nesting.
  let opener := (tokens.head?.map Token.span).getD last
  let (body, rest) ← nested .unit opener rest
  return (build name body, rest)

/-- Reads a unit: the shortest complete sentence at the head. -/
def readUnit (nested : NestedReader) (last : Span) : PartReader
  | [] => .error (endedBefore last .sentence)
  | token :: rest =>
    match token.symbol with
    | .not => do
      let (body, rest) ← nested .unit token.span rest
      return (.not body, rest)
    | .forAll => readQuantified nested last .forAll rest
    | .thereExists => readQuantified nested last .thereExists rest
    | .openParen => do
      let (inner, rest) ← nested .biconditional token.span rest
      let ((), rest) ← readClosing last rest
      return (inner, rest)
    | .falsum => .ok (.falsum, rest)
    | .verum => .ok (.verum, rest)
    | .word name =>
      match rest with
      | ⟨.openParen, _⟩ :: rest => do
        let (terms, rest) ← readTerms last rest.length rest
        return (.predicate name terms, rest)
      | _ => .ok (.predicate name [], rest)
    | other => .error (.spanning token.span (.foundInstead .sentence other))

/-- Reads the operands that follow the first one of a chain, each behind the chain's connective.
Each round takes at least that connective. -/
def readMore (connective : Symbol) (readOperand : PartReader) :
    Nat → List Token → Reading (List Sentence × List Token)
  | 0, tokens => .ok ([], tokens)
  | _ + 1, [] => .ok ([], [])
  | rounds + 1, token :: rest =>
    if token.symbol = connective then do
      let (operand, rest) ← readOperand rest
      let (operands, rest) ← readMore connective readOperand rounds rest
      return (operand :: operands, rest)
    else
      .ok ([], token :: rest)

/-- Reads a chain of operands and joins them. -/
def readChain (connective : Symbol) (join : List Sentence → Sentence)
    (readOperand : PartReader) : PartReader := fun tokens => do
  let (first, rest) ← readOperand tokens
  let (more, rest) ← readMore connective readOperand rest.length rest
  return (join (first :: more), rest)

/-- Reads a conjunction of units. -/
def readConjunction (nested : NestedReader) (last : Span) : PartReader :=
  readChain .and conjunction (readUnit nested last)

/-- Reads a disjunction of conjunctions. -/
def readDisjunction (nested : NestedReader) (last : Span) : PartReader :=
  readChain .or disjunction (readConjunction nested last)

/-- Reads a left operand and, behind the connective, a nested right one. -/
def readRight (nested : NestedReader) (connective : Symbol) (category : Category)
    (build : Sentence → Sentence → Sentence) (readLeft : PartReader)
    (tokens : List Token) : Reading (Sentence × List Token) := do
  let (left, rest) ← readLeft tokens
  match rest with
  | token :: rest =>
    if token.symbol = connective then
      let (right, rest) ← nested category token.span rest
      return (build left right, rest)
    else
      return (left, token :: rest)
  | [] => return (left, [])

/-- Reads an implication, or a disjunction that no `→` follows. -/
def readImplication (nested : NestedReader) (last : Span) : PartReader :=
  readRight nested .implies .implication implies (readDisjunction nested last)

/-- Reads a biconditional, or an implication that no `↔` follows. -/
def readBiconditional (nested : NestedReader) (last : Span) : PartReader :=
  readRight nested .iff .biconditional iff (readImplication nested last)

/-- Reads one category, given a reader for what is nested in it. -/
def readCategory (nested : NestedReader) (last : Span) : Category → PartReader
  | .biconditional => readBiconditional nested last
  | .implication => readImplication nested last
  | .unit => readUnit nested last

/-! ## The whole grammar -/

/-- Reads a nested part with the given number of levels left. -/
def readAt (last : Span) : Nat → NestedReader
  | 0, _, opener, _ => .error (.spanning opener .tooDeep)
  | levels + 1, category, _, tokens => readCategory (readAt last levels) last category tokens

/-- Reads a sentence from all of the tokens, of which there is at least one. -/
def ofTokens (first : Token) (more : List Token) : Reading Sentence := do
  let last := ((first :: more).getLast (List.cons_ne_nil _ _)).span
  let (sentence, rest) ← readAt last (maxDepth + 1) .biconditional first.span (first :: more)
  match rest with
  | [] => return sentence
  | token :: _ => .error (.spanning token.span (.leftOver token.symbol))

/-- Reads a text. A blank text holds no sentence, which is not a failure. -/
def read (text : String) : Reading (Option Sentence) := do
  match ← Token.scan text with
  | [] => return none
  | first :: more => return some (← ofTokens first more)

/-- Reads a text that must hold a sentence. -/
def readStrict (text : String) : Reading Sentence := do
  match ← read text with
  | some sentence => return sentence
  | none => .error .blank

end NaturalDeduction.Sentence
