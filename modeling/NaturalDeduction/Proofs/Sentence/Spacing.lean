/-
  Spelling and spacing.

  A wording of a list of symbols chooses one of the spellings for each of them,
  and white space between and around these. Nothing has to stand between two
  spellings unless the first is a word and the second goes on like one: another
  word, or `_|_` with its underscore. Every wording is scanned to the symbols
  that it was made from, so two wordings of the same symbols are the same to the
  reader.
-/

import Mathlib.Data.List.Chain
import NaturalDeduction.Proofs.Sentence.Lexeme
import NaturalDeduction.Proofs.Sentence.Symbolwise

namespace NaturalDeduction

open Token

/-! ## Wordings -/

/-- A symbol in a text: one of its spellings, and the white space behind it. -/
structure Piece where
  symbol : Symbol
  spelling : String
  gap : String
  spells : Lexeme spelling.toList symbol
  blank : Text.isBlankText gap = true

namespace Piece

/-- White space stands behind a word if the next piece is another word or `_|_`. -/
def Apart (piece next : Piece) : Prop :=
  IsWord piece.spelling.toList → IsWord next.spelling.toList ∨ next.spelling = "_|_" →
    piece.gap ≠ ""

instance : DecidableRel Apart := fun piece next =>
  inferInstanceAs (Decidable (IsWord piece.spelling.toList →
    IsWord next.spelling.toList ∨ next.spelling = "_|_" → piece.gap ≠ ""))

/-- The text of pieces that stand side by side. -/
def join : List Piece → String
  | [] => ""
  | piece :: pieces => piece.spelling ++ (piece.gap ++ join pieces)

end Piece

/-- Pieces behind some white space, with no two of them running into each other. -/
structure Wording where
  lead : String
  pieces : List Piece
  blank : Text.isBlankText lead = true
  apart : pieces.IsChain Piece.Apart

namespace Wording

/-- What is written. -/
def text (wording : Wording) : String :=
  wording.lead ++ Piece.join wording.pieces

/-- The symbols that are written. -/
def symbols (wording : Wording) : List Symbol :=
  wording.pieces.map Piece.symbol

end Wording

/-! ## Ends of words -/

namespace Token

variable {cs lexeme : List Char} {gap : String} {symbol : Symbol} {symbols : List Symbol}

/-- White space in front makes no difference. -/
theorem Spells.blanks (h : Spells cs symbols) (hgap : Text.isBlankText gap = true) :
    Spells (gap.toList ++ cs) symbols := by
  have hblank := List.all_eq_true.1 hgap
  generalize gap.toList = chars at hblank ⊢
  induction chars with
  | nil => exact h
  | cons c chars ih =>
    obtain ⟨hc, hchars⟩ := List.forall_mem_cons.1 hblank
    exact (ih hchars).blank hc

/-- White space ends a word. -/
theorem endsWord_of_blank (hne : gap ≠ "") (hgap : Text.isBlankText gap = true)
    (cs : List Char) : EndsWord (gap.toList ++ cs) := by
  have hblank := List.all_eq_true.1 hgap
  cases hchars : gap.toList with
  | nil => exact absurd (String.toList_eq_nil_iff.1 hchars) hne
  | cons c gap =>
    refine endsWord_cons (Bool.eq_false_iff.2 fun hcontinues => ?_) _
    have hc := hblank c (hchars ▸ .head _)
    rw [isBlank_eq_false_of_continuesWord hcontinues] at hc
    cases hc

/-- No mark but `_|_` goes on with a word. -/
theorem Lexeme.endsWord (h : Lexeme lexeme symbol) (hword : ¬ IsWord lexeme)
    (hfalsum : lexeme ≠ "_|_".toList) (cs : List Char) : EndsWord (lexeme ++ cs) := by
  have hmarks : ∀ entry ∈ marks, entry.1 = "_|_" ∨
      entry.1.toList.head?.any continuesWord = false := by
    decide +kernel
  have hends : lexeme.head?.any continuesWord = false := by
    cases h with
    | mark hmem =>
      rcases hmarks _ hmem with rfl | hends
      · exact absurd rfl hfalsum
      · exact hends
    | connectiveWord hmem => exact absurd (isWord_of_mem_connectiveWords _ hmem).1 hword
    | name hname => exact absurd (isWord_of_isName hname).1 hword
  cases lexeme with
  | nil => exact absurd rfl h.ne_nil
  | cons c others => exact endsWord_cons (by simpa using hends) _

end Token

/-! ## Scanning a wording -/

namespace Piece

variable {piece : Piece} {pieces : List Piece}

/-- What stands behind a word ends it. -/
theorem endsWord_behind (h : (piece :: pieces).IsChain Apart)
    (hword : IsWord piece.spelling.toList) :
    EndsWord (piece.gap.toList ++ (join pieces).toList) := by
  by_cases hgap : piece.gap = ""
  · rw [hgap]
    cases pieces with
    | nil => simp [EndsWord, join]
    | cons next others =>
      -- Without a gap the next piece is a mark.
      have hapart := (List.isChain_cons_cons.1 h).1 hword
      have hnext : ¬ IsWord next.spelling.toList := fun hnext => hapart (.inl hnext) hgap
      have hfalsum : next.spelling.toList ≠ "_|_".toList := fun heq =>
        hapart (.inr (String.toList_inj.1 heq)) hgap
      rw [join, String.toList_append]
      exact next.spells.endsWord hnext hfalsum _
  · exact endsWord_of_blank hgap piece.blank _

/-- Pieces spell their symbols. -/
theorem spells_join (h : pieces.IsChain Apart) :
    Spells (join pieces).toList (pieces.map Piece.symbol) := by
  induction pieces with
  | nil => exact spells_nil
  | cons piece pieces ih =>
    have hothers := (ih h.of_cons).blanks piece.blank
    rw [join, String.toList_append, String.toList_append]
    exact piece.spells.spells (endsWord_behind h) hothers

end Piece

namespace Wording

/-- Scanning a wording gives tokens for its symbols. -/
theorem scan_text (wording : Wording) :
    ∃ tokens, scan wording.text = .ok tokens ∧ tokens.map Token.symbol = wording.symbols := by
  have hspells := (Piece.spells_join wording.apart).blanks wording.blank
  rw [← String.toList_append] at hspells
  exact hspells _ 0 (Nat.le_refl _)

/-- Spelling and spacing do not matter. A wording is scanned to the symbols that are written, and
two wordings of the same symbols are read to the same sentence, or both to none, or are both
rejected with the same message. -/
theorem scan_and_read_by_symbols (wording : Wording) :
    (∃ tokens, scan wording.text = .ok tokens ∧ tokens.map Token.symbol = wording.symbols) ∧
      ∀ other : Wording, other.symbols = wording.symbols →
        (Sentence.read other.text).mapError ParseFailure.message =
          (Sentence.read wording.text).mapError ParseFailure.message := by
  refine ⟨wording.scan_text, fun other hsymbols => ?_⟩
  obtain ⟨tokens, hscan, htokens⟩ := wording.scan_text
  obtain ⟨tokens', hscan', htokens'⟩ := other.scan_text
  refine Sentence.read_message_eq hscan' hscan (Sentence.sameSymbols_of_map_eq ?_)
  rw [htokens', htokens, hsymbols]

/-- White space stands behind the words when `or` and `_|_` are written, and nowhere when `∨` and
`⊥` are. -/
theorem scan_and_read_by_symbols_ascii :
    ∃ wording other : Wording, wording.text = " P or _|_->Q" ∧ other.text = "P∨⊥→\tQ\n" ∧
      other.symbols = wording.symbols ∧
      (Sentence.read other.text).mapError ParseFailure.message =
        (Sentence.read wording.text).mapError ParseFailure.message := by
  let wording : Wording := ⟨" ", [⟨.word "P", "P", " ", .name (by decide), by decide⟩,
    ⟨.or, "or", " ", .connectiveWord (by decide), by decide⟩,
    ⟨.falsum, "_|_", "", .mark (by decide), by decide⟩,
    ⟨.implies, "->", "", .mark (by decide), by decide⟩,
    ⟨.word "Q", "Q", "", .name (by decide), by decide⟩], by decide, by decide⟩
  let other : Wording := ⟨"", [⟨.word "P", "P", "", .name (by decide), by decide⟩,
    ⟨.or, "∨", "", .mark (by decide), by decide⟩,
    ⟨.falsum, "⊥", "", .mark (by decide), by decide⟩,
    ⟨.implies, "→", "\t", .mark (by decide), by decide⟩,
    ⟨.word "Q", "Q", "\n", .name (by decide), by decide⟩], by decide, by decide⟩
  exact ⟨wording, other, by decide, by decide, rfl, (scan_and_read_by_symbols wording).2 other rfl⟩

end Wording

end NaturalDeduction
