/-
  Texts compared without their white space.

  Dropping the white space of a text leaves its lexemes as they are, unless the
  white space keeps two words apart, as in `∀x P`. So two texts that are the same
  up to white space express the same sentence if it keeps no words apart in
  either of them. Without this they need not: `∀x PQ` and `∀xP Q` are two
  sentences.
-/

import NaturalDeduction.Proofs.Sentence.Phrase

namespace NaturalDeduction

namespace Token

/-- Whether white space stands between two characters of words. -/
def separatesWords : List Char → Bool
  | [] => false
  | c :: cs =>
    (continuesWord c && cs.head?.any Text.isBlank
        && (cs.find? fun d => !Text.isBlank d).any continuesWord)
      || separatesWords cs

/-- The characters that are not blank. -/
abbrev squeezed (cs : List Char) : List Char :=
  cs.filter fun c => !Text.isBlank c

variable {c : Char} {cs lexeme word : List Char} {symbol : Symbol} {symbols : List Symbol}

theorem separatesWords_of_append (before : List Char)
    (h : separatesWords (before ++ cs) = false) : separatesWords cs = false := by
  induction before with
  | nil => exact h
  | cons c before ih =>
    rw [List.cons_append, separatesWords, Bool.or_eq_false_iff] at h
    exact ih h.2

/-! ## Lexemes -/

/-- No lexeme holds white space. -/
theorem Lexeme.squeezed_eq (h : Lexeme lexeme symbol) : squeezed lexeme = lexeme := by
  have hmarks : ∀ entry ∈ marks, squeezed entry.1.toList = entry.1.toList := by decide +kernel
  have hword : ∀ word, IsWord word → squeezed word = word := fun word hword =>
    List.filter_eq_self.2 fun c hc => by
      rw [isBlank_eq_false_of_continuesWord (hword.continuesWord c hc)]
      rfl
  cases h with
  | mark hmem => exact hmarks _ hmem
  | connectiveWord hmem => exact hword _ (isWord_of_mem_connectiveWords _ hmem).1
  | name hname => exact hword _ (isWord_of_isName hname).1

/-- What follows a word still ends it when white space is dropped, unless there comes another word
behind white space. -/
theorem EndsWord.squeezed (hcs : EndsWord cs) (hc : Token.continuesWord c = true)
    (h : separatesWords (c :: cs) = false) : EndsWord (squeezed cs) := by
  intro d hd
  rw [List.head?_filter] at hd
  rw [separatesWords, Bool.or_eq_false_iff, hc, Bool.true_and] at h
  cases cs with
  | nil => cases hd
  | cons e cs =>
    cases hblank : Text.isBlank e with
    | true => simpa [hblank, Option.mem_def.1 hd] using h.1
    | false =>
      obtain rfl : e = d := by simpa [hblank] using hd
      exact hcs e rfl

/-! ## Texts -/

/-- Without its white space a text spells the same symbols, if the white space keeps no words
apart. -/
theorem Splits.squeezed (h : Splits cs symbols) (hwords : separatesWords cs = false) :
    Spells (squeezed cs) symbols := by
  induction h with
  | done => exact spells_nil
  | blank hc h ih =>
    rw [Token.squeezed, List.filter_cons_of_neg (by simp [hc])]
    exact ih (separatesWords_of_append [_] hwords)
  | @lexeme lexeme cs symbol symbols hlexeme hlongest h ih =>
    have hrest := ih (separatesWords_of_append lexeme hwords)
    have happend : Token.squeezed (lexeme ++ cs) = lexeme ++ Token.squeezed cs := by
      rw [Token.squeezed, List.filter_append]
      exact congrArg (· ++ _) hlexeme.squeezed_eq
    rw [happend]
    refine hlexeme.spells (fun hword => ?_) hrest
    -- What may run into the next word is the last character of this one.
    obtain ⟨before, last, rfl⟩ : ∃ before last, lexeme = before ++ [last] :=
      ⟨_, _, (List.dropLast_append_getLast hlexeme.ne_nil).symm⟩
    have hcontinues : Token.continuesWord last = true := hword.continuesWord last (by simp)
    rw [List.append_assoc] at hwords
    exact (endsWord_of_longest hword hlongest).squeezed hcontinues
      (separatesWords_of_append before hwords)

end Token

namespace Sentence

open Token

variable {text text' : String} {s s' : Sentence} {m n : Nat}

theorem Expresses.squeeze (h : Expresses text s m) (hwords : separatesWords text.toList = false) :
    Expresses (Text.squeeze text) s m := by
  obtain ⟨symbols, hsplits, hderives⟩ := h
  refine ⟨symbols, scan_iff_splits.1 ?_, hderives⟩
  have hspells := hsplits.squeezed hwords
  rw [← String.toList_ofList (l := squeezed text.toList)] at hspells
  exact hspells _ 0 (Nat.le_refl _)

/-- Texts that are the same up to white space express the same sentence, if white space keeps no
words apart in either of them. -/
theorem Expresses.eq_of_squeeze_eq (h : Expresses text s m) (h' : Expresses text' s' n)
    (hwords : separatesWords text.toList = false) (hwords' : separatesWords text'.toList = false)
    (hsqueeze : Text.squeeze text = Text.squeeze text') : s = s' :=
  (h.squeeze hwords).unique (hsqueeze ▸ h'.squeeze hwords')

end Sentence

end NaturalDeduction
