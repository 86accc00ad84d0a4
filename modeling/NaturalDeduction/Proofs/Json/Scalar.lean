/-
  Reading strings and whole numbers back.

  A string is read character by character, each of them from its escape, so one
  lemma about a character in front of the rest gives the whole string. A whole
  number is read as far as digits go, which is why what follows it must not go
  on with a numeral.
-/

import Mathlib.Tactic.Common
import NaturalDeduction.Json.Printer
import NaturalDeduction.Json.Reader

namespace NaturalDeduction.Json

open Text

variable {c : Char} {cs rest : List Char}

/-! ## Strings -/

section

variable {text : List Char} (hbody : stringBody? none cs = some (some text, rest))
include hbody

theorem stringBody?_short {letter : Char} (hletter : letter ≠ 'u')
    (h : shortEscape? letter = some c) :
    stringBody? none ('\\' :: letter :: cs) = some (some (c :: text), rest) := by
  rw [stringBody?]
  · simp [h, hbody]
  · simp_all

theorem stringBody?_plain (hquote : c ≠ '"') (hbackslash : c ≠ '\\') (hspace : 0x20 ≤ c.toNat) :
    stringBody? none (c :: cs) = some (some (c :: text), rest) := by
  rw [stringBody?]
  · have hvisible : ¬ c.toNat < 0x20 := by omega
    simp [hbody, hbackslash, hvisible]
  · simp_all
  · simp_all
  · simp_all

theorem stringBody?_hexadecimal (hc : c.toNat < 0x20) :
    stringBody? none ('\\' :: 'u' :: '0' :: '0' :: Hexadecimal.digit (c.toNat / 16) ::
      Hexadecimal.digit (c.toNat % 16) :: cs) = some (some (c :: text), rest) := by
  have hzero : Hexadecimal.value? '0' = some 0 := by decide
  have hread : Hexadecimal.read? ['0', '0', Hexadecimal.digit (c.toNat / 16),
      Hexadecimal.digit (c.toNat % 16)] = some c.toNat := by
    simp only [Hexadecimal.read?, Hexadecimal.readOnto?, hzero,
      Hexadecimal.value?_digit (show c.toNat / 16 < 16 by omega),
      Hexadecimal.value?_digit (show c.toNat % 16 < 16 by omega)]
    exact congrArg some (by omega)
  have hhigh : isHighSurrogate c.toNat = false := by
    rw [isHighSurrogate, Bool.and_eq_false_iff, decide_eq_false_iff_not]
    exact .inl (by omega)
  have hlow : isLowSurrogate c.toNat = false := by
    rw [isLowSurrogate, Bool.and_eq_false_iff, decide_eq_false_iff_not]
    exact .inl (by omega)
  rw [stringBody?]
  simp [hread, hhigh, hlow, hbody]

/-- A character is read back from the way it is written in a string. -/
theorem stringBody?_escape (c : Char) :
    stringBody? none (escape c ++ cs) = some (some (c :: text), rest) := by
  have hshort : ∀ letter : Char, letter ≠ 'u' → shortEscape? letter = some c →
      stringBody? none (['\\', letter] ++ cs) = some (some (c :: text), rest) :=
    fun letter hletter h => stringBody?_short hbody hletter h
  have hnat : ∀ n, c.toNat = n → c = Char.ofNat n := fun n h => by
    rw [← h, Char.ofNat_toNat]
  unfold escape
  split
  · rename_i h
    exact hshort '"' (by decide) (by simp [shortEscape?, h])
  split
  · rename_i h
    exact hshort '\\' (by decide) (by simp [shortEscape?, h])
  split
  · rename_i h
    exact hshort 'b' (by decide) (by rw [hnat _ h]; rfl)
  split
  · rename_i h
    exact hshort 't' (by decide) (by rw [hnat _ h]; rfl)
  split
  · rename_i h
    exact hshort 'n' (by decide) (by rw [hnat _ h]; rfl)
  split
  · rename_i h
    exact hshort 'f' (by decide) (by rw [hnat _ h]; rfl)
  split
  · rename_i h
    exact hshort 'r' (by decide) (by rw [hnat _ h]; rfl)
  split
  · rename_i h
    exact stringBody?_hexadecimal hbody h
  · rename_i hquote hbackslash _ _ _ _ _ hspace
    exact stringBody?_plain hbody hquote hbackslash (Nat.le_of_not_lt hspace)

end

/-- The characters of a string are read back, up to the closing quote. -/
theorem stringBody?_flatMap_escape (text rest : List Char) :
    stringBody? none (text.flatMap escape ++ '"' :: rest) = some (some text, rest) := by
  induction text with
  | nil => simp [stringBody?]
  | cons c text ih =>
    rw [List.flatMap_cons, List.append_assoc]
    exact stringBody?_escape ih c

/-! ## Digits -/

/-- The text does not go on with a numeral that stands before it. -/
def EndsNumeral (rest : List Char) : Prop :=
  ∀ c ∈ rest.head?, c.isDigit = false ∧ c ≠ '.' ∧ c ≠ 'e' ∧ c ≠ 'E'

theorem digitsValue_toDigits (n : Nat) : digitsValue (Nat.toDigits 10 n) = n := by
  have h := @Nat.ofDigitChars_ten_toDigits n
  rw [Nat.ofDigitChars_eq_foldl] at h
  rw [digitsValue]
  simpa only [Nat.mul_comm] using h

/-- The digits of a number begin with a zero only when the number is zero. -/
theorem exists_toDigits_cons {n : Nat} (h : 0 < n) :
    ∃ c cs, Nat.toDigits 10 n = c :: cs ∧ c ≠ '0' := by
  induction n using Nat.strongRecOn with
  | ind n ih =>
    by_cases hlt : n < 10
    · refine ⟨n.digitChar, [], Nat.toDigits_of_lt_base hlt, ?_⟩
      have : n = 1 ∨ n = 2 ∨ n = 3 ∨ n = 4 ∨ n = 5 ∨ n = 6 ∨ n = 7 ∨ n = 8 ∨ n = 9 := by omega
      rcases this with rfl | rfl | rfl | rfl | rfl | rfl | rfl | rfl | rfl <;> decide
    · obtain ⟨c, cs, hdigits, hc⟩ := ih (n / 10) (by omega) (by omega)
      refine ⟨c, cs ++ [(n % 10).digitChar], ?_, hc⟩
      rw [Nat.toDigits_of_base_le (by decide) (Nat.le_of_not_lt hlt), hdigits, List.cons_append]

theorem exists_isDigit_cons (n : Nat) :
    ∃ c cs, Nat.toDigits 10 n = c :: cs ∧ c.isDigit = true := by
  obtain ⟨c, cs, hdigits⟩ := List.exists_cons_of_ne_nil (@Nat.toDigits_ne_nil n 10)
  have hmem : c ∈ Nat.toDigits 10 n := hdigits ▸ List.mem_cons_self
  exact ⟨c, cs, hdigits, Nat.isDigit_of_mem_toDigits (by decide) (by decide) hmem⟩

theorem takeWhile_isDigit (n : Nat) (h : EndsNumeral rest) :
    (Nat.toDigits 10 n ++ rest).takeWhile Char.isDigit = Nat.toDigits 10 n ∧
      (Nat.toDigits 10 n ++ rest).dropWhile Char.isDigit = rest := by
  have hdigits : ∀ c ∈ Nat.toDigits 10 n, c.isDigit = true := fun c hc =>
    Nat.isDigit_of_mem_toDigits (by decide) (by decide) hc
  have hrest : rest.takeWhile Char.isDigit = [] ∧ rest.dropWhile Char.isDigit = rest := by
    cases rest with
    | nil => exact ⟨rfl, rfl⟩
    | cons c cs =>
      have hc : ¬ c.isDigit = true := by rw [(h c rfl).1]; decide
      exact ⟨List.takeWhile_cons_of_neg hc, List.dropWhile_cons_of_neg hc⟩
  rw [List.takeWhile_append_of_pos hdigits, List.dropWhile_append_of_pos hdigits, hrest.1, hrest.2,
    List.append_nil]
  exact ⟨rfl, rfl⟩

/-! ## Whole numbers -/

theorem wholeAt?_toDigits (n : Nat) (h : EndsNumeral rest) :
    wholeAt? (Nat.toDigits 10 n ++ rest) = some (Nat.toDigits 10 n, rest) := by
  rcases Nat.eq_zero_or_pos n with rfl | hpos
  · rw [Nat.toDigits_zero]
    cases rest with
    | nil => rfl
    | cons c cs =>
      have hc : c.isDigit = false := (h c rfl).1
      simp [wholeAt?, hc]
  · obtain ⟨c, cs, hdigits, hc⟩ := exists_toDigits_cons hpos
    obtain ⟨htake, hdrop⟩ := takeWhile_isDigit n h
    have hwhole : wholeAt? (Nat.toDigits 10 n ++ rest) = digitsAt? (Nat.toDigits 10 n ++ rest) := by
      rw [hdigits, List.cons_append, wholeAt?]
      exact fun _ heq => hc (List.cons.inj heq).1
    rw [hwhole, digitsAt?, htake, hdrop, hdigits]

theorem fractionAt?_none (h : EndsNumeral rest) : fractionAt? rest = some (none, rest) := by
  cases rest with
  | nil => rfl
  | cons c cs =>
    have hpoint : c ≠ '.' := (h c rfl).2.1
    rw [fractionAt?]
    exact fun _ heq => hpoint (List.cons.inj heq).1

theorem exponentAt?_none (h : EndsNumeral rest) : exponentAt? rest = some (none, rest) := by
  cases rest with
  | nil => rfl
  | cons c cs =>
    have hexponent : ¬ (c = 'e' ∨ c = 'E') := not_or.2 (h c rfl).2.2
    unfold exponentAt?
    exact if_neg hexponent

theorem numeralAt?_toDigits (n : Nat) (h : EndsNumeral rest) :
    numeralAt? (Nat.toDigits 10 n ++ rest) =
      some (⟨false, Nat.toDigits 10 n, none, none⟩, rest) := by
  have hwhole := wholeAt?_toDigits n h
  obtain ⟨c, cs, hdigits, hc⟩ := exists_isDigit_cons n
  have hsign : c ≠ '-' := by
    rintro rfl
    revert hc
    decide
  rw [hdigits, List.cons_append] at hwhole ⊢
  simp [numeralAt?, hsign, hwhole, fractionAt?_none h, exponentAt?_none h]

theorem numeralAt?_negative (n : Nat) (h : EndsNumeral rest) :
    numeralAt? ('-' :: (Nat.toDigits 10 n ++ rest)) =
      some (⟨true, Nat.toDigits 10 n, none, none⟩, rest) := by
  simp [numeralAt?, wholeAt?_toDigits n h, fractionAt?_none h, exponentAt?_none h]

end NaturalDeduction.Json
