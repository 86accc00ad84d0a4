/-
  The heads of frames.

  A head is read line by line, and a line ends at its line feed, so what is read
  of a head hangs on where its line feeds stand. A head that was written gives
  the length that was written; one that is cut off gives no length, or the same
  length with nothing behind it.
-/

import Mathlib.Data.Bool.AllAny
import Mathlib.Data.List.Infix
import NaturalDeduction.Checker.Frame
import NaturalDeduction.Proofs.Json.Scalar

namespace NaturalDeduction

open Text

/-! ## Blank ends -/

namespace Text

theorem trimChars_append {before cs after : List Char} (hbefore : ∀ c ∈ before, isBlank c = true)
    (hafter : ∀ c ∈ after, isBlank c = true) (hfirst : ∀ c ∈ cs.head?, isBlank c = false)
    (hlast : ∀ c ∈ cs.getLast?, isBlank c = false) : trimChars (before ++ cs ++ after) = cs := by
  -- Nothing is dropped from a list that does not begin with a blank character.
  have hkeep : ∀ {cs : List Char}, (∀ c ∈ cs.head?, isBlank c = false) →
      cs.dropWhile isBlank = cs := by
    intro cs h
    cases cs with
    | nil => rfl
    | cons c cs => exact List.dropWhile_cons_of_neg (by simp [h c rfl])
  rw [trimChars, List.append_assoc, List.dropWhile_append_of_pos hbefore]
  cases cs with
  | nil =>
    have hnone : after.dropWhile isBlank = [] := by
      rw [← List.append_nil after, List.dropWhile_append_of_pos hafter, List.dropWhile_nil]
    rw [List.nil_append, hnone]
    rfl
  | cons c cs =>
    rw [List.cons_append, List.dropWhile_cons_of_neg (by simp [hfirst c rfl]), ← List.cons_append,
      List.reverse_append,
      List.dropWhile_append_of_pos fun c hc => hafter c (List.mem_reverse.1 hc),
      hkeep (by rwa [List.head?_reverse]), List.reverse_reverse]

theorem toNat_of_isDigit {c : Char} (h : c.isDigit = true) : 48 ≤ c.toNat ∧ c.toNat ≤ 57 := by
  simp only [Char.isDigit, Bool.and_eq_true, decide_eq_true_eq] at h
  exact ⟨UInt32.le_iff_toNat_le.1 h.1, UInt32.le_iff_toNat_le.1 h.2⟩

theorem isBlank_eq_false_of_isDigit {c : Char} (h : c.isDigit = true) : isBlank c = false := by
  have hbounds := toNat_of_isDigit h
  exact isBlank_eq_false_of_printable (by omega) (by omega)

end Text

/-! ## Counts -/

namespace Text

theorem readDigits_append (value : Nat) (cs others : List Char) :
    readDigits value (cs ++ others) = (readDigits value cs).bind (readDigits · others) := by
  induction cs generalizing value with
  | nil => rfl
  | cons c cs ih =>
    simp only [List.cons_append, readDigits]
    split
    · split
      · exact ih _
      · rfl
    · rfl

theorem readDigits_digitChar {value digit : Nat} (hdigit : digit < 10)
    (h : value * 10 + digit < Word.limit 64) :
    readDigits value [digit.digitChar] = .ok (value * 10 + digit) := by
  have hchar : digit.digitChar.isDigit = true ∧ digit.digitChar.toNat - '0'.toNat = digit := by
    clear h
    revert digit
    decide
  simp only [readDigits, hchar.1, hchar.2, if_true, h]

theorem readDigits_toDigits {n : Nat} (h : n < Word.limit 64) :
    readDigits 0 (Nat.toDigits 10 n) = .ok n := by
  induction n using Nat.strongRecOn with
  | ind n ih =>
    by_cases hlt : n < 10
    · rw [Nat.toDigits_of_lt_base hlt, readDigits_digitChar hlt (by omega)]
      simp
    · -- All digits but the last one spell the tenth of the number.
      have htenth := ih (n / 10) (by omega) (by omega)
      have hlast : n / 10 * 10 + n % 10 = n := by omega
      rw [Nat.toDigits_of_base_le (by decide) (Nat.le_of_not_lt hlt), readDigits_append, htenth,
        Except.bind, readDigits_digitChar (Nat.mod_lt n (by decide)) (by omega), hlast]

/-- A count is read back from its decimal digits. -/
theorem readCount_toString {n : Nat} (h : n < Word.limit 64) : readCount (toString n) = .ok n := by
  obtain ⟨c, cs, hdigits, hc⟩ := Json.exists_isDigit_cons n
  have hread := readDigits_toDigits h
  rw [hdigits] at hread
  have hplus : c ≠ '+' := by
    rintro rfl
    revert hc
    decide
  rw [readCount, Nat.toString_eq_ofList_toDigits, String.toList_ofList, hdigits]
  simpa [hplus] using hread

end Text

namespace Frame

variable {line rest : List UInt8} {length? next : Option Nat}

/-! ## Lines of bytes -/

theorem splitLine_of_not_mem (h : lineFeed ∉ line) : splitLine line = (line, []) := by
  induction line with
  | nil => rfl
  | cons byte line ih =>
    rw [List.mem_cons, not_or] at h
    rw [splitLine, if_neg (Ne.symm h.1), ih h.2]

theorem splitLine_append_lineFeed (h : lineFeed ∉ line) (rest : List UInt8) :
    splitLine (line ++ lineFeed :: rest) = (line ++ [lineFeed], rest) := by
  induction line with
  | nil => rw [List.nil_append, splitLine, if_pos rfl, List.nil_append]
  | cons byte line ih =>
    rw [List.mem_cons, not_or] at h
    rw [List.cons_append, splitLine, if_neg (Ne.symm h.1), ih h.2, List.cons_append]

/-- The bytes of ASCII characters hold a line feed only where there is one in the text. -/
theorem lineFeed_not_mem_encode {text : String}
    (h : ∀ c ∈ text.toList, c.toNat < 128 ∧ c ≠ '\n') : lineFeed ∉ Utf8.encode text := by
  rw [Utf8.encode_eq_flatMap, List.mem_flatMap]
  rintro ⟨c, hc, hmem⟩
  obtain ⟨hascii, hne⟩ := h c hc
  have hsize : c.utf8Size = 1 := by
    rw [Char.utf8Size_eq_one_iff]
    exact UInt32.le_iff_toNat_le.2 (Nat.le_of_lt_succ hascii)
  rw [String.utf8EncodeChar_eq_singleton hsize, List.mem_singleton] at hmem
  -- An ASCII character is its own byte.
  have hval : c.toNat = 10 := by
    have hbyte := congrArg UInt8.toNat hmem
    rw [UInt32.toNat_toUInt8, Char.toNat_val, Nat.mod_eq_of_lt (by omega)] at hbyte
    exact hbyte.symm
  exact hne (Char.toNat_inj.1 hval)

/-! ## Reading line by line -/

theorem readHead_eq_of_ne_nil {bytes : List UInt8} (h : bytes ≠ []) (length? : Option Nat) :
    readHead length? bytes =
      match Utf8.decode? (splitLine bytes).1 with
      | none => .error .undecodableHead
      | some line =>
        if isBlankText line then .ok (length?, (splitLine bytes).2)
        else (lengthAfter length? (trim line)).bind (readHead · (splitLine bytes).2) := by
  obtain ⟨byte, bytes, rfl⟩ := List.exists_cons_of_ne_nil h
  rw [readHead]
  split
  · simp only [*]
  · split
    · simp [*]
    · split <;> simp [*, Except.bind]

/-- A line that is not blank is read, and the head goes on behind its line feed. -/
theorem readHead_line {text : String} (hline : lineFeed ∉ line)
    (hdecode : Utf8.decode? (line ++ [lineFeed]) = some text) (hblank : isBlankText text = false)
    (hlength : lengthAfter length? (trim text) = .ok next) (rest : List UInt8) :
    readHead length? (line ++ lineFeed :: rest) = readHead next rest := by
  rw [readHead_eq_of_ne_nil (by simp), splitLine_append_lineFeed hline]
  simp only [hdecode, hblank, Bool.false_eq_true, if_false, hlength, Except.bind]

/-- A blank line ends the head. -/
theorem readHead_blank {text : String} (hline : lineFeed ∉ line)
    (hdecode : Utf8.decode? (line ++ [lineFeed]) = some text) (hblank : isBlankText text = true)
    (rest : List UInt8) :
    readHead length? (line ++ lineFeed :: rest) = .ok (length?, rest) := by
  rw [readHead_eq_of_ne_nil (by simp), splitLine_append_lineFeed hline]
  simp only [hdecode, hblank, if_true]

/-- A line that is cut off in front of its line feed is the last one: nothing stands behind it. -/
theorem eq_of_readHead_of_not_mem (hline : lineFeed ∉ line) {found : Option Nat × List UInt8}
    (h : readHead length? line = .ok found) : found = (length?, []) := by
  rcases eq_or_ne line [] with rfl | hne
  · rw [readHead] at h
    cases h
  rw [readHead_eq_of_ne_nil hne, splitLine_of_not_mem hline] at h
  split at h
  · cases h
  · split at h
    · exact (Except.ok.inj h).symm
    · -- Behind a line that is not blank the head would have to go on.
      cases hlength : lengthAfter length? (trim _) with
      | error reason =>
        rw [hlength] at h
        cases h
      | ok next =>
        rw [hlength, Except.bind, readHead] at h
        cases h

/-! ## Written heads -/

/-- The line that gives a length. -/
def lengthLine (length : Nat) : String :=
  lengthHeader ++ ": " ++ toString length

theorem toList_lengthLine (length : Nat) :
    (lengthLine length).toList =
      "Content-Length".toList ++ ':' :: ' ' :: Nat.toDigits 10 length := by
  simp [lengthLine, lengthHeader]

/-- A head is the line of the length and a blank one. -/
theorem head_eq (length : Nat) :
    head length = Utf8.encode (lengthLine length ++ "\r") ++ lineFeed ::
      (Utf8.encode "\r" ++ [lineFeed]) := by
  have hend : Utf8.encode "\r\n\r\n" =
      Utf8.encode "\r" ++ lineFeed :: (Utf8.encode "\r" ++ [lineFeed]) := by decide
  rw [head, Utf8.encode_append, hend, ← List.append_assoc, ← Utf8.encode_append]
  rfl

theorem lineFeed_not_mem_lengthLine (length : Nat) :
    lineFeed ∉ Utf8.encode (lengthLine length ++ "\r") := by
  have hname : ∀ c ∈ "Content-Length".toList, c.toNat < 128 ∧ c ≠ '\n' :=
    List.all_iff_forall_prop.1 (by decide)
  have hend : ∀ c ∈ "\r".toList, c.toNat < 128 ∧ c ≠ '\n' :=
    List.all_iff_forall_prop.1 (by decide)
  refine lineFeed_not_mem_encode fun c hc => ?_
  rw [String.toList_append, toList_lengthLine] at hc
  simp only [List.mem_append, List.mem_cons] at hc
  rcases hc with (hc | rfl | rfl | hc) | hc
  · exact hname c hc
  · decide
  · decide
  · have hbounds := toNat_of_isDigit (Nat.isDigit_of_mem_toDigits (by decide) (by decide) hc)
    refine ⟨by omega, ?_⟩
    rintro rfl
    revert hbounds
    decide
  · exact hend c hc

theorem trim_lengthLine (length : Nat) :
    trim (lengthLine length ++ "\r\n") = lengthLine length := by
  have hchars : trimChars ([] ++ (lengthLine length).toList ++ "\r\n".toList) =
      (lengthLine length).toList := by
    refine trimChars_append (List.forall_mem_nil _)
      (List.all_iff_forall_prop.1 (by decide)) ?_ ?_
    · rw [toList_lengthLine]
      intro c hc
      obtain rfl : 'C' = c := by simpa using hc
      decide
    · -- The last character is the last digit.
      rw [toList_lengthLine]
      intro c hc
      refine isBlank_eq_false_of_isDigit (Nat.isDigit_of_mem_toDigits (n := length) (b := 10)
        (by decide) (by decide) ?_)
      have hdigits : ':' :: ' ' :: Nat.toDigits 10 length =
          [':', ' '] ++ Nat.toDigits 10 length := rfl
      rw [hdigits, ← List.append_assoc, List.getLast?_append_of_ne_nil _ Nat.toDigits_ne_nil] at hc
      exact List.mem_of_getLast? hc
  rw [trim, String.toList_append, ← List.nil_append (lengthLine length).toList, hchars,
    String.ofList_toList]

theorem header?_lengthLine (length : Nat) :
    header? (lengthLine length) = some (lengthHeader, toString length) := by
  have hname : ∀ c ∈ "Content-Length".toList, decide (c ≠ ':') = true :=
    List.all_eq_true.1 (by decide)
  have hvalue : trimChars (' ' :: Nat.toDigits 10 length) = Nat.toDigits 10 length := by
    have hblank : ∀ c ∈ Nat.toDigits 10 length, isBlank c = false := fun c hc =>
      isBlank_eq_false_of_isDigit (Nat.isDigit_of_mem_toDigits (by decide) (by decide) hc)
    have htrim : trimChars ([' '] ++ Nat.toDigits 10 length ++ []) = Nat.toDigits 10 length :=
      trimChars_append (List.all_iff_forall_prop.1 (by decide)) (List.forall_mem_nil _)
        (fun c hc => hblank c (List.mem_of_head? hc)) fun c hc => hblank c (List.mem_of_getLast? hc)
    rwa [List.append_nil] at htrim
  rw [header?, toList_lengthLine, List.dropWhile_append_of_pos hname,
    List.takeWhile_append_of_pos hname, List.dropWhile_cons_of_neg (by decide),
    List.takeWhile_cons_of_neg (by decide), List.append_nil]
  simp only [trim, String.toList_ofList, hvalue, ← Nat.toString_eq_ofList_toDigits]
  rfl

theorem lengthAfter_lengthLine {length : Nat} (h : length < Word.limit 64)
    (length? : Option Nat) : lengthAfter length? (lengthLine length) = .ok (some length) := by
  rw [lengthAfter, header?_lengthLine]
  simp only [sameName_self, if_true, readCount_toString h]

/-- The line of the length is read, and the head goes on behind it. -/
theorem readHead_lengthLine {length : Nat} (h : length < Word.limit 64) (rest : List UInt8) :
    readHead none (Utf8.encode (lengthLine length ++ "\r") ++ lineFeed :: rest) =
      readHead (some length) rest := by
  have hbytes : Utf8.encode (lengthLine length ++ "\r") ++ [lineFeed] =
      Utf8.encode (lengthLine length ++ "\r\n") := by
    simp only [Utf8.encode_append, List.append_assoc]
    rfl
  have hblank : isBlankText (lengthLine length ++ "\r\n") = false := by
    rw [isBlankText, String.toList_append, toList_lengthLine, List.all_append, List.all_append]
    rfl
  refine readHead_line (lineFeed_not_mem_lengthLine length)
    (hbytes ▸ Utf8.decode?_encode _) hblank ?_
    rest
  rw [trim_lengthLine, lengthAfter_lengthLine h]

/-- A head that was written gives its length. -/
theorem readHead_head {length : Nat} (h : length < Word.limit 64) (rest : List UInt8) :
    readHead none (head length ++ rest) = .ok (some length, rest) := by
  have hdecode : Utf8.decode? (Utf8.encode "\r" ++ [lineFeed]) = some "\r\n" :=
    Utf8.decode?_encode "\r\n"
  rw [head_eq, List.append_assoc, List.cons_append, readHead_lengthLine h, List.append_assoc,
    List.singleton_append]
  exact readHead_blank (by decide) hdecode (by decide) rest

/-! ## Heads that are cut off -/

/-- A list that is cut off ends in its first part, or holds all of it and ends in the second. -/
theorem prefix_append_cases {α : Type} {cut first second : List α} (h : cut <+: first ++ second) :
    cut <+: first ∨ ∃ after, cut = first ++ after ∧ after <+: second := by
  rcases List.prefix_or_prefix_of_prefix h (List.prefix_append first second) with
    hcut | ⟨after, rfl⟩
  · exact .inl hcut
  · exact .inr ⟨after, rfl, (List.prefix_append_right_inj first).1 h⟩

/-- A head that is cut off gives no length, or its length with nothing behind it. -/
theorem eq_of_readHead_cut {length : Nat} (h : length < Word.limit 64) {cut : List UInt8}
    (hcut : cut <+: head length) (hne : cut ≠ head length) {found : Option Nat × List UInt8}
    (hread : readHead none cut = .ok found) : found = (none, []) ∨ found = (some length, []) := by
  have hfree : ∀ {line other : List UInt8}, other <+: line → lineFeed ∉ line → lineFeed ∉ other :=
    fun hother hline hmem => hline (hother.subset hmem)
  rw [head_eq] at hcut hne
  rcases prefix_append_cases hcut with hfirst | ⟨after, rfl, hafter⟩
  · -- The cut is in the line of the length.
    exact .inl (eq_of_readHead_of_not_mem (hfree hfirst (lineFeed_not_mem_lengthLine length)) hread)
  cases after with
  | nil =>
    rw [List.append_nil] at hread
    exact .inl (eq_of_readHead_of_not_mem (lineFeed_not_mem_lengthLine length) hread)
  | cons byte tail =>
    obtain ⟨rfl, htail⟩ := List.cons_prefix_cons.1 hafter
    rw [readHead_lengthLine h] at hread
    -- The cut is in the blank line, in front of its line feed.
    rcases prefix_append_cases htail with hblank | ⟨after, rfl, hend⟩
    · exact .inr (eq_of_readHead_of_not_mem (hfree hblank (by decide)) hread)
    · rcases List.prefix_concat_iff.1 (show after <+: [] ++ [lineFeed] from hend) with rfl | hnil
      · exact absurd rfl hne
      · rw [List.prefix_nil.1 hnil, List.append_nil] at hread
        exact .inr (eq_of_readHead_of_not_mem (by decide) hread)

end Frame

end NaturalDeduction
