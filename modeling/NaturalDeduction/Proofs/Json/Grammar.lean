/-
  Texts of JSON values.

  `Spells` says which texts stand for a value: white space may stand around
  every item and member, strings are escaped the way they are written here, and
  numbers are whole. Each constructor is one way that the reader goes, so a
  derivation is read by following it, and the reader needs no more steps than
  the text has characters.
-/

import Mathlib.Data.List.DropRight
import NaturalDeduction.Proofs.Json.Scalar

namespace NaturalDeduction.Json

/-! ## The grammar -/

/-- The characters are all white space. -/
def Blank (cs : List Char) : Prop :=
  ∀ c ∈ cs, isSpace c = true

mutual

/-- The characters are a text of the value, without white space around it. -/
inductive Spells : Json → List Char → Prop where
  | nullLiteral : Spells .null ['n', 'u', 'l', 'l']
  | trueLiteral : Spells (.bool true) ['t', 'r', 'u', 'e']
  | falseLiteral : Spells (.bool false) ['f', 'a', 'l', 's', 'e']
  | natural {n : Nat} (h : n < Word.limit 64) : Spells (natural n) (Nat.toDigits 10 n)
  | negative {n : Nat} (hpos : 0 < n) (h : n ≤ Word.limit 63) :
    Spells (.number (.negative n)) ('-' :: Nat.toDigits 10 n)
  | string (text : String) : Spells (.string text) ('"' :: (text.toList.flatMap escape ++ ['"']))
  | noItems : Spells (.array []) ['[', ']']
  | array {items : List Json} {cs : List Char} (h : SpellsItems items cs) :
    Spells (.array items) ('[' :: cs)
  | noMembers : Spells (.object []) ['\x7b', '\x7d']
  | object {members : List (String × Json)} {cs : List Char} (h : SpellsMembers members cs) :
    Spells (.object members) ('\x7b' :: cs)

/-- The characters are items with commas between them, up to the bracket behind the last one. -/
inductive SpellsItems : List Json → List Char → Prop where
  | last {item : Json} {before cs after : List Char} (hbefore : Blank before) (h : Spells item cs)
    (hafter : Blank after) : SpellsItems [item] (before ++ cs ++ after ++ [']'])
  | more {item : Json} {items : List Json} {before cs rest : List Char} (hbefore : Blank before)
    (h : Spells item cs) (hitems : SpellsItems items rest) :
    SpellsItems (item :: items) (before ++ cs ++ ',' :: rest)

/-- The characters are members with commas between them, up to the brace behind the last one. -/
inductive SpellsMembers : List (String × Json) → List Char → Prop where
  | last {key : String} {value : Json} {before blank cs after : List Char}
    (hbefore : Blank before) (hblank : Blank blank) (h : Spells value cs) (hafter : Blank after) :
    SpellsMembers [(key, value)]
      (before ++ '"' :: (key.toList.flatMap escape ++
        '"' :: ':' :: (blank ++ cs ++ after ++ ['\x7d'])))
  | more {key : String} {value : Json} {members : List (String × Json)}
    {before blank cs rest : List Char} (hbefore : Blank before) (hblank : Blank blank)
    (h : Spells value cs) (hmembers : SpellsMembers members rest) :
    SpellsMembers ((key, value) :: members)
      (before ++ '"' :: (key.toList.flatMap escape ++ '"' :: ':' :: (blank ++ cs ++ ',' :: rest)))

end

variable {v : Json} {c : Char} {cs rest blank : List Char} {steps : Nat}

/-! ## White space -/

theorem skipSpace_append (h : Blank blank) (cs : List Char) :
    skipSpace (blank ++ cs) = skipSpace cs := by
  rw [skipSpace, List.dropWhile_append_of_pos h, skipSpace]

theorem skipSpace_cons (hc : isSpace c = false) (cs : List Char) :
    skipSpace (c :: cs) = c :: cs := by
  rw [skipSpace, List.dropWhile_cons_of_neg (by simp [hc])]

theorem skipSpace_skipSpace (cs : List Char) : skipSpace (skipSpace cs) = skipSpace cs := by
  rw [skipSpace, skipSpace, List.dropWhile_idempotent]

/-- White space in front of a value makes no difference to what is read. -/
theorem valueAt?_congr (h : skipSpace cs = skipSpace rest) (steps : Nat) :
    valueAt? steps cs = valueAt? steps rest := by
  cases steps with
  | zero => rw [valueAt?, valueAt?]
  | succ steps => rw [valueAt?, valueAt?, h]

theorem itemsAt?_congr (h : skipSpace cs = skipSpace rest) (steps : Nat) :
    itemsAt? steps cs = itemsAt? steps rest := by
  cases steps with
  | zero => rw [itemsAt?, itemsAt?]
  | succ steps => rw [itemsAt?, itemsAt?, valueAt?_congr h]

theorem membersAt?_congr (h : skipSpace cs = skipSpace rest) (steps : Nat) :
    membersAt? steps cs = membersAt? steps rest := by
  cases steps with
  | zero => rw [membersAt?, membersAt?]
  | succ steps => rw [membersAt?, membersAt?, h]

theorem isSpace_eq_false_of_isDigit (h : c.isDigit = true) : isSpace c = false := by
  have hbound : 48 ≤ c.toNat := by
    simp [Char.isDigit] at h
    exact h.1
  simp only [isSpace, Bool.or_eq_false_iff, beq_eq_false_iff_ne]
  refine ⟨⟨⟨?_, ?_⟩, ?_⟩, ?_⟩ <;> rintro rfl <;> revert hbound <;> decide

/-! ## How texts begin and end -/

/-- The first character of a value tells it from white space and from the end of an array. -/
theorem Spells.exists_cons (h : Spells v cs) :
    ∃ c tail, cs = c :: tail ∧ isSpace c = false ∧ c ≠ ']' := by
  cases h with
  | natural =>
    rename_i n _
    obtain ⟨c, tail, hdigits, hc⟩ := exists_isDigit_cons n
    refine ⟨c, tail, hdigits, isSpace_eq_false_of_isDigit hc, ?_⟩
    rintro rfl
    revert hc
    decide
  | _ => exact ⟨_, _, rfl, by decide, by decide⟩

/-- No closing bracket stands where an item is read. -/
theorem SpellsItems.head_skipSpace {items : List Json} (h : SpellsItems items cs)
    (rest : List Char) : ∀ c ∈ (Json.skipSpace (cs ++ rest)).head?, c ≠ ']' := by
  cases h
  all_goals
    rename_i hbefore hitem _
    obtain ⟨c, tail, rfl, hspace, hc⟩ := hitem.exists_cons
    simp only [List.append_assoc, List.cons_append]
    rw [skipSpace_append hbefore, skipSpace_cons hspace]
    simpa using hc

/-- No closing brace stands where a member is read. -/
theorem SpellsMembers.head_skipSpace {members : List (String × Json)} (h : SpellsMembers members cs)
    (rest : List Char) : ∀ c ∈ (Json.skipSpace (cs ++ rest)).head?, c ≠ '\x7d' := by
  cases h
  all_goals
    rename_i hbefore _ _ _
    simp only [List.append_assoc, List.cons_append]
    rw [skipSpace_append hbefore, skipSpace_cons (by decide)]
    simp

/-- A numeral ends in front of white space and of every symbol that may stand behind a value. -/
theorem endsNumeral_append (h : Blank blank) (hrest : EndsNumeral rest) :
    EndsNumeral (blank ++ rest) := by
  cases blank with
  | nil => exact hrest
  | cons c cs =>
    have hc : isSpace c = true := h c List.mem_cons_self
    intro other hother
    obtain rfl : c = other := by simpa using hother
    simp only [isSpace, Bool.or_eq_true, beq_iff_eq] at hc
    rcases hc with ((rfl | rfl) | rfl) | rfl <;> decide

theorem endsNumeral_cons (hc : c ∈ [',', ']', '\x7d']) (cs : List Char) :
    EndsNumeral (c :: cs) := by
  intro other hother
  obtain rfl : c = other := by simpa using hother
  simp only [List.mem_cons, List.not_mem_nil, or_false] at hc
  rcases hc with rfl | rfl | rfl <;> decide

/-! ## One value -/

theorem valueAt?_numeral {numeral : Numeral} (hc : c = '-' ∨ c.isDigit = true)
    (h : numeralAt? (c :: cs) = some (numeral, rest)) :
    valueAt? (steps + 1) (c :: cs) =
      some ((numeral.number?.map number).getD unrepresentable, rest) := by
  have hspace : isSpace c = false := by
    rcases hc with rfl | hc
    · decide
    · exact isSpace_eq_false_of_isDigit hc
  have hne : ∀ other, other ≠ '-' → other.isDigit = false → c ≠ other := by
    rintro other hsign hother rfl
    rcases hc with rfl | hc
    · exact hsign rfl
    · rw [hc] at hother
      cases hother
  have hbrace := hne '\x7b' (by decide) (by decide)
  have hbracket := hne '[' (by decide) (by decide)
  have hquote := hne '"' (by decide) (by decide)
  have hn := hne 'n' (by decide) (by decide)
  have ht := hne 't' (by decide) (by decide)
  have hf := hne 'f' (by decide) (by decide)
  rw [valueAt?, skipSpace_cons hspace]
  simp [hbrace, hbracket, hquote, hn, ht, hf, h]

theorem valueAt?_natural {n : Nat} (hn : n < Word.limit 64) (hrest : EndsNumeral rest) :
    valueAt? (steps + 1) (Nat.toDigits 10 n ++ rest) = some (natural n, rest) := by
  obtain ⟨c, cs, hdigits, hc⟩ := exists_isDigit_cons n
  have hnumeral := numeralAt?_toDigits n hrest
  have hnumber : (Numeral.number? ⟨false, Nat.toDigits 10 n, none, none⟩) = some (.natural n) := by
    simp [Numeral.number?, digitsValue_toDigits, hn]
  rw [hdigits, List.cons_append] at hnumeral ⊢
  rw [valueAt?_numeral (.inr hc) hnumeral, ← hdigits, hnumber]
  rfl

theorem valueAt?_negative {n : Nat} (hpos : 0 < n) (hn : n ≤ Word.limit 63)
    (hrest : EndsNumeral rest) :
    valueAt? (steps + 1) ('-' :: (Nat.toDigits 10 n ++ rest)) =
      some (.number (.negative n), rest) := by
  have hnumber : (Numeral.number? ⟨true, Nat.toDigits 10 n, none, none⟩) = some (.negative n) := by
    simp [Numeral.number?, digitsValue_toDigits, hpos, hn]
  rw [valueAt?_numeral (.inl rfl) (numeralAt?_negative n hrest), hnumber]
  rfl

theorem valueAt?_string (text : String) (rest : List Char) :
    valueAt? (steps + 1) ('"' :: (text.toList.flatMap escape ++ '"' :: rest)) =
      some (.string text, rest) := by
  rw [valueAt?, skipSpace_cons (by decide)]
  simp [stringBody?_flatMap_escape]

/-- An array that is not empty is read by its items. -/
theorem valueAt?_array {items : List Json} (hcs : ∀ c ∈ (skipSpace cs).head?, c ≠ ']')
    (h : itemsAt? steps cs = some (items, rest)) :
    valueAt? (steps + 1) ('[' :: cs) = some (.array items, rest) := by
  rw [← itemsAt?_congr (skipSpace_skipSpace cs)] at h
  rw [valueAt?, skipSpace_cons (by decide)]
  cases hskip : skipSpace cs with
  | nil => simp_all
  | cons c tail =>
    have hc : c ≠ ']' := hcs c (by rw [hskip]; rfl)
    rw [hskip] at h
    simp [h, hskip, hc]

/-- An object that is not empty is read by its members. -/
theorem valueAt?_object {members? : Option (List (String × Json))}
    (hcs : ∀ c ∈ (skipSpace cs).head?, c ≠ '\x7d')
    (h : membersAt? steps cs = some (members?, rest)) :
    valueAt? (steps + 1) ('\x7b' :: cs) = some (objectOf members?, rest) := by
  rw [← membersAt?_congr (skipSpace_skipSpace cs)] at h
  rw [valueAt?, skipSpace_cons (by decide)]
  cases hskip : skipSpace cs with
  | nil => simp_all
  | cons c tail =>
    have hc : c ≠ '\x7d' := hcs c (by rw [hskip]; rfl)
    rw [hskip] at h
    simp [h, hskip, hc]

/-! ## One item or member -/

theorem itemsAt?_last {item : Json} {after : List Char} (hafter : Blank after)
    (h : valueAt? steps cs = some (item, after ++ ']' :: rest)) :
    itemsAt? (steps + 1) cs = some ([item], rest) := by
  rw [itemsAt?, h]
  simp only [Option.bind_eq_bind, Option.bind_some, skipSpace_append hafter]
  rw [skipSpace_cons (by decide)]
  rfl

theorem itemsAt?_more {item : Json} {items : List Json} {tail : List Char}
    (h : valueAt? steps cs = some (item, ',' :: tail))
    (hitems : itemsAt? steps tail = some (items, rest)) :
    itemsAt? (steps + 1) cs = some (item :: items, rest) := by
  rw [itemsAt?, h]
  simp only [Option.bind_eq_bind, Option.bind_some]
  rw [skipSpace_cons (by decide)]
  simp [hitems]

theorem addMember_toList (key : String) (value : Json) (members : List (String × Json)) :
    addMember (some key.toList) value (some members) = some ((key, value) :: members) := by
  simp [addMember]

/-- A member is read by its key, the colon and the value behind it. -/
theorem membersAt?_key (key : String) {before tail : List Char} (hbefore : Blank before) :
    membersAt? (steps + 1) (before ++ '"' :: (key.toList.flatMap escape ++ '"' :: ':' :: tail)) =
      (valueAt? steps tail).bind fun (value, rest) =>
        match skipSpace rest with
        | ',' :: rest => (membersAt? steps rest).bind fun (members?, rest) =>
            some (addMember (some key.toList) value members?, rest)
        | '\x7d' :: rest => some (addMember (some key.toList) value (some []), rest)
        | _ => none := by
  rw [membersAt?, skipSpace_append hbefore, skipSpace_cons (by decide)]
  simp only [Option.bind_eq_bind, stringBody?_flatMap_escape, Option.bind_some]
  rw [skipSpace_cons (by decide)]
  rfl

/-! ## Reading -/

mutual

/-- A value is read from its text, whatever follows it that no numeral goes on with. -/
theorem Spells.valueAt?_append {v : Json} {cs : List Char} (h : Spells v cs) {steps : Nat}
    (hsteps : cs.length ≤ steps) {rest : List Char} (hrest : EndsNumeral rest) :
    valueAt? steps (cs ++ rest) = some (v, rest) := by
  -- No text is empty, so there is a step to take.
  obtain ⟨steps, rfl⟩ : ∃ more, steps = more + 1 := by
    obtain ⟨c, tail, rfl, -⟩ := h.exists_cons
    exact Nat.exists_eq_add_of_le' (Nat.le_trans (Nat.succ_le_succ (Nat.zero_le _)) hsteps)
  cases h with
  | nullLiteral => rfl
  | trueLiteral => rfl
  | falseLiteral => rfl
  | natural hn => exact valueAt?_natural hn hrest
  | negative hpos hn => exact valueAt?_negative hpos hn hrest
  | string text =>
    rw [List.cons_append, List.append_assoc]
    exact valueAt?_string text rest
  | noItems => rfl
  | noMembers => rfl
  | array hitems =>
    rw [List.length_cons] at hsteps
    have hread := hitems.itemsAt?_append (Nat.le_of_succ_le_succ hsteps) rest
    exact valueAt?_array (hitems.head_skipSpace rest) hread
  | object hmembers =>
    rw [List.length_cons] at hsteps
    have hread := hmembers.membersAt?_append (Nat.le_of_succ_le_succ hsteps) rest
    exact valueAt?_object (hmembers.head_skipSpace rest) hread

/-- Items are read from their text, up to the bracket behind them. -/
theorem SpellsItems.itemsAt?_append {items : List Json} {cs : List Char} (h : SpellsItems items cs)
    {steps : Nat} (hsteps : cs.length ≤ steps) (rest : List Char) :
    itemsAt? steps (cs ++ rest) = some (items, rest) := by
  cases h with
  | last hbefore hitem hafter =>
    simp only [List.length_append, List.length_cons] at hsteps
    obtain ⟨steps, rfl⟩ := Nat.exists_eq_add_of_le' (show 1 ≤ steps by omega)
    simp only [List.append_assoc, List.cons_append, List.nil_append]
    rw [itemsAt?_congr (skipSpace_append hbefore _)]
    have hends := endsNumeral_append hafter (endsNumeral_cons (c := ']') (by decide) rest)
    exact itemsAt?_last hafter (hitem.valueAt?_append (by omega) hends)
  | more hbefore hitem hitems =>
    simp only [List.length_append, List.length_cons] at hsteps
    obtain ⟨steps, rfl⟩ := Nat.exists_eq_add_of_le' (show 1 ≤ steps by omega)
    simp only [List.append_assoc, List.cons_append]
    rw [itemsAt?_congr (skipSpace_append hbefore _)]
    exact itemsAt?_more (hitem.valueAt?_append (by omega) (endsNumeral_cons (by decide) _))
      (hitems.itemsAt?_append (by omega) rest)

/-- Members are read from their text, up to the brace behind them. -/
theorem SpellsMembers.membersAt?_append {members : List (String × Json)} {cs : List Char}
    (h : SpellsMembers members cs) {steps : Nat} (hsteps : cs.length ≤ steps) (rest : List Char) :
    membersAt? steps (cs ++ rest) = some (some members, rest) := by
  cases h with
  | last hbefore hblank hvalue hafter =>
    simp only [List.length_append, List.length_cons] at hsteps
    obtain ⟨steps, rfl⟩ := Nat.exists_eq_add_of_le' (show 1 ≤ steps by omega)
    simp only [List.append_assoc, List.cons_append, List.nil_append]
    have hends := endsNumeral_append hafter (endsNumeral_cons (c := '\x7d') (by decide) rest)
    rw [membersAt?_key _ hbefore, valueAt?_congr (skipSpace_append hblank _),
      hvalue.valueAt?_append (by omega) hends]
    simp only [Option.bind_some, skipSpace_append hafter]
    rw [skipSpace_cons (by decide)]
    simp only [addMember_toList]
  | more hbefore hblank hvalue hmembers =>
    simp only [List.length_append, List.length_cons] at hsteps
    obtain ⟨steps, rfl⟩ := Nat.exists_eq_add_of_le' (show 1 ≤ steps by omega)
    simp only [List.append_assoc, List.cons_append]
    rw [membersAt?_key _ hbefore, valueAt?_congr (skipSpace_append hblank _),
      hvalue.valueAt?_append (by omega) (endsNumeral_cons (by decide) _)]
    simp only [Option.bind_some]
    rw [skipSpace_cons (by decide)]
    simp only [hmembers.membersAt?_append (show _ ≤ steps by omega) rest, Option.bind_some,
      addMember_toList]

end

/-- A text that spells a value is read to that value, whatever white space follows. -/
theorem Spells.readChars?_append (h : Spells v cs) {after : List Char} (hafter : Blank after) :
    Json.readChars? (cs ++ after) = some v := by
  have hends : EndsNumeral (after ++ []) := endsNumeral_append hafter fun _ hc => by cases hc
  have hskip : skipSpace (after ++ []) = [] := skipSpace_append hafter []
  rw [List.append_nil] at hends hskip
  have hsteps : cs.length ≤ 2 * (cs ++ after).length + 2 := by
    rw [List.length_append]
    omega
  have hread := h.valueAt?_append hsteps hends
  rw [Json.readChars?, hread]
  simp only [Option.bind_eq_bind, Option.bind_some, hskip]
  rfl

/-- A text that spells a value is read to that value. -/
theorem Spells.readChars? (h : Spells v cs) : readChars? cs = some v := by
  have hnone : Blank [] := fun _ hc => by cases hc
  have hread := h.readChars?_append hnone
  rwa [List.append_nil] at hread

end NaturalDeduction.Json
