/-
  White space and letter case in sentences, rule names, frame headers and rows.

  One table decides everywhere what counts as blank: the characters with the
  Unicode property White_Space. `trim` cuts them from both ends of a text,
  `isBlankText` says that a text holds nothing else, and `squeeze` drops all
  of them, which is how two texts are compared up to spacing.

  Names of rules and of headers are ASCII words, so only ASCII letters have a
  case here; every other character is equal to itself alone.
-/

namespace NaturalDeduction.Text

/-! ## The table -/

/-- The ranges of code points with the property White_Space, in order. -/
def blankRanges : List (Nat × Nat) :=
  [(0x09, 0x0D), (0x20, 0x20), (0x85, 0x85), (0xA0, 0xA0), (0x1680, 0x1680), (0x2000, 0x200A),
   (0x2028, 0x2029), (0x202F, 0x202F), (0x205F, 0x205F), (0x3000, 0x3000)]

/-- A character is blank when its code point lies in one of the ranges. -/
def isBlank (c : Char) : Bool :=
  blankRanges.any fun range => range.1 ≤ c.toNat && c.toNat ≤ range.2

/-- No printable character of ASCII is in the table. -/
theorem isBlank_eq_false_of_printable {c : Char} (hlow : 0x20 < c.toNat) (hhigh : c.toNat < 0x7F) :
    isBlank c = false := by
  simp only [isBlank, blankRanges, List.any_cons, List.any_nil, Bool.or_false, Bool.or_eq_false_iff,
    Bool.and_eq_false_iff, decide_eq_false_iff_not]
  omega

/-! ## Cutting blank characters away -/

/-- The characters without the blank ones at either end. -/
def trimChars (cs : List Char) : List Char :=
  ((cs.dropWhile isBlank).reverse.dropWhile isBlank).reverse

/-- The text without the blank characters at either end. -/
def trim (text : String) : String :=
  String.ofList (trimChars text.toList)

/-- A text is blank when all its characters are. -/
def isBlankText (text : String) : Bool :=
  text.toList.all isBlank

/-- The text without any blank character. -/
def squeeze (text : String) : String :=
  String.ofList (text.toList.filter fun c => !isBlank c)

@[simp] theorem trimChars_nil : trimChars [] = [] := rfl

/-! ## Names up to case -/

/-- Whether two texts are equal up to the case of ASCII letters. -/
def sameName (a b : String) : Bool :=
  a.toList.map Char.toLower == b.toList.map Char.toLower

@[simp] theorem sameName_self (a : String) : sameName a a = true := by
  simp [sameName]

end NaturalDeduction.Text
