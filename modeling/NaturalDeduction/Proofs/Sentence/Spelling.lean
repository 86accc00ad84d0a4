/-
  The tokens of a rendering.

  `symbols` writes a sentence as connectives, names and parentheses. Scanning
  the rendering of a sentence gives tokens for exactly these, because a name is
  always followed by a character that no name goes on with. In the other
  direction, every word that the scanner finds is a name.
-/

import NaturalDeduction.Proofs.Sentence.Grammar
import NaturalDeduction.Proofs.Success

namespace NaturalDeduction

/-! ## Texts and what they spell -/

namespace Token

/-- Scanning the characters, wherever they stand in a text, gives tokens for the symbols. -/
def Spells (cs : List Char) (symbols : List Symbol) : Prop :=
  ∀ steps offset, cs.length ≤ steps →
    ∃ tokens, scanFrom steps offset cs = .ok tokens ∧ tokens.map Token.symbol = symbols

/-- The characters do not go on with a word that stands before them. -/
def EndsWord (cs : List Char) : Prop :=
  ∀ c ∈ cs.head?, continuesWord c = false

variable {cs : List Char} {symbols : List Symbol} {c : Char}

theorem endsWord_cons (hc : continuesWord c = false) (cs : List Char) : EndsWord (c :: cs) := by
  intro d hd
  obtain rfl : c = d := by simpa using hd
  exact hc

theorem spells_nil : Spells [] [] := by
  intro steps offset _
  refine ⟨[], ?_, rfl⟩
  cases steps <;> rfl

theorem Spells.blank (h : Spells cs symbols) (hc : Text.isBlank c = true) :
    Spells (c :: cs) symbols := by
  intro steps offset hsteps
  cases steps with
  | zero => simp at hsteps
  | succ steps =>
    simp only [scanFrom, hc, if_true]
    exact h steps _ (by simpa using hsteps)

/-- Characters that the scanner takes for a symbol where they stand. -/
theorem Spells.mark (h : Spells cs symbols) (c : Char) (others : List Char) (symbol : Symbol)
    (hblank : Text.isBlank c = false) (hword : startsWord c = false)
    (hc : symbolAt? (c :: (others ++ cs)) = some (symbol, others.length)) :
    Spells (c :: (others ++ cs)) (symbol :: symbols) := by
  intro steps offset hsteps
  cases steps with
  | zero => simp at hsteps
  | succ steps =>
    have hlength : cs.length ≤ steps := by
      simp only [List.length_cons, List.length_append] at hsteps
      omega
    let token := spelled symbol offset (c :: others)
    obtain ⟨tokens, hscan, hsymbols⟩ := h steps token.span.stop hlength
    refine ⟨token :: tokens, ?_, by rw [List.map_cons, hsymbols]; rfl⟩
    simp only [scanFrom, hblank, hword, hc, Bool.false_eq_true, if_false, List.take_left,
      List.drop_left]
    rw [hscan]
    rfl

/-- A character that is a symbol by itself, whatever follows it. -/
theorem Spells.char (h : Spells cs symbols) (c : Char) (symbol : Symbol)
    (hblank : Text.isBlank c = false) (hword : startsWord c = false)
    (hc : ∀ cs, symbolAt? (c :: cs) = some (symbol, 0)) :
    Spells (c :: cs) (symbol :: symbols) :=
  h.mark c [] symbol hblank hword (hc _)

/-- A connective between blanks. -/
theorem Spells.between (h : Spells cs symbols) (c : Char) (symbol : Symbol)
    (hblank : Text.isBlank c = false) (hword : startsWord c = false)
    (hc : ∀ cs, symbolAt? (c :: cs) = some (symbol, 0)) :
    Spells (' ' :: c :: ' ' :: cs) (symbol :: symbols) :=
  ((h.blank (by decide)).char c symbol hblank hword hc).blank (by decide)

/-! ### Words -/

theorem continuesWord_of_startsWord (hc : startsWord c = true) : continuesWord c = true := by
  have hletter : c.isAlpha = true := hc
  simp only [continuesWord, Char.isAlphanum, hletter, Bool.true_or]

theorem isBlank_eq_false_of_continuesWord (hc : continuesWord c = true) :
    Text.isBlank c = false := by
  have hcases : (((decide (65 ≤ c.val ∧ c.val ≤ 90) ||
      decide (97 ≤ c.val) && decide (c.val ≤ 122)) ||
      decide (48 ≤ c.val) && decide (c.val ≤ 57)) || c == '_') = true := hc
  simp only [Bool.or_eq_true, Bool.and_eq_true, decide_eq_true_eq, beq_iff_eq,
    UInt32.le_iff_toNat_le] at hcases
  rcases hcases with hcases | rfl
  · change ((65 ≤ c.toNat ∧ c.toNat ≤ 90) ∨ (97 ≤ c.toNat ∧ c.toNat ≤ 122)) ∨
      (48 ≤ c.toNat ∧ c.toNat ≤ 57) at hcases
    exact Text.isBlank_eq_false_of_printable (by omega) (by omega)
  · decide

theorem isBlank_eq_false_of_startsWord (hc : startsWord c = true) : Text.isBlank c = false :=
  isBlank_eq_false_of_continuesWord (continuesWord_of_startsWord hc)

/-- The names are the words that stand for no connective. -/
theorem isName_iff {name : String} : Sentence.isName name = true ↔
    ∃ first others, name.toList = first :: others ∧ startsWord first = true ∧
      (∀ c ∈ others, continuesWord c = true) ∧ ofWord name = .word name := by
  have hkeyword : ofWord name = .word name ↔ (!Sentence.keywords.contains name) = true := by
    simp only [ofWord, Sentence.keywords, List.contains_eq_mem, Bool.not_eq_true',
      decide_eq_false_iff_not, List.mem_cons, List.not_mem_nil, or_false, not_or]
    split
    · simp_all
    · split
      · simp_all
      · split <;> simp_all
  rw [hkeyword, Sentence.isName]
  cases hchars : name.toList with
  | nil => simp
  | cons first others =>
    simp only [Bool.and_eq_true, List.all_eq_true, List.cons.injEq, and_assoc]
    constructor
    · rintro ⟨hfirst, hothers, hname⟩
      exact ⟨first, others, rfl, rfl, hfirst, hothers, hname⟩
    · rintro ⟨_, _, rfl, rfl, hfirst, hothers, hname⟩
      exact ⟨hfirst, hothers, hname⟩

/-- A letter, and then characters that go on with a word. -/
def IsWord : List Char → Prop
  | [] => False
  | c :: cs => startsWord c = true ∧ ∀ d ∈ cs, continuesWord d = true

instance : DecidablePred IsWord
  | [] => inferInstanceAs (Decidable False)
  | c :: cs => decidable_of_iff ((startsWord c && cs.all continuesWord) = true) (by simp [IsWord])

theorem isWord_of_isName {name : String} (h : Sentence.isName name = true) :
    IsWord name.toList ∧ ofWord name = .word name := by
  obtain ⟨c, others, htext, hc, hothers, hword⟩ := isName_iff.1 h
  exact ⟨htext ▸ ⟨hc, hothers⟩, hword⟩

theorem IsWord.continuesWord {word : List Char} (h : IsWord word) :
    ∀ c ∈ word, continuesWord c = true := by
  cases word with
  | nil => exact h.elim
  | cons first others => exact List.forall_mem_cons.2 ⟨continuesWord_of_startsWord h.1, h.2⟩

/-- A word is read to its end, if what follows does not go on with it. -/
theorem Spells.word (h : Spells cs symbols) {word : List Char} (hword : IsWord word)
    (hcs : EndsWord cs) : Spells (word ++ cs) (ofWord (String.ofList word) :: symbols) := by
  cases word with
  | nil => exact hword.elim
  | cons first others =>
    obtain ⟨hfirst, hothers⟩ := hword
    have hblank := isBlank_eq_false_of_startsWord hfirst
    -- What is taken ends where the word does.
    have htake : (others ++ cs).takeWhile continuesWord = others := by
      rw [List.takeWhile_append_of_pos hothers]
      cases cs with
      | nil => simp
      | cons c cs => simp [hcs c rfl]
    have hdrop : (others ++ cs).dropWhile continuesWord = cs := by
      rw [List.dropWhile_append_of_pos hothers]
      cases cs with
      | nil => rfl
      | cons c cs => simp [hcs c rfl]
    intro steps offset hsteps
    cases steps with
    | zero => simp at hsteps
    | succ steps =>
      let symbol := ofWord (String.ofList (first :: others))
      let token := spelled symbol offset (first :: others)
      have hlength : cs.length ≤ steps := by
        simp only [List.cons_append, List.length_cons, List.length_append] at hsteps
        omega
      obtain ⟨tokens, hscan, hsymbols⟩ := h steps token.span.stop hlength
      refine ⟨token :: tokens, ?_, by rw [List.map_cons, hsymbols]; rfl⟩
      simp only [List.cons_append, scanFrom, hblank, hfirst, Bool.false_eq_true, if_false, if_true,
        htake, hdrop]
      rw [hscan]
      rfl

/-- A name is read to its end, if what follows does not go on with it. -/
theorem Spells.name (h : Spells cs symbols) {name : String} (hname : Sentence.isName name = true)
    (hcs : EndsWord cs) : Spells (name.toList ++ cs) (.word name :: symbols) := by
  obtain ⟨hword, hsymbol⟩ := isWord_of_isName hname
  have hspells := h.word hword hcs
  rwa [String.ofList_toList, hsymbol] at hspells

/-! ### What is scanned -/

/-- The words among the tokens are names. -/
def Named (tokens : List Token) : Prop :=
  ∀ token ∈ tokens, ∀ name, token.symbol = .word name → Sentence.isName name = true

theorem named_cons {token : Token} {tokens : List Token} : Named (token :: tokens) ↔
    (∀ name, token.symbol = .word name → Sentence.isName name = true) ∧ Named tokens :=
  List.forall_mem_cons

theorem symbolAt?_ne_word {symbol : Symbol} {more : Nat}
    (h : symbolAt? cs = some (symbol, more)) (name : String) : symbol ≠ .word name := by
  have hchar : ∀ c, ofChar? c ≠ some (.word name) := by
    intro c
    unfold ofChar?
    split <;> simp
  rintro rfl
  unfold symbolAt? at h
  split at h
  · simp at h
  · simp at h
  · simp at h
  · rename_i c _ _ _
    simp only [Option.map_eq_some_iff, Prod.mk.injEq] at h
    obtain ⟨symbol, hsymbol, rfl, -⟩ := h
    exact hchar _ hsymbol
  · cases h

theorem isName_of_ofWord {first : Char} {others : List Char} {name : String}
    (hfirst : startsWord first = true) (hothers : ∀ c ∈ others, continuesWord c = true)
    (h : ofWord (String.ofList (first :: others)) = .word name) :
    Sentence.isName name = true := by
  have hname : name = String.ofList (first :: others) := by
    unfold ofWord at h
    split at h
    · cases h
    · split at h
      · cases h
      · split at h
        · cases h
        · exact (Symbol.word.inj h).symm
  refine isName_iff.2 ⟨first, others, ?_, hfirst, hothers, ?_⟩
  · rw [hname, String.toList_ofList]
  · rwa [← hname] at h

theorem named_of_scanFrom {steps offset : Nat} {tokens : List Token}
    (h : scanFrom steps offset cs = .ok tokens) : Named tokens := by
  -- The induction is on the steps of the scanner, each of which finds one token at most.
  induction steps generalizing offset cs tokens with
  | zero =>
    cases h
    simp [Named]
  | succ steps ih =>
    cases cs with
    | nil =>
      cases h
      simp [Named]
    | cons c cs =>
      simp only [scanFrom] at h
      split at h
      · exact ih h
      · split at h
        · rename_i hfirst
          obtain ⟨rest, hrest, rfl⟩ := Except.map_eq_ok.1 h
          refine named_cons.2 ⟨fun name hname => ?_, ih hrest⟩
          exact isName_of_ofWord hfirst (List.all_eq_true.1 List.all_takeWhile) hname
        · split at h
          · rename_i symbol more hsymbol
            obtain ⟨rest, hrest, rfl⟩ := Except.map_eq_ok.1 h
            exact named_cons.2
              ⟨fun name hname => absurd hname (symbolAt?_ne_word hsymbol name), ih hrest⟩
          · cases h

/-- Every word that is scanned is a name. -/
theorem named_of_scan {text : String} {tokens : List Token} (h : scan text = .ok tokens) :
    Named tokens :=
  named_of_scanFrom h

end Token

/-! ## The symbols of a sentence -/

namespace Sentence

/-- The terms of a predicate in parentheses, or nothing when it has none. -/
def termSymbols : List String → List Symbol
  | [] => []
  | terms =>
    .openParen :: [.comma].intercalate (terms.map fun term => [.word term]) ++ [.closeParen]

/-- The symbols of an operand, in parentheses when it binds less tightly than `least`. -/
def encloseSymbols (least : Nat) (operand : Sentence) (symbols : List Symbol) : List Symbol :=
  if operand.strength < least then .openParen :: symbols ++ [.closeParen] else symbols

mutual

/-- The symbols that the rendering of a sentence spells. -/
def symbols : Sentence → List Symbol
  | falsum => [.falsum]
  | verum => [.verum]
  | predicate name terms => .word name :: termSymbols terms
  | not a => .not :: encloseSymbols 5 a (symbols a)
  | and as => [.and].intercalate (operandSymbols 5 as)
  | or as => [.or].intercalate (operandSymbols 4 as)
  | implies a b => encloseSymbols 3 a (symbols a) ++ .implies :: encloseSymbols 2 b (symbols b)
  | iff a b => encloseSymbols 2 a (symbols a) ++ .iff :: encloseSymbols 1 b (symbols b)
  | forAll x a => .forAll :: .word x :: encloseSymbols 5 a (symbols a)
  | thereExists x a => .thereExists :: .word x :: encloseSymbols 5 a (symbols a)

/-- The symbols of the operands of a chain. -/
def operandSymbols (least : Nat) : List Sentence → List (List Symbol)
  | [] => []
  | a :: as => encloseSymbols least a (symbols a) :: operandSymbols least as

end

/-! ## Scanning a rendering -/

open Token

variable {cs : List Char} {symbols : List Symbol}

/-- The rendering of a sentence, in front of anything that ends a word, spells the symbols of the
sentence. -/
def Spelled (s : Sentence) : Prop :=
  ∀ (cs : List Char) (more : List Symbol), EndsWord cs → Spells cs more →
    Spells (s.render.toList ++ cs) (s.symbols ++ more)

/-- An operand in parentheses is spelled as it is without them. -/
theorem Spelled.enclose {s : Sentence} (h : Spelled s) (least : Nat) {cs : List Char}
    {more : List Symbol} (hcs : EndsWord cs) (hmore : Spells cs more) :
    Spells ((enclose least s s.render).toList ++ cs)
      (encloseSymbols least s s.symbols ++ more) := by
  unfold Sentence.enclose encloseSymbols
  split
  · have hclose : Spells (')' :: cs) (.closeParen :: more) :=
      hmore.char ')' .closeParen (by decide) (by decide) fun _ => rfl
    have hinner := h (')' :: cs) _ (endsWord_cons (by decide) _) hclose
    have hopen := hinner.char '(' .openParen (by decide) (by decide) fun _ => rfl
    simpa using hopen
  · exact h cs more hcs hmore

/-- Items with a separator between them are spelled when each of them and the separator is. -/
theorem spells_intercalate {α : Type} (items : List α) (text : α → String)
    (symbolsOf : α → List Symbol) (separator : String) (symbol : Symbol)
    (hitem : ∀ a ∈ items, ∀ (cs : List Char) (more : List Symbol), EndsWord cs → Spells cs more →
      Spells ((text a).toList ++ cs) (symbolsOf a ++ more))
    (hends : ∀ cs, EndsWord (separator.toList ++ cs))
    (hseparator : ∀ {cs : List Char} {more : List Symbol}, Spells cs more →
      Spells (separator.toList ++ cs) (symbol :: more))
    (hcs : EndsWord cs) (h : Spells cs symbols) :
    Spells ((separator.intercalate (items.map text)).toList ++ cs)
      ([symbol].intercalate (items.map symbolsOf) ++ symbols) := by
  induction items with
  | nil => simpa using h
  | cons a items ih =>
    obtain ⟨ha, hitems⟩ := List.forall_mem_cons.1 hitem
    cases items with
    | nil => simpa using ha cs symbols hcs h
    | cons b items =>
      simp only [List.map_cons, String.intercalate_cons_cons, List.intercalate_cons_cons,
        String.toList_append, List.append_assoc] at ih ⊢
      exact ha _ _ (hends _) (hseparator (ih hitems))

theorem spells_terms {terms : List String} (hterms : ∀ term ∈ terms, isName term = true)
    (h : Spells cs symbols) :
    Spells ((renderTerms terms).toList ++ cs) (termSymbols terms ++ symbols) := by
  cases hempty : terms with
  | nil => simpa [renderTerms, termSymbols] using h
  | cons first others =>
    rw [← hempty]
    have hclose : Spells (')' :: cs) (.closeParen :: symbols) :=
      h.char ')' .closeParen (by decide) (by decide) fun _ => rfl
    have hnames := spells_intercalate terms id (fun term => [.word term]) ", " .comma
      (fun term hterm cs more hcs hmore => hmore.name (hterms term hterm) hcs)
      (fun _ => endsWord_cons (by decide) _)
      (fun hmore => (hmore.blank (by decide)).char ',' .comma (by decide) (by decide) fun _ => rfl)
      (endsWord_cons (by decide) _) hclose
    have hopen := hnames.char '(' .openParen (by decide) (by decide) fun _ => rfl
    rw [hempty] at hopen ⊢
    simpa [renderTerms, termSymbols] using hopen

theorem endsWord_renderTerms (terms : List String) (hcs : EndsWord cs) :
    EndsWord ((renderTerms terms).toList ++ cs) := by
  cases terms with
  | nil => simpa [renderTerms] using hcs
  | cons first others =>
    simp only [renderTerms, String.toList_append]
    exact endsWord_cons (by decide) _

theorem operandSymbols_eq_map (least : Nat) (as : List Sentence) :
    operandSymbols least as = as.map fun a => encloseSymbols least a a.symbols := by
  induction as with
  | nil => rfl
  | cons a as ih => simp [operandSymbols, ih]

/-- A chain is spelled when its operands are. -/
theorem spells_chain {as : List Sentence} (has : ∀ a ∈ as, Spelled a) (least : Nat)
    (connective : Char) (symbol : Symbol) (hblank : Text.isBlank connective = false)
    (hword : startsWord connective = false)
    (hc : ∀ cs, symbolAt? (connective :: cs) = some (symbol, 0))
    (hcs : EndsWord cs) (h : Spells cs symbols) :
    Spells (((String.ofList [' ', connective, ' ']).intercalate (renderOperands least as)).toList
        ++ cs) ([symbol].intercalate (operandSymbols least as) ++ symbols) := by
  rw [renderOperands_eq_map, operandSymbols_eq_map]
  refine spells_intercalate _ _ _ _ _
    (fun a ha cs more hcs hmore => (has a ha).enclose least hcs hmore) ?_ ?_ hcs h
  · intro cs
    rw [String.toList_ofList]
    exact endsWord_cons (by decide) _
  · intro cs more hmore
    simpa using hmore.between connective symbol hblank hword hc

/-- The rendering of a sentence spells its symbols. -/
theorem spelled_of_grammatical {s : Sentence} (hs : Grammatical s) : Spelled s := by
  -- One case for each rule of the grammar; the texts are taken apart from the left.
  have hspace : ∀ cs, EndsWord (' ' :: cs) := fun cs => endsWord_cons (by decide) cs
  induction hs with
  | falsum => exact fun cs more _ h => h.char '⊥' .falsum (by decide) (by decide) fun _ => rfl
  | verum => exact fun cs more _ h => h.char '⊤' .verum (by decide) (by decide) fun _ => rfl
  | predicate hname hterms =>
    intro cs more hcs h
    have := (spells_terms hterms h).name hname (endsWord_renderTerms _ hcs)
    simpa [render, symbols] using this
  | not ha ih =>
    intro cs more hcs h
    have := (ih.enclose 5 hcs h).char '¬' .not (by decide) (by decide) fun _ => rfl
    simpa [render, symbols] using this
  | and hcount has ih =>
    intro cs more hcs h
    have := spells_chain ih 5 '∧' .and (by decide) (by decide) (fun _ => rfl) hcs h
    simpa [render, symbols] using this
  | or hcount has ih =>
    intro cs more hcs h
    have := spells_chain ih 4 '∨' .or (by decide) (by decide) (fun _ => rfl) hcs h
    simpa [render, symbols] using this
  | implies ha hb iha ihb =>
    intro cs more hcs h
    have := (ihb.enclose 2 hcs h).between '→' .implies (by decide) (by decide) fun _ => rfl
    have := iha.enclose 3 (hspace _) this
    simpa [render, symbols] using this
  | iff ha hb iha ihb =>
    intro cs more hcs h
    have := (ihb.enclose 1 hcs h).between '↔' .iff (by decide) (by decide) fun _ => rfl
    have := iha.enclose 2 (hspace _) this
    simpa [render, symbols] using this
  | forAll hx ha ih =>
    intro cs more hcs h
    have := ((ih.enclose 5 hcs h).blank (c := ' ') (by decide)).name hx (hspace _)
    have := this.char '∀' .forAll (by decide) (by decide) fun _ => rfl
    simpa [render, symbols] using this
  | thereExists hx ha ih =>
    intro cs more hcs h
    have := ((ih.enclose 5 hcs h).blank (c := ' ') (by decide)).name hx (hspace _)
    have := this.char '∃' .thereExists (by decide) (by decide) fun _ => rfl
    simpa [render, symbols] using this

/-- Scanning the rendering gives tokens for the symbols of the sentence. -/
theorem exists_scan_render {s : Sentence} (hs : Grammatical s) :
    ∃ tokens, Token.scan s.render = .ok tokens ∧ tokens.map Token.symbol = s.symbols := by
  have h := spelled_of_grammatical hs [] [] (by simp [EndsWord]) spells_nil
  simp only [List.append_nil] at h
  exact h _ 0 (Nat.le_refl _)

end Sentence

end NaturalDeduction
