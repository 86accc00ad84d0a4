/-
  Where tokens stand in a text.

  A span marks characters of a text when it begins and ends where they do. The
  span of each token that is scanned marks one whole lexeme, with the lexemes of
  the tokens before it in front of it. When scanning fails, the span marks the
  first character behind some lexemes that no lexeme begins with.
-/

import NaturalDeduction.Proofs.Sentence.Lexeme

namespace NaturalDeduction.Token

/-! ## Marked characters -/

/-- The span marks the characters that stand between the ones before and the ones after. -/
structure Marks (text : String) (span : Span) (before marked after : List Char) : Prop where
  text_eq : text.toList = before ++ (marked ++ after)
  start_eq : span.start = Text.byteLength before
  stop_eq : span.stop = Text.byteLength before + Text.byteLength marked

variable {text : String} {span : Span} {before marked after : List Char}

/-- The marked characters are the slice of the text. -/
theorem Marks.slice?_eq (h : Marks text span before marked after) :
    span.slice? text = some (String.ofList marked) :=
  Span.slice?_eq_some h.text_eq h.start_eq h.stop_eq

theorem byteLength_pos {cs : List Char} (h : cs ≠ []) : 0 < Text.byteLength cs := by
  cases cs with
  | nil => exact absurd rfl h
  | cons c cs => exact Nat.lt_of_lt_of_le (Char.utf8Size_pos c) (Nat.le_add_right _ _)

/-- A span that marks a character is not empty. -/
theorem Marks.start_lt_stop (h : Marks text span before marked after) (hmarked : marked ≠ []) :
    span.start < span.stop := by
  have hpos := byteLength_pos hmarked
  rw [h.start_eq, h.stop_eq]
  omega

/-! ## Cuts that stop before a place -/

/-- The characters in front of `rest` are cut by longest match into lexemes for the symbols. -/
inductive SplitsBefore (rest : List Char) : List Char → List Symbol → Prop where
  | done : SplitsBefore rest [] []
  | blank {c : Char} {cs : List Char} {symbols : List Symbol} (hc : Text.isBlank c = true)
      (h : SplitsBefore rest cs symbols) : SplitsBefore rest (c :: cs) symbols
  | lexeme {lexeme cs : List Char} {symbol : Symbol} {symbols : List Symbol}
      (hlexeme : Lexeme lexeme symbol)
      (hlongest : ∀ longer other, Lexeme longer other → longer <+: lexeme ++ (cs ++ rest) →
        longer.length ≤ lexeme.length)
      (h : SplitsBefore rest cs symbols) : SplitsBefore rest (lexeme ++ cs) (symbol :: symbols)

variable {cs rest : List Char} {symbols more : List Symbol}

/-! ## Tokens and unknown characters -/

/-- The span marks one token of the text: the lexeme for the symbol, behind the lexemes for the
earlier ones and in front of those for the later ones. -/
def MarksToken (text : String) (span : Span) (earlier : List Symbol) (symbol : Symbol)
    (later : List Symbol) : Prop :=
  ∃ before lexeme after, Marks text span before lexeme after ∧
    SplitsBefore (lexeme ++ after) before earlier ∧ Lexeme lexeme symbol ∧
    (∀ longer other, Lexeme longer other → longer <+: lexeme ++ after →
      longer.length ≤ lexeme.length) ∧
    Splits after later

/-- The span marks one character of the text, behind some lexemes, and no lexeme begins there. -/
def MarksUnknown (text : String) (span : Span) (c : Char) : Prop :=
  ∃ before after symbols, Marks text span before [c] after ∧
    SplitsBefore (c :: after) before symbols ∧ Text.isBlank c = false ∧
    ∀ lexeme symbol, Lexeme lexeme symbol → ¬ lexeme <+: c :: after

variable {earlier later : List Symbol} {symbol : Symbol} {c : Char}

theorem MarksToken.fits (h : MarksToken text span earlier symbol later) :
    span.start < span.stop ∧ (span.slice? text).isSome := by
  obtain ⟨before, lexeme, after, hmarks, -, hlexeme, -⟩ := h
  exact ⟨hmarks.start_lt_stop hlexeme.ne_nil, by rw [hmarks.slice?_eq]; rfl⟩

theorem MarksUnknown.fits (h : MarksUnknown text span c) :
    span.start < span.stop ∧ (span.slice? text).isSome := by
  obtain ⟨before, after, symbols, hmarks, -⟩ := h
  exact ⟨hmarks.start_lt_stop (List.cons_ne_nil c []), by rw [hmarks.slice?_eq]; rfl⟩

/-- Tokens are found where their lexemes stand, counted from the offset. -/
theorem exists_lexeme_of_scanFrom {steps offset : Nat} {tokens earlier later : List Token}
    {token : Token} (hsteps : cs.length ≤ steps) (h : scanFrom steps offset cs = .ok tokens)
    (htokens : tokens = earlier ++ token :: later) :
    ∃ before lexeme after, cs = before ++ (lexeme ++ after) ∧
      token.span = ⟨offset + Text.byteLength before,
        offset + Text.byteLength before + Text.byteLength lexeme⟩ ∧
      SplitsBefore (lexeme ++ after) before (earlier.map Token.symbol) ∧
      Lexeme lexeme token.symbol ∧
      (∀ longer other, Lexeme longer other → longer <+: lexeme ++ after →
        longer.length ≤ lexeme.length) ∧
      Splits after (later.map Token.symbol) := by
  -- The induction is on the steps of the scanner, each of which takes a character at least.
  induction steps generalizing offset cs tokens earlier with
  | zero =>
    cases h
    simp at htokens
  | succ steps ih =>
    cases cs with
    | nil =>
      cases h
      simp at htokens
    | cons c cs =>
      have hlength : cs.length ≤ steps := Nat.le_of_succ_le_succ hsteps
      obtain ⟨hblank, hscan⟩ | ⟨lexeme, rest, symbol, htext, hrest, hlexeme, hlongest, hscan⟩ |
        ⟨-, -, hscan⟩ := scanFrom_cons_cases steps offset c cs
      · rw [hscan] at h
        obtain ⟨before, lexeme, after, rfl, hspan, hbefore, hfound⟩ := ih hlength h htokens
        refine ⟨c :: before, lexeme, after, rfl, ?_, .blank hblank hbefore, hfound⟩
        rw [hspan, Text.byteLength_cons, ← Nat.add_assoc]
      · rw [hscan] at h
        obtain ⟨others, hothers, rfl⟩ := Except.map_eq_ok.1 h
        have hlength := Nat.le_trans hrest hlength
        cases earlier with
        | nil =>
          obtain ⟨rfl, rfl⟩ := List.cons.inj htokens
          exact ⟨[], lexeme, rest, htext, rfl, .done, hlexeme, hlongest,
            splits_of_scanFrom hlength hothers⟩
        | cons first earlier =>
          obtain ⟨rfl, hlater⟩ := List.cons.inj htokens
          obtain ⟨before, marked, after, rfl, hspan, hbefore, hfound⟩ :=
            ih hlength hothers hlater
          refine ⟨lexeme ++ before, marked, after, by rw [htext, List.append_assoc], ?_,
            .lexeme hlexeme hlongest hbefore, hfound⟩
          rw [hspan, Text.byteLength_append, ← Nat.add_assoc]
      · rw [hscan] at h
        cases h

/-- Scanning stops at a character that no lexeme begins with, counted from the offset. -/
theorem exists_unknown_of_scanFrom {steps offset : Nat} {failure : ParseFailure}
    (h : scanFrom steps offset cs = .error failure) :
    ∃ before c after symbols, cs = before ++ c :: after ∧
      failure = .spanning ⟨offset + Text.byteLength before,
        offset + Text.byteLength before + c.utf8Size⟩ (.unknownCharacter c) ∧
      SplitsBefore (c :: after) before symbols ∧ Text.isBlank c = false ∧
      ∀ lexeme symbol, Lexeme lexeme symbol → ¬ lexeme <+: c :: after := by
  induction steps generalizing offset cs with
  | zero => cases h
  | succ steps ih =>
    cases cs with
    | nil => cases h
    | cons c cs =>
      obtain ⟨hblank, hscan⟩ | ⟨lexeme, rest, symbol, htext, -, hlexeme, hlongest, hscan⟩ |
        ⟨hblank, hunknown, hscan⟩ := scanFrom_cons_cases steps offset c cs
      · rw [hscan] at h
        obtain ⟨before, d, after, symbols, rfl, hfailure, hbefore, hfound⟩ := ih h
        refine ⟨c :: before, d, after, symbols, rfl, ?_, .blank hblank hbefore, hfound⟩
        rw [hfailure, Text.byteLength_cons, ← Nat.add_assoc]
      · rw [hscan] at h
        obtain ⟨before, d, after, symbols, rfl, hfailure, hbefore, hfound⟩ :=
          ih (Except.map_eq_error.1 h)
        refine ⟨lexeme ++ before, d, after, symbol :: symbols, by rw [htext, List.append_assoc], ?_,
          .lexeme hlexeme hlongest hbefore, hfound⟩
        rw [hfailure, Text.byteLength_append, ← Nat.add_assoc]
      · rw [hscan] at h
        cases h
        exact ⟨[], c, cs, [], rfl, rfl, .done, hblank, hunknown⟩

/-- The span of each token marks that token. -/
theorem marksToken_of_scan {earlier later : List Token} {token : Token}
    (h : scan text = .ok (earlier ++ token :: later)) :
    MarksToken text token.span (earlier.map Token.symbol) token.symbol
      (later.map Token.symbol) := by
  obtain ⟨before, lexeme, after, htext, hspan, hfound⟩ :=
    exists_lexeme_of_scanFrom (Nat.le_refl _) h rfl
  refine ⟨before, lexeme, after, ⟨htext, ?_, ?_⟩, hfound⟩
  · rw [hspan, Nat.zero_add]
  · rw [hspan, Nat.zero_add]

/-- The failure of scanning marks an unknown character. -/
theorem marksUnknown_of_scan {failure : ParseFailure} (h : scan text = .error failure) :
    ∃ span c, failure = .spanning span (.unknownCharacter c) ∧ MarksUnknown text span c := by
  obtain ⟨before, c, after, symbols, htext, rfl, hfound⟩ := exists_unknown_of_scanFrom h
  refine ⟨_, c, rfl, before, after, symbols, ⟨htext, Nat.zero_add _, ?_⟩, hfound⟩
  simp only [Nat.zero_add, Text.byteLength_cons, Text.byteLength_nil, Nat.add_zero]

end NaturalDeduction.Token
