/-
  Texts cut into lexemes.

  A lexeme is a mark, which is one of the spellings of a connective, a constant
  or a bracket, or one of the three words for connectives, or a name. A text is
  cut by longest match: blanks are skipped, and from anywhere else the longest
  lexeme is taken. There is at most one way to cut a text; the scanner finds it,
  and fails when there is none.
-/

import NaturalDeduction.Proofs.Sentence.Spelling

namespace NaturalDeduction.Token

/-! ## Lexemes -/

/-- The spellings of symbols other than words. -/
def marks : List (String × Symbol) :=
  [("(", .openParen), (")", .closeParen), (",", .comma),
   ("~", .not), ("¬", .not), ("!", .not),
   ("&", .and), ("∧", .and), ("^", .and),
   ("|", .or), ("∨", .or),
   ("->", .implies), ("→", .implies), ("<->", .iff), ("↔", .iff),
   ("∀", .forAll), ("∃", .thereExists),
   ("_|_", .falsum), ("⊥", .falsum), ("⊤", .verum)]

/-- The words that stand for connectives. -/
def connectiveWords : List (String × Symbol) :=
  [("or", .or), ("forall", .forAll), ("exists", .thereExists)]

/-- The characters spell a symbol. -/
inductive Lexeme : List Char → Symbol → Prop where
  | mark {text : String} {symbol : Symbol} (h : (text, symbol) ∈ marks) :
      Lexeme text.toList symbol
  | connectiveWord {text : String} {symbol : Symbol} (h : (text, symbol) ∈ connectiveWords) :
      Lexeme text.toList symbol
  | name {name : String} (h : Sentence.isName name = true) : Lexeme name.toList (.word name)

/-- The characters are cut by longest match into lexemes for the symbols. -/
inductive Splits : List Char → List Symbol → Prop where
  | done : Splits [] []
  | blank {c : Char} {cs : List Char} {symbols : List Symbol} (hc : Text.isBlank c = true)
      (h : Splits cs symbols) : Splits (c :: cs) symbols
  | lexeme {lexeme cs : List Char} {symbol : Symbol} {symbols : List Symbol}
      (hlexeme : Lexeme lexeme symbol)
      (hlongest : ∀ longer other, Lexeme longer other → longer <+: lexeme ++ cs →
        longer.length ≤ lexeme.length)
      (h : Splits cs symbols) : Splits (lexeme ++ cs) (symbol :: symbols)

variable {c : Char} {cs rest lexeme : List Char} {symbol : Symbol} {symbols : List Symbol}
  {more : Nat}

/-! ### Words -/

theorem isWord_of_mem_connectiveWords :
    ∀ entry ∈ connectiveWords, IsWord entry.1.toList ∧ ofWord entry.1 = entry.2 := by
  decide +kernel

/-- Every word is a lexeme. -/
theorem lexeme_of_isWord (h : IsWord lexeme) : Lexeme lexeme (ofWord (String.ofList lexeme)) := by
  obtain ⟨text, rfl⟩ : ∃ text : String, text.toList = lexeme := ⟨_, String.toList_ofList⟩
  rw [String.ofList_toList]
  -- The scanner tells the three words from names in the order of its table.
  unfold ofWord
  split
  · rename_i hforall
    exact .connectiveWord (by rw [hforall]; decide)
  · split
    · rename_i hexists
      exact .connectiveWord (by rw [hexists]; decide)
    · split
      · rename_i hor
        exact .connectiveWord (by rw [hor]; decide)
      · rename_i hforall hexists hor
        cases htext : text.toList with
        | nil => rw [htext] at h; exact h.elim
        | cons c cs =>
          rw [htext] at h
          rw [← htext]
          refine .name (isName_iff.2 ⟨c, cs, htext, h.1, h.2, ?_⟩)
          simp only [ofWord, hforall, hexists, hor, if_false]

/-! ### Marks -/

/-- Where a mark stands the scanner sees it, whatever follows. -/
theorem symbolAt?_of_mem_marks : ∀ entry ∈ marks, ∀ rest, ∃ c cs, entry.1.toList = c :: cs ∧
    startsWord c = false ∧ Text.isBlank c = false ∧
      symbolAt? (c :: (cs ++ rest)) = some (entry.2, cs.length) := by
  simp only [marks, List.forall_mem_cons]
  refine ⟨?_, ?_, ?_, ?_, ?_, ?_, ?_, ?_, ?_, ?_, ?_, ?_, ?_, ?_, ?_, ?_, ?_, ?_, ?_, ?_, by simp⟩
  all_goals exact fun _ => ⟨_, _, rfl, by decide, by decide, rfl⟩

/-- What the scanner takes for a symbol is a mark. -/
theorem lexeme_of_symbolAt? (h : symbolAt? (c :: cs) = some (symbol, more)) :
    Lexeme (c :: cs.take more) symbol ∧ more ≤ cs.length := by
  have hmark : ∀ (text : String) (symbol : Symbol), (text, symbol) ∈ marks →
      ∀ lexeme, text.toList = lexeme → Lexeme lexeme symbol := by
    rintro text symbol hmem lexeme rfl
    exact .mark hmem
  unfold symbolAt? at h
  split at h
  · rename_i heq
    obtain ⟨rfl, rfl⟩ := List.cons.inj heq
    cases h
    exact ⟨hmark "<->" _ (by decide) _ rfl, by simp⟩
  · rename_i heq
    obtain ⟨rfl, rfl⟩ := List.cons.inj heq
    cases h
    exact ⟨hmark "->" _ (by decide) _ rfl, by simp⟩
  · rename_i heq
    obtain ⟨rfl, rfl⟩ := List.cons.inj heq
    cases h
    exact ⟨hmark "_|_" _ (by decide) _ rfl, by simp⟩
  · rename_i heq
    obtain ⟨rfl, rfl⟩ := List.cons.inj heq
    obtain ⟨symbol, hsymbol, hpair⟩ := Option.map_eq_some_iff.1 h
    cases hpair
    refine ⟨hmark (String.ofList [c]) _ ?_ _ String.toList_ofList, Nat.zero_le _⟩
    -- One case for each character in the scanner's table.
    unfold ofChar? at hsymbol
    split at hsymbol
    all_goals cases hsymbol
    all_goals decide
  · cases h

/-! ### Where a lexeme stands -/

/-- A lexeme that begins with a letter is a word. -/
theorem Lexeme.isWord (h : Lexeme (c :: cs) symbol) (hc : startsWord c = true) :
    IsWord (c :: cs) ∧ ofWord (String.ofList (c :: cs)) = symbol := by
  generalize htext : c :: cs = lexeme at h
  cases h with
  | @mark text symbol hmem =>
    obtain ⟨d, ds, htoList, hd, -⟩ := symbolAt?_of_mem_marks _ hmem []
    obtain ⟨rfl, -⟩ := List.cons.inj (htext.trans htoList)
    rw [hc] at hd
    cases hd
  | connectiveWord hmem =>
    rw [String.ofList_toList]
    exact isWord_of_mem_connectiveWords _ hmem
  | name hname =>
    rw [String.ofList_toList]
    exact isWord_of_isName hname

/-- A lexeme that begins with no letter is what the scanner sees there, whatever follows. -/
theorem Lexeme.symbolAt? (h : Lexeme (c :: cs) symbol) (hc : startsWord c = false)
    (rest : List Char) : Text.isBlank c = false ∧
      Token.symbolAt? (c :: (cs ++ rest)) = some (symbol, cs.length) := by
  generalize htext : c :: cs = lexeme at h
  have hnotWord : ¬ IsWord lexeme := by
    rw [← htext]
    rintro ⟨hstarts, -⟩
    rw [hc] at hstarts
    cases hstarts
  cases h with
  | @mark text symbol hmem =>
    obtain ⟨d, ds, htoList, -, hblank, hsymbol⟩ := symbolAt?_of_mem_marks _ hmem rest
    obtain ⟨rfl, rfl⟩ := List.cons.inj (htext.trans htoList)
    exact ⟨hblank, hsymbol⟩
  | connectiveWord hmem => exact absurd (isWord_of_mem_connectiveWords _ hmem).1 hnotWord
  | name hname => exact absurd (isWord_of_isName hname).1 hnotWord

theorem Lexeme.ne_nil (h : Lexeme lexeme symbol) : lexeme ≠ [] := by
  rintro rfl
  generalize htext : ([] : List Char) = lexeme at h
  cases h with
  | mark hmem =>
    obtain ⟨d, ds, htoList, -⟩ := symbolAt?_of_mem_marks _ hmem []
    rw [← htext] at htoList
    cases htoList
  | connectiveWord hmem =>
    have hword := (isWord_of_mem_connectiveWords _ hmem).1
    rwa [← htext] at hword
  | name hname =>
    have hword := (isWord_of_isName hname).1
    rwa [← htext] at hword

/-- A lexeme is found where it stands, if nothing that follows goes on with it as a word. -/
theorem Lexeme.spells (h : Lexeme lexeme symbol) (hends : IsWord lexeme → EndsWord cs)
    (hcs : Spells cs symbols) : Spells (lexeme ++ cs) (symbol :: symbols) := by
  cases lexeme with
  | nil => exact absurd rfl h.ne_nil
  | cons c others =>
    cases hc : startsWord c with
    | true =>
      obtain ⟨hword, rfl⟩ := h.isWord hc
      exact hcs.word hword (hends hword)
    | false =>
      obtain ⟨hblank, hsymbol⟩ := h.symbolAt? hc cs
      exact hcs.mark c others symbol hblank hc hsymbol

/-! ### Longest lexemes -/

/-- No lexeme that begins where a word does is longer than the word. -/
theorem Lexeme.length_le_of_word {longer : List Char} (h : Lexeme longer symbol)
    (hc : startsWord c = true) (hbegins : longer <+: c :: cs) :
    longer.length ≤ (c :: cs.takeWhile continuesWord).length := by
  cases longer with
  | nil => exact Nat.zero_le _
  | cons d others =>
    obtain ⟨rfl, rest, rfl⟩ := List.cons_prefix_cons.1 hbegins
    rw [List.takeWhile_append_of_pos (h.isWord hc).1.2, List.length_cons, List.length_cons,
      List.length_append]
    omega

/-- The scanner sees one symbol where there is no letter, so all lexemes there are equally long. -/
theorem Lexeme.length_le_of_symbolAt? {longer : List Char} {other : Symbol}
    (h : Lexeme longer other) (hc : startsWord c = false)
    (hsymbol : Token.symbolAt? (c :: cs) = some (symbol, more)) (hbegins : longer <+: c :: cs) :
    longer.length ≤ more + 1 := by
  cases longer with
  | nil => exact Nat.zero_le _
  | cons d others =>
    obtain ⟨rfl, rest, rfl⟩ := List.cons_prefix_cons.1 hbegins
    rw [(h.symbolAt? hc rest).2] at hsymbol
    cases hsymbol
    exact Nat.le_refl _

/-- What follows the longest word does not go on with it. -/
theorem endsWord_of_longest (hword : IsWord lexeme)
    (hlongest : ∀ longer other, Lexeme longer other → longer <+: lexeme ++ cs →
      longer.length ≤ lexeme.length) : EndsWord cs := by
  intro d hd
  obtain ⟨rest, rfl⟩ : ∃ rest, cs = d :: rest := by
    cases cs with
    | nil => cases hd
    | cons e rest => exact ⟨rest, by simpa using hd⟩
  by_contra hcontinues
  have hlonger : IsWord (lexeme ++ [d]) := by
    cases lexeme with
    | nil => exact hword.elim
    | cons c others =>
      refine ⟨hword.1, fun e he => ?_⟩
      rcases List.mem_append.1 he with he | he
      · exact hword.2 e he
      · obtain rfl := List.mem_singleton.1 he
        simpa using hcontinues
  have hle := hlongest _ _ (lexeme_of_isWord hlonger) ⟨rest, by simp⟩
  simp only [List.length_append, List.length_cons, List.length_nil] at hle
  omega

/-! ## Cutting and scanning -/

/-- What the scanner does next: it skips a blank, or takes the longest lexeme, or finds a character
that no lexeme begins with. -/
theorem scanFrom_cons_cases (steps offset : Nat) (c : Char) (cs : List Char) :
    (Text.isBlank c = true ∧
      scanFrom (steps + 1) offset (c :: cs) = scanFrom steps (offset + c.utf8Size) cs) ∨
    (∃ lexeme rest symbol, c :: cs = lexeme ++ rest ∧ rest.length ≤ cs.length ∧
      Lexeme lexeme symbol ∧
      (∀ longer other, Lexeme longer other → longer <+: lexeme ++ rest →
        longer.length ≤ lexeme.length) ∧
      scanFrom (steps + 1) offset (c :: cs) =
        (scanFrom steps (offset + Text.byteLength lexeme) rest).map
          (spelled symbol offset lexeme :: ·)) ∨
    (Text.isBlank c = false ∧ (∀ lexeme symbol, Lexeme lexeme symbol → ¬ lexeme <+: c :: cs) ∧
      scanFrom (steps + 1) offset (c :: cs) =
        .error (.spanning ⟨offset, offset + c.utf8Size⟩ (.unknownCharacter c))) := by
  cases hblank : Text.isBlank c with
  | true => exact .inl ⟨rfl, by simp only [scanFrom, hblank, if_true]⟩
  | false =>
    right
    cases hc : startsWord c with
    | true =>
      have hword : IsWord (c :: cs.takeWhile continuesWord) :=
        ⟨hc, List.all_eq_true.1 List.all_takeWhile⟩
      have htext : c :: cs = c :: cs.takeWhile continuesWord ++ cs.dropWhile continuesWord := by
        rw [List.cons_append, List.takeWhile_append_dropWhile]
      refine .inl ⟨_, _, _, htext, (List.dropWhile_suffix _).length_le, lexeme_of_isWord hword,
        fun _ _ h hbegins => h.length_le_of_word hc (htext ▸ hbegins), ?_⟩
      simp only [scanFrom, hblank, hc, Bool.false_eq_true, if_false, if_true]
      rfl
    | false =>
      cases hsymbol : symbolAt? (c :: cs) with
      | some found =>
        obtain ⟨symbol, more⟩ := found
        obtain ⟨hlexeme, hmore⟩ := lexeme_of_symbolAt? hsymbol
        have htext : c :: cs = c :: cs.take more ++ cs.drop more := by
          rw [List.cons_append, List.take_append_drop]
        have hlongest : ∀ longer other, Lexeme longer other →
            longer <+: c :: cs.take more ++ cs.drop more →
            longer.length ≤ (c :: cs.take more).length := by
          intro longer other hlonger hbegins
          rw [← htext] at hbegins
          have hle := hlonger.length_le_of_symbolAt? hc hsymbol hbegins
          rwa [List.length_cons, List.length_take, Nat.min_eq_left hmore]
        refine .inl ⟨_, _, _, htext, (List.drop_suffix _ _).length_le, hlexeme, hlongest, ?_⟩
        simp only [scanFrom, hblank, hc, hsymbol, Bool.false_eq_true, if_false]
        rfl
      | none =>
        refine .inr ⟨rfl, fun lexeme symbol hlexeme hbegins => ?_, ?_⟩
        · cases lexeme with
          | nil => exact hlexeme.ne_nil rfl
          | cons d others =>
            obtain ⟨rfl, rest, rfl⟩ := List.cons_prefix_cons.1 hbegins
            rw [(hlexeme.symbolAt? hc rest).2] at hsymbol
            cases hsymbol
        · simp only [scanFrom, hblank, hc, hsymbol, Bool.false_eq_true, if_false]

/-- What is scanned is a cut by longest match. -/
theorem splits_of_scanFrom {steps offset : Nat} {tokens : List Token} (hsteps : cs.length ≤ steps)
    (h : scanFrom steps offset cs = .ok tokens) : Splits cs (tokens.map Token.symbol) := by
  -- The induction is on the steps of the scanner, each of which takes a character at least.
  induction steps generalizing offset cs tokens with
  | zero =>
    obtain rfl := List.length_eq_zero_iff.1 (Nat.le_zero.1 hsteps)
    cases h
    exact .done
  | succ steps ih =>
    cases cs with
    | nil =>
      cases h
      exact .done
    | cons c cs =>
      have hlength : cs.length ≤ steps := Nat.le_of_succ_le_succ hsteps
      obtain ⟨hblank, hscan⟩ | ⟨lexeme, rest, symbol, htext, hrest, hlexeme, hlongest, hscan⟩ |
        ⟨-, -, hscan⟩ := scanFrom_cons_cases steps offset c cs
      · rw [hscan] at h
        exact .blank hblank (ih hlength h)
      · rw [hscan] at h
        obtain ⟨others, hothers, rfl⟩ := Except.map_eq_ok.1 h
        rw [htext]
        exact .lexeme hlexeme hlongest (ih (Nat.le_trans hrest hlength) hothers)
      · rw [hscan] at h
        cases h

/-- A cut by longest match is what is scanned. -/
theorem Splits.spells (h : Splits cs symbols) : Spells cs symbols := by
  induction h with
  | done => exact spells_nil
  | blank hc h ih => exact ih.blank hc
  | lexeme hlexeme hlongest h ih =>
    exact hlexeme.spells (fun hword => endsWord_of_longest hword hlongest) ih

/-- Scanning gives tokens for the symbols of the cut by longest match. -/
theorem scan_iff_splits {text : String} :
    (∃ tokens, scan text = .ok tokens ∧ tokens.map Token.symbol = symbols) ↔
      Splits text.toList symbols := by
  constructor
  · rintro ⟨tokens, hscan, rfl⟩
    exact splits_of_scanFrom (Nat.le_refl _) hscan
  · intro h
    exact h.spells _ 0 (Nat.le_refl _)

/-- There is at most one cut by longest match. -/
theorem Splits.unique {symbols' : List Symbol} (h : Splits cs symbols) (h' : Splits cs symbols') :
    symbols = symbols' := by
  obtain ⟨tokens, hscan, rfl⟩ := h.spells cs.length 0 (Nat.le_refl _)
  obtain ⟨tokens', hscan', rfl⟩ := h'.spells cs.length 0 (Nat.le_refl _)
  rw [hscan] at hscan'
  cases hscan'
  rfl

/-- Blank texts are those without lexemes. -/
theorem splits_nil_iff : Splits cs [] ↔ ∀ c ∈ cs, Text.isBlank c = true := by
  constructor
  · intro h
    generalize hsymbols : ([] : List Symbol) = symbols at h
    induction h with
    | done => simp
    | blank hc _ ih => exact List.forall_mem_cons.2 ⟨hc, ih hsymbols⟩
    | lexeme => cases hsymbols
  · intro h
    induction cs with
    | nil => exact .done
    | cons c cs ih =>
      obtain ⟨hc, hcs⟩ := List.forall_mem_cons.1 h
      exact .blank hc (ih hcs)

end NaturalDeduction.Token
