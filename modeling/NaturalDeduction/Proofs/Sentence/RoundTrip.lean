/-
  Reading back what was rendered.

  A rendering is read by the categories of the grammar, and each of them stops
  where the operand does: in front of a symbol that does not go on with it. The
  tokens of a sentence are read to the sentence with whatever tokens may follow,
  and with as many levels as its nesting asks for.
-/

import NaturalDeduction.Proofs.Sentence.Reading

namespace NaturalDeduction.Sentence

open Token

/-! ## Where an operand ends -/

/-- Whether a symbol behind an operand is read as a part of it, when the operand has to bind as
tightly as `least`. -/
def goesOn (least : Nat) : Symbol → Bool
  | .openParen => true
  | .and => least ≤ 4
  | .or => least ≤ 3
  | .implies => least ≤ 2
  | .iff => least ≤ 1
  | _ => false

/-- The tokens do not go on with an operand that stands before them. -/
def Ends (least : Nat) (rest : List Token) : Prop :=
  ∀ token ∈ rest.head?, goesOn least token.symbol = false

variable {last : Span} {least more levels : Nat} {tokens rest : List Token} {s : Sentence}

theorem ends_nil (least : Nat) : Ends least [] := by
  simp [Ends]

theorem ends_cons {token : Token} (h : goesOn least token.symbol = false) (rest : List Token) :
    Ends least (token :: rest) := by
  intro other hother
  obtain rfl : token = other := by simpa using hother
  exact h

/-- A tighter operand ends wherever a looser one does. -/
theorem Ends.of_le (h : Ends least rest) (hle : least ≤ more) : Ends more rest := by
  intro token htoken
  have hends := h token htoken
  unfold goesOn at hends ⊢
  split at hends
  all_goals simp_all
  all_goals omega

theorem Ends.symbol_ne {token : Token} (h : Ends least (token :: rest)) {symbol : Symbol}
    (hsymbol : goesOn least symbol = true) : token.symbol ≠ symbol := by
  rintro rfl
  have := h token rfl
  rw [hsymbol] at this
  cases this

/-! ## Looser categories -/

/-- Reads an operand that has to bind as tightly as `least`. -/
def readLeast (nested : NestedReader) (last : Span) : Nat → PartReader
  | 0 | 1 => readBiconditional nested last
  | 2 => readImplication nested last
  | 3 => readDisjunction nested last
  | 4 => readConjunction nested last
  | _ => readUnit nested last

theorem readMore_of_ends {connective : Symbol} (hconnective : goesOn least connective = true)
    (hrest : Ends least rest) (readOperand : PartReader) (rounds : Nat) :
    readMore connective readOperand rounds rest = .ok ([], rest) := by
  cases rounds with
  | zero => rfl
  | succ rounds =>
    cases rest with
    | nil => rfl
    | cons token rest => simp only [readMore, if_neg (hrest.symbol_ne hconnective)]

/-- A chain that does not go on is its first operand. -/
theorem readChain_one {connective : Symbol} (hconnective : goesOn least connective = true)
    {join : List Sentence → Sentence} (hjoin : join [s] = s) {readOperand : PartReader}
    (h : readOperand tokens = .ok (s, rest)) (hrest : Ends least rest) :
    readChain connective join readOperand tokens = .ok (s, rest) := by
  simp only [readChain, h, bind, Except.bind, readMore_of_ends hconnective hrest, hjoin]
  rfl

/-- Without a connective behind it, a left operand is all there is. -/
theorem readRight_left {connective : Symbol} (hconnective : goesOn least connective = true)
    {nested : NestedReader} {category : Category} {build : Sentence → Sentence → Sentence}
    {readLeft : PartReader} (h : readLeft tokens = .ok (s, rest)) (hrest : Ends least rest) :
    readRight nested connective category build readLeft tokens = .ok (s, rest) := by
  simp only [readRight, h, bind, Except.bind]
  cases rest with
  | nil => rfl
  | cons token rest =>
    simp only [if_neg (hrest.symbol_ne hconnective)]
    rfl

theorem readLeast_of_succ {nested : NestedReader} (hpos : 1 ≤ least) (hlt : least < 5)
    (h : readLeast nested last (least + 1) tokens = .ok (s, rest)) (hrest : Ends least rest) :
    readLeast nested last least tokens = .ok (s, rest) := by
  obtain rfl | rfl | rfl | rfl : least = 1 ∨ least = 2 ∨ least = 3 ∨ least = 4 := by omega
  · exact readRight_left (by rfl) h hrest
  · exact readRight_left (by rfl) h hrest
  · exact readChain_one (by rfl) rfl h hrest
  · exact readChain_one (by rfl) rfl h hrest

/-- What is read as a tight operand is read in the same way where a looser one may stand. -/
theorem readLeast_of_le {nested : NestedReader} (hpos : 1 ≤ least) (hle : least ≤ more)
    (hmore : more ≤ 5) (h : readLeast nested last more tokens = .ok (s, rest))
    (hrest : Ends least rest) : readLeast nested last least tokens = .ok (s, rest) := by
  obtain ⟨count, rfl⟩ := Nat.exists_eq_add_of_le hle
  -- The induction is on the number of categories between the two.
  induction count generalizing least with
  | zero => exact h
  | succ count ih =>
    have heq : least + (count + 1) = least + 1 + count := by omega
    rw [heq] at h hmore
    have hsucc := ih (Nat.le_add_left 1 least) (hrest.of_le (Nat.le_succ least))
      (Nat.le_add_right _ _) hmore h
    exact readLeast_of_succ hpos (by omega) hsucc hrest

/-! ## Operands -/

/-- The tokens of a sentence are read to the sentence, in the loosest category that does not need
parentheses around it. -/
def ReadsBack (last : Span) (s : Sentence) : Prop :=
  ∀ levels tokens rest, nesting s ≤ levels → tokens.map Token.symbol = s.symbols →
    Ends (min 5 s.strength) rest →
    readLeast (readAt last levels) last (min 5 s.strength) (tokens ++ rest) = .ok (s, rest)

/-- The tokens of an operand, its parentheses included, are read to the operand. -/
theorem ReadsBack.operand (h : ReadsBack last s) (hpos : 1 ≤ least) (hle : least ≤ 5)
    (hlevels : depth least s ≤ levels)
    (htokens : tokens.map Token.symbol = encloseSymbols least s s.symbols)
    (hrest : Ends least rest) :
    readLeast (readAt last levels) last least (tokens ++ rest) = .ok (s, rest) := by
  have hstrength := strength_pos s
  rcases Nat.lt_or_ge s.strength least with hlt | hge
  · rw [depth_of_lt hlt] at hlevels
    rw [encloseSymbols, if_pos hlt] at htokens
    obtain ⟨levels, rfl⟩ := Nat.exists_eq_add_of_le' (Nat.le_trans (Nat.le_add_right 1 _) hlevels)
    simp only [List.cons_append, List.map_eq_cons_iff, List.map_eq_append_iff,
      List.map_eq_nil_iff] at htokens
    obtain ⟨opening, _, rfl, hopening, inner, _, rfl, hinner, closing, _, rfl, hclosing, rfl⟩ :=
      htokens
    -- Between the parentheses stands the sentence itself, as a biconditional.
    have hends : ∀ least, Ends least (closing :: rest) := fun least =>
      ends_cons (by rw [hclosing]; rfl) rest
    have hread := h levels inner (closing :: rest) (by omega) hinner (hends _)
    have hnested := readLeast_of_le (Nat.le_refl 1) (by omega) (Nat.min_le_left _ _) hread
      (hends 1)
    have hunit : readLeast (readAt last (levels + 1)) last 5
        (opening :: (inner ++ closing :: rest)) = .ok (s, rest) := by
      simp only [readLeast, readUnit, hopening]
      rw [readAt, readCategory]
      simp only [readLeast] at hnested
      simp only [hnested, bind, Except.bind, readClosing, hclosing, if_true]
      rfl
    have := readLeast_of_le hpos hle (Nat.le_refl 5) hunit hrest
    simpa using this
  · rw [depth_of_le hge] at hlevels
    rw [encloseSymbols, if_neg (Nat.not_lt.2 hge)] at htokens
    have hread := h levels tokens rest hlevels htokens (hrest.of_le (by omega))
    exact readLeast_of_le hpos (by omega) (Nat.min_le_left _ _) hread hrest

/-- The same for an operand that is nested one level down. -/
theorem ReadsBack.nested (h : ReadsBack last s) (category : Category) (opener : Span)
    (hlevels : 1 + depth category.least s ≤ levels)
    (htokens : tokens.map Token.symbol = encloseSymbols category.least s s.symbols)
    (hrest : Ends category.least rest) :
    readAt last levels category opener (tokens ++ rest) = .ok (s, rest) := by
  obtain ⟨levels, rfl⟩ := Nat.exists_eq_add_of_le' (Nat.le_trans (Nat.le_add_right 1 _) hlevels)
  have hdepth : depth category.least s ≤ levels := by omega
  cases category with
  | biconditional => exact h.operand (by decide) (by decide) hdepth htokens hrest
  | implication => exact h.operand (by decide) (by decide) hdepth htokens hrest
  | unit => exact h.operand (by decide) (by decide) hdepth htokens hrest

/-! ## Chains and terms -/

theorem intercalate_cons {α : Type} (separator : List α) (xs : List α) (xss : List (List α)) :
    separator.intercalate (xs :: xss) = xs ++ xss.flatMap (separator ++ ·) := by
  induction xss generalizing xs with
  | nil => simp
  | cons ys xss ih => rw [List.intercalate_cons_cons, ih, List.flatMap_cons, List.append_assoc,
    List.append_assoc]

theorem length_le_length_flatMap {α : Type} (x : α) (xss : List (List α)) :
    xss.length ≤ (xss.flatMap ([x] ++ ·)).length := by
  induction xss with
  | nil => simp
  | cons xs xss ih =>
    rw [List.flatMap_cons, List.length_append, List.length_append, List.length_singleton,
      List.length_cons]
    omega

/-- In front of further operands, or where the chain ends, an operand ends. -/
theorem ends_operands {connective : Symbol} (hoperand : goesOn (least + 1) connective = false)
    {as : List Sentence} (htokens : tokens.map Token.symbol =
      (operandSymbols (least + 1) as).flatMap ([connective] ++ ·))
    (hrest : Ends least rest) : Ends (least + 1) (tokens ++ rest) := by
  cases as with
  | nil =>
    obtain rfl : tokens = [] := by simpa [operandSymbols] using htokens
    exact hrest.of_le (Nat.le_succ least)
  | cons b as =>
    simp only [operandSymbols, List.flatMap_cons, List.cons_append, List.map_eq_cons_iff]
      at htokens
    obtain ⟨separator, others, rfl, hseparator, -⟩ := htokens
    exact ends_cons (by rw [hseparator]; exact hoperand) _

/-- The operands behind the first one are read one after the other. -/
theorem readMore_operands {connective : Symbol} (hconnective : goesOn least connective = true)
    (hoperand : goesOn (least + 1) connective = false) (hle : least + 1 ≤ 5)
    {as : List Sentence} (has : ∀ a ∈ as, ReadsBack last a ∧ depth (least + 1) a ≤ levels)
    (htokens : tokens.map Token.symbol =
      (operandSymbols (least + 1) as).flatMap ([connective] ++ ·))
    (hrest : Ends least rest) {rounds : Nat} (hrounds : as.length ≤ rounds) :
    readMore connective (readLeast (readAt last levels) last (least + 1)) rounds (tokens ++ rest) =
      .ok (as, rest) := by
  induction as generalizing tokens rounds with
  | nil =>
    obtain rfl : tokens = [] := by simpa [operandSymbols] using htokens
    exact readMore_of_ends hconnective hrest _ _
  | cons a as ih =>
    obtain ⟨⟨ha, hdepth⟩, has⟩ := List.forall_mem_cons.1 has
    obtain ⟨rounds, rfl⟩ := Nat.exists_eq_add_of_le' (Nat.le_trans (Nat.le_add_left 1 _) hrounds)
    simp only [operandSymbols, List.flatMap_cons, List.cons_append, List.nil_append,
      List.map_eq_cons_iff, List.map_eq_append_iff] at htokens
    obtain ⟨separator, _, rfl, hseparator, first, others, rfl, hfirst, hothers⟩ := htokens
    have hends := ends_operands hoperand hothers hrest
    have hread := ha.operand (Nat.le_add_left 1 least) hle hdepth hfirst hends
    have hmore := ih has hothers (Nat.le_of_succ_le_succ hrounds)
    simp only [List.cons_append, List.append_assoc, readMore, hseparator, if_true, hread, bind,
      Except.bind, hmore]
    rfl

/-- A chain is read to the list of its operands. -/
theorem readChain_operands {connective : Symbol} (hconnective : goesOn least connective = true)
    (hoperand : goesOn (least + 1) connective = false) (hle : least + 1 ≤ 5)
    {join : List Sentence → Sentence} {as : List Sentence} (hcount : 1 ≤ as.length)
    (has : ∀ a ∈ as, ReadsBack last a ∧ depth (least + 1) a ≤ levels)
    (htokens : tokens.map Token.symbol =
      [connective].intercalate (operandSymbols (least + 1) as))
    (hrest : Ends least rest) :
    readChain connective join (readLeast (readAt last levels) last (least + 1)) (tokens ++ rest) =
      .ok (join as, rest) := by
  cases as with
  | nil => simp at hcount
  | cons a as =>
    obtain ⟨⟨ha, hdepth⟩, has⟩ := List.forall_mem_cons.1 has
    rw [operandSymbols, intercalate_cons, List.map_eq_append_iff] at htokens
    obtain ⟨first, others, rfl, hfirst, hothers⟩ := htokens
    have hends := ends_operands hoperand hothers hrest
    have hread := ha.operand (Nat.le_add_left 1 least) hle hdepth hfirst hends
    -- Each further operand brings a connective, so there are enough rounds.
    have hrounds : as.length ≤ (others ++ rest).length := by
      have hlength := length_le_length_flatMap connective (operandSymbols (least + 1) as)
      rw [← hothers, List.length_map, operandSymbols_eq_map, List.length_map] at hlength
      rw [List.length_append]
      exact Nat.le_add_right_of_le hlength
    have hmore := readMore_operands hconnective hoperand hle has hothers hrest hrounds
    simp only [List.append_assoc, readChain, hread, bind, Except.bind, hmore]
    rfl

theorem length_le_of_termSymbols {terms : List String} (htokens : tokens.map Token.symbol =
      [.comma].intercalate (terms.map fun term => [.word term]) ++ [.closeParen]) :
    terms.length ≤ tokens.length := by
  rw [← List.length_map (f := Token.symbol), htokens, List.length_append]
  cases terms with
  | nil => simp
  | cons first more =>
    have hmore := length_le_length_flatMap Symbol.comma (more.map fun term => [.word term])
    rw [List.length_map] at hmore
    rw [List.map_cons, intercalate_cons, List.length_append, List.length_cons]
    simp only [List.length_singleton]
    omega

/-- The terms of a predicate are read up to the closing parenthesis. -/
theorem readTerms_symbols {terms : List String} (hcount : 1 ≤ terms.length)
    (htokens : tokens.map Token.symbol =
      [.comma].intercalate (terms.map fun term => [.word term]) ++ [.closeParen])
    {rounds : Nat} (hrounds : terms.length ≤ rounds) :
    readTerms last rounds (tokens ++ rest) = .ok (terms, rest) := by
  induction terms generalizing tokens rounds with
  | nil => simp at hcount
  | cons name terms ih =>
    obtain ⟨rounds, rfl⟩ := Nat.exists_eq_add_of_le' (Nat.le_trans (Nat.le_add_left 1 _) hrounds)
    cases terms with
    | nil =>
      simp only [List.map_cons, List.map_nil, List.intercalate_singleton, List.cons_append,
        List.nil_append, List.map_eq_cons_iff, List.map_eq_nil_iff] at htokens
      obtain ⟨word, _, rfl, hword, closing, _, rfl, hclosing, rfl⟩ := htokens
      simp only [List.cons_append, readTerms, readName, hword, hclosing, bind, Except.bind]
      rfl
    | cons other terms =>
      simp only [List.map_cons, List.intercalate_cons_cons, List.cons_append, List.nil_append,
        List.map_eq_cons_iff] at htokens
      obtain ⟨word, _, rfl, hword, comma, others, rfl, hcomma, hothers⟩ := htokens
      have hmore := ih (by simp) hothers (Nat.le_of_succ_le_succ hrounds)
      simp only [List.cons_append, readTerms, readName, hword, hcomma, bind, Except.bind, hmore]
      rfl

/-! ## Every sentence -/

/-- A quantified sentence is read to the name and the body behind its quantifier. -/
theorem readQuantified_symbols (h : ReadsBack last s) (hlevels : 1 + depth 5 s ≤ levels)
    {x : String} (build : String → Sentence → Sentence)
    (htokens : tokens.map Token.symbol = .word x :: encloseSymbols 5 s s.symbols)
    (hrest : Ends 5 rest) :
    readQuantified (readAt last levels) last build (tokens ++ rest) = .ok (build x s, rest) := by
  obtain ⟨word, body, rfl, hword, hbody⟩ := List.map_eq_cons_iff.1 htokens
  have hread := h.nested .unit word.span hlevels hbody hrest
  simp only [List.cons_append, readQuantified, readName, hword, bind, Except.bind,
    List.head?_cons, Option.map_some, Option.getD_some, hread]
  rfl

/-- A sentence with a left and a right operand is read to the two of them. -/
theorem readRight_operands {a b : Sentence} {connective : Symbol} (category : Category)
    (hcategory : category.least + 1 ≤ 5) (ha : ReadsBack last a) (hb : ReadsBack last b)
    (hlevels : max (depth (category.least + 1) a) (1 + depth category.least b) ≤ levels)
    (build : Sentence → Sentence → Sentence)
    (hoperand : goesOn (category.least + 1) connective = false)
    (htokens : tokens.map Token.symbol = encloseSymbols (category.least + 1) a a.symbols ++
      connective :: encloseSymbols category.least b b.symbols)
    (hrest : Ends category.least rest) :
    readRight (readAt last levels) connective category build
      (readLeast (readAt last levels) last (category.least + 1)) (tokens ++ rest) =
      .ok (build a b, rest) := by
  obtain ⟨hleft, hright⟩ := Nat.max_le.1 hlevels
  simp only [List.map_eq_append_iff, List.map_eq_cons_iff] at htokens
  obtain ⟨left, _, rfl, hleftTokens, token, right, rfl, htoken, hrightTokens⟩ := htokens
  have hends : Ends (category.least + 1) (token :: (right ++ rest)) :=
    ends_cons (by rw [htoken]; exact hoperand) _
  have hreadLeft := ha.operand (Nat.le_add_left 1 _) hcategory hleft hleftTokens hends
  have hreadRight := hb.nested category token.span hright hrightTokens hrest
  simp only [List.append_assoc, List.cons_append, readRight, hreadLeft, bind, Except.bind, htoken,
    if_true, hreadRight]
  rfl

/-- Every grammatical sentence is read back from its tokens. -/
theorem readsBack_of_grammatical (last : Span) (hs : Grammatical s) : ReadsBack last s := by
  -- One case for each rule of the grammar, with the parts of the sentence read back already.
  induction hs with
  | falsum =>
    intro levels tokens rest _ htokens _
    rw [symbols, List.map_eq_cons_iff] at htokens
    obtain ⟨token, others, rfl, htoken, hothers⟩ := htokens
    obtain rfl := List.map_eq_nil_iff.1 hothers
    show readUnit (readAt last levels) last (token :: rest) = _
    rw [readUnit, htoken]
  | verum =>
    intro levels tokens rest _ htokens _
    rw [symbols, List.map_eq_cons_iff] at htokens
    obtain ⟨token, others, rfl, htoken, hothers⟩ := htokens
    obtain rfl := List.map_eq_nil_iff.1 hothers
    show readUnit (readAt last levels) last (token :: rest) = _
    rw [readUnit, htoken]
  | @predicate name terms hname hterms =>
    intro levels tokens rest _ htokens hrest
    rw [symbols, List.map_eq_cons_iff] at htokens
    obtain ⟨word, others, rfl, hword, hothers⟩ := htokens
    show readUnit (readAt last levels) last (word :: (others ++ rest)) = _
    rw [readUnit, hword]
    cases terms with
    | nil =>
      obtain rfl := List.map_eq_nil_iff.1 hothers
      -- Nothing that follows can be taken for terms.
      cases rest with
      | nil => rfl
      | cons token rest =>
        have hnot : token.symbol ≠ .openParen := hrest.symbol_ne rfl
        obtain ⟨symbol, span⟩ := token
        cases symbol with
        | openParen => exact absurd rfl hnot
        | _ => rfl
    | cons first more =>
      simp only [termSymbols, List.cons_append, List.map_eq_cons_iff] at hothers
      obtain ⟨⟨_, span⟩, others, rfl, rfl, hnames⟩ := hothers
      have hrounds : (first :: more).length ≤ (others ++ rest).length := by
        rw [List.length_append]
        exact Nat.le_add_right_of_le (length_le_of_termSymbols hnames)
      have hread : readTerms last (others ++ rest).length (others ++ rest) =
          .ok (first :: more, rest) := readTerms_symbols (by simp) hnames hrounds
      simp only [List.cons_append, hread, bind, Except.bind]
      rfl
  | @not a ha ih =>
    intro levels tokens rest hlevels htokens hrest
    rw [symbols, List.map_eq_cons_iff] at htokens
    obtain ⟨token, body, rfl, htoken, hbody⟩ := htokens
    have hread := ih.nested .unit token.span hlevels hbody hrest
    show readUnit (readAt last levels) last (token :: (body ++ rest)) = _
    simp only [readUnit, htoken, hread, bind, Except.bind]
    rfl
  | and hcount has ih =>
    intro levels tokens rest hlevels htokens hrest
    have hdepth := nestingAmong_le_iff.1 hlevels
    show readChain .and conjunction (readLeast (readAt last levels) last 5) (tokens ++ rest) = _
    rw [readChain_operands (by rfl) (by rfl) (by decide) (Nat.le_of_succ_le hcount)
      (fun a ha => ⟨ih a ha, hdepth a ha⟩) htokens hrest, conjunction_of_two_le hcount]
  | or hcount has ih =>
    intro levels tokens rest hlevels htokens hrest
    have hdepth := nestingAmong_le_iff.1 hlevels
    show readChain .or disjunction (readLeast (readAt last levels) last 4) (tokens ++ rest) = _
    rw [readChain_operands (by rfl) (by rfl) (by decide) (Nat.le_of_succ_le hcount)
      (fun a ha => ⟨ih a ha, hdepth a ha⟩) htokens hrest, disjunction_of_two_le hcount]
  | implies ha hb iha ihb =>
    intro levels tokens rest hlevels htokens hrest
    exact readRight_operands .implication (by decide) iha ihb hlevels implies rfl htokens hrest
  | iff ha hb iha ihb =>
    intro levels tokens rest hlevels htokens hrest
    exact readRight_operands .biconditional (by decide) iha ihb hlevels iff rfl htokens hrest
  | @forAll x a hx ha ih =>
    intro levels tokens rest hlevels htokens hrest
    rw [symbols, List.map_eq_cons_iff] at htokens
    obtain ⟨token, others, rfl, htoken, hothers⟩ := htokens
    show readUnit (readAt last levels) last (token :: (others ++ rest)) = _
    simp only [readUnit, htoken]
    exact readQuantified_symbols ih hlevels .forAll hothers hrest
  | @thereExists x a hx ha ih =>
    intro levels tokens rest hlevels htokens hrest
    rw [symbols, List.map_eq_cons_iff] at htokens
    obtain ⟨token, others, rfl, htoken, hothers⟩ := htokens
    show readUnit (readAt last levels) last (token :: (others ++ rest)) = _
    simp only [readUnit, htoken]
    exact readQuantified_symbols ih hlevels .thereExists hothers hrest

/-! ## Renderings -/

theorem symbols_ne_nil (hs : Grammatical s) : s.symbols ≠ [] := by
  cases hs with
  | @and as hcount =>
    match as, hcount with
    | _ :: _ :: _, _ => simp [symbols, operandSymbols, List.intercalate_cons_cons]
  | @or as hcount =>
    match as, hcount with
    | _ :: _ :: _, _ => simp [symbols, operandSymbols, List.intercalate_cons_cons]
  | _ => simp [symbols]

/-- The tokens of a grammatical sentence are all used up by it. -/
theorem ofTokensUpTo_of_grammatical (hs : Grammatical s) {limit : Nat} (hlimit : s.nesting ≤ limit)
    {first : Token} {others : List Token}
    (htokens : (first :: others).map Token.symbol = s.symbols) :
    ofTokensUpTo limit first others = .ok s := by
  have hlevels : 1 + depth Category.biconditional.least s ≤ limit + 1 := by
    rw [Category.least, depth_one, Nat.add_comm limit]
    exact Nat.add_le_add_left hlimit 1
  have henclose : encloseSymbols Category.biconditional.least s s.symbols = s.symbols :=
    if_neg (Nat.not_lt.2 (strength_pos s))
  have hread := (readsBack_of_grammatical
    ((first :: others).getLast (List.cons_ne_nil _ _)).span hs).nested
    .biconditional first.span hlevels (htokens.trans henclose.symm) (ends_nil _)
  rw [List.append_nil] at hread
  simp only [ofTokensUpTo, hread, bind, Except.bind]
  rfl

/-- The rendering of a sentence is read to the sentence with as many levels as it is nested. -/
theorem readUpTo_render (hs : Grammatical s) {limit : Nat} (hlimit : s.nesting ≤ limit) :
    readUpTo limit s.render = .ok (some s) := by
  obtain ⟨tokens, hscan, hsymbols⟩ := exists_scan_render hs
  cases tokens with
  | nil => exact absurd hsymbols.symm (symbols_ne_nil hs)
  | cons first others =>
    simp only [readUpTo, hscan, bind, Except.bind, ofTokensUpTo_of_grammatical hs hlimit hsymbols]
    rfl

/-- The rendering of an expressible sentence is read to the sentence. -/
theorem read_render (hs : Expressible s) : read s.render = .ok (some s) :=
  readUpTo_render hs.grammatical hs.nesting_le

/-- The sentences that texts are read to are the expressible ones, and rendering one of them gives
a text of it. -/
theorem read_render_iff_expressible (s : Sentence) :
    ((∃ text, read text = .ok (some s)) ↔ Expressible s) ∧
      (Expressible s → read s.render = .ok (some s)) := by
  constructor
  · constructor
    · rintro ⟨text, hread⟩
      exact expressible_of_read hread
    · intro hs
      exact ⟨s.render, read_render hs⟩
  · exact read_render

/-- A disjunction in front of an arrow needs no parentheses, one behind a negation does. -/
theorem read_render_iff_expressible_negatedDisjunction :
    ∃ text, read text = .ok (some (implies (or [predicate "P" ["x"], verum])
      (not (or [forAll "x" (predicate "Q" []), falsum])))) := by
  refine (read_render_iff_expressible _).1.2 ⟨?_, by decide⟩
  have hx : isName "x" = true := by decide
  have hP : Grammatical (predicate "P" ["x"]) := .predicate (by decide) (by simpa using hx)
  have hQ : Grammatical (predicate "Q" []) := .predicate (by decide) (by simp)
  refine .implies (.or (by decide) ?_) (.not (.or (by decide) ?_))
  · simpa using ⟨hP, .verum⟩
  · simpa using ⟨.forAll hx hQ, .falsum⟩

end NaturalDeduction.Sentence
