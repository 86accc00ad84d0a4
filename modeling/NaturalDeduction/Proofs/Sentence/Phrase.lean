/-
  The grammar of sentences.

  Symbols form phrases of five kinds, loosest first: biconditionals and
  implications group to the right, disjunctions and conjunctions are chains that
  become one node, and units bind tightest. A derivation counts how deep it is
  nested: one level for each pair of parentheses, prefix operator, quantifier
  and right operand of `→` or `↔` that stands in another one. The reader finds a
  sentence in a text exactly when the grammar derives it from the lexemes of the
  text with at most 128 levels, and then it is the only one that is derived.
-/

import NaturalDeduction.Proofs.Sentence.Lexeme
import NaturalDeduction.Proofs.Sentence.RoundTrip

namespace NaturalDeduction.Sentence

open Token

/-! ## Derivations -/

/-- The kinds of phrases. -/
inductive Phrase where
  | biconditional
  | implication
  | disjunction
  | conjunction
  | unit
  deriving DecidableEq

/-- Names with commas between them. -/
inductive Names : List Symbol → List String → Prop where
  | one (name : String) : Names [.word name] [name]
  | more {symbols : List Symbol} {names : List String} (name : String)
      (h : Names symbols names) : Names (.word name :: .comma :: symbols) (name :: names)

mutual

/-- The symbols form a phrase that stands for the sentence, nested so many levels deep. -/
inductive Derives : Phrase → List Symbol → Sentence → Nat → Prop where
  | falsum : Derives .unit [.falsum] falsum 0
  | verum : Derives .unit [.verum] verum 0
  | letter (name : String) : Derives .unit [.word name] (predicate name []) 0
  | application {symbols : List Symbol} {terms : List String} (name : String)
      (h : Names symbols terms) :
      Derives .unit (.word name :: .openParen :: (symbols ++ [.closeParen]))
        (predicate name terms) 0
  | parenthesised {symbols : List Symbol} {s : Sentence} {depth : Nat}
      (h : Derives .biconditional symbols s depth) :
      Derives .unit (.openParen :: (symbols ++ [.closeParen])) s (depth + 1)
  | not {symbols : List Symbol} {s : Sentence} {depth : Nat} (h : Derives .unit symbols s depth) :
      Derives .unit (.not :: symbols) (not s) (depth + 1)
  | forAll {symbols : List Symbol} {s : Sentence} {depth : Nat} (x : String)
      (h : Derives .unit symbols s depth) :
      Derives .unit (.forAll :: .word x :: symbols) (forAll x s) (depth + 1)
  | thereExists {symbols : List Symbol} {s : Sentence} {depth : Nat} (x : String)
      (h : Derives .unit symbols s depth) :
      Derives .unit (.thereExists :: .word x :: symbols) (thereExists x s) (depth + 1)
  | conjunction {symbols : List Symbol} {operands : List Sentence} {depth : Nat}
      (h : Chain .and .unit symbols operands depth) :
      Derives .conjunction symbols (conjunction operands) depth
  | disjunction {symbols : List Symbol} {operands : List Sentence} {depth : Nat}
      (h : Chain .or .conjunction symbols operands depth) :
      Derives .disjunction symbols (disjunction operands) depth
  | ofDisjunction {symbols : List Symbol} {s : Sentence} {depth : Nat}
      (h : Derives .disjunction symbols s depth) : Derives .implication symbols s depth
  | implies {left right : List Symbol} {a b : Sentence} {m n : Nat}
      (ha : Derives .disjunction left a m) (hb : Derives .implication right b n) :
      Derives .implication (left ++ .implies :: right) (implies a b) (max m (n + 1))
  | ofImplication {symbols : List Symbol} {s : Sentence} {depth : Nat}
      (h : Derives .implication symbols s depth) : Derives .biconditional symbols s depth
  | iff {left right : List Symbol} {a b : Sentence} {m n : Nat}
      (ha : Derives .implication left a m) (hb : Derives .biconditional right b n) :
      Derives .biconditional (left ++ .iff :: right) (iff a b) (max m (n + 1))

/-- The symbols form phrases of one kind with a connective between them, for the sentences. -/
inductive Chain : Symbol → Phrase → List Symbol → List Sentence → Nat → Prop where
  | one {connective : Symbol} {phrase : Phrase} {symbols : List Symbol} {s : Sentence}
      {depth : Nat} (h : Derives phrase symbols s depth) : Chain connective phrase symbols [s] depth
  | more {connective : Symbol} {phrase : Phrase} {left right : List Symbol} {s : Sentence}
      {operands : List Sentence} {m n : Nat} (h : Derives phrase left s m)
      (hmore : Chain connective phrase right operands n) :
      Chain connective phrase (left ++ connective :: right) (s :: operands) (max m n)

end

/-- How tightly the sentences of a phrase have to bind. -/
def Phrase.least : Phrase → Nat
  | biconditional => 1
  | implication => 2
  | disjunction => 3
  | conjunction => 4
  | unit => 5

/-- The kind of phrase that may stand nested in a sentence. -/
def Category.phrase : Category → Phrase
  | biconditional => .biconditional
  | implication => .implication
  | unit => .unit

/-! ## What is read is derived -/

variable {last : Span} {phrase : Phrase} {connective : Symbol} {symbols left right : List Symbol}
  {tokens rest : List Token} {s a b : Sentence} {operands : List Sentence}
  {depth levels m n : Nat} {nested : NestedReader}

/-- The tokens up to the rest form a phrase for the sentence, nested at most so many levels deep. -/
def Finds (levels : Nat) (phrase : Phrase) (tokens : List Token) (s : Sentence)
    (rest : List Token) : Prop :=
  ∃ part depth, tokens = part ++ rest ∧ depth ≤ levels ∧
    Derives phrase (part.map Token.symbol) s depth

/-- Whatever the reader reads is a phrase. -/
def ReadsPhrase (levels : Nat) (phrase : Phrase) (reader : PartReader) : Prop :=
  ∀ tokens s rest, reader tokens = .ok (s, rest) → Finds levels phrase tokens s rest

/-- Whatever is read as a nested part is a phrase that leaves a level for its nesting. -/
def NestsPhrase (levels : Nat) (nested : NestedReader) : Prop :=
  ∀ category opener tokens s rest, nested category opener tokens = .ok (s, rest) →
    ∃ part depth, tokens = part ++ rest ∧ depth + 1 ≤ levels ∧
      Derives category.phrase (part.map Token.symbol) s depth

theorem names_of_readTerms {rounds : Nat} {names : List String}
    (h : readTerms last rounds tokens = .ok (names, rest)) :
    ∃ part closing, tokens = part ++ closing :: rest ∧ closing.symbol = .closeParen ∧
      Names (part.map Token.symbol) names := by
  induction rounds generalizing tokens names with
  | zero => cases h
  | succ rounds ih =>
    obtain ⟨⟨name, others⟩, hname, hmore⟩ := Except.bind_eq_ok.1 h
    obtain ⟨word, rfl, hword⟩ := readName_eq_ok hname
    dsimp only at hmore
    split at hmore
    · cases hmore
    · rename_i separator others
      split at hmore
      · rename_i hseparator
        obtain ⟨⟨more, rest'⟩, hterms, hdone⟩ := Except.bind_eq_ok.1 hmore
        cases hdone
        obtain ⟨part, closing, rfl, hclosing, hnames⟩ := ih hterms
        refine ⟨word :: separator :: part, closing, rfl, hclosing, ?_⟩
        simpa [hword, hseparator] using hnames.more name
      · rename_i hseparator
        cases hmore
        exact ⟨[word], separator, rfl, hseparator, by simpa [hword] using Names.one name⟩
      · cases hmore

theorem eq_of_readClosing (h : readClosing last tokens = .ok ((), rest)) :
    ∃ closing, tokens = closing :: rest ∧ closing.symbol = .closeParen := by
  unfold readClosing at h
  split at h
  · cases h
  · rename_i closing others
    split at h
    · rename_i hclosing
      cases h
      exact ⟨closing, rfl, hclosing⟩
    · cases h

theorem readsPhrase_unit (hnested : NestsPhrase levels nested) :
    ReadsPhrase levels .unit (readUnit nested last) := by
  intro tokens s rest h
  cases tokens with
  | nil => cases h
  | cons token tokens =>
    unfold readUnit at h
    dsimp only at h
    -- One case for each symbol that a unit may begin with.
    split at h
    · rename_i hsymbol
      obtain ⟨⟨body, rest'⟩, hread, hdone⟩ := Except.bind_eq_ok.1 h
      cases hdone
      obtain ⟨part, depth, rfl, hdepth, hbody⟩ := hnested _ _ _ _ _ hread
      exact ⟨token :: part, depth + 1, rfl, hdepth, by simpa [hsymbol] using hbody.not⟩
    · rename_i hsymbol
      obtain ⟨⟨x, others⟩, hname, hquantified⟩ := Except.bind_eq_ok.1 h
      obtain ⟨word, rfl, hword⟩ := readName_eq_ok hname
      obtain ⟨⟨body, rest'⟩, hread, hdone⟩ := Except.bind_eq_ok.1 hquantified
      cases hdone
      obtain ⟨part, depth, rfl, hdepth, hbody⟩ := hnested _ _ _ _ _ hread
      exact ⟨token :: word :: part, depth + 1, rfl, hdepth,
        by simpa [hsymbol, hword] using hbody.forAll x⟩
    · rename_i hsymbol
      obtain ⟨⟨x, others⟩, hname, hquantified⟩ := Except.bind_eq_ok.1 h
      obtain ⟨word, rfl, hword⟩ := readName_eq_ok hname
      obtain ⟨⟨body, rest'⟩, hread, hdone⟩ := Except.bind_eq_ok.1 hquantified
      cases hdone
      obtain ⟨part, depth, rfl, hdepth, hbody⟩ := hnested _ _ _ _ _ hread
      exact ⟨token :: word :: part, depth + 1, rfl, hdepth,
        by simpa [hsymbol, hword] using hbody.thereExists x⟩
    · rename_i hsymbol
      obtain ⟨⟨inner, rest'⟩, hread, hclosing⟩ := Except.bind_eq_ok.1 h
      obtain ⟨⟨_, rest''⟩, hclose, hdone⟩ := Except.bind_eq_ok.1 hclosing
      cases hdone
      obtain ⟨closing, rfl, hclosed⟩ := eq_of_readClosing hclose
      obtain ⟨part, depth, rfl, hdepth, hinner⟩ := hnested _ _ _ _ _ hread
      refine ⟨token :: (part ++ [closing]), depth + 1, by simp, hdepth, ?_⟩
      simpa [hsymbol, hclosed] using hinner.parenthesised
    · rename_i hsymbol
      cases h
      exact ⟨[token], 0, rfl, Nat.zero_le _, by simpa [hsymbol] using Derives.falsum⟩
    · rename_i hsymbol
      cases h
      exact ⟨[token], 0, rfl, Nat.zero_le _, by simpa [hsymbol] using Derives.verum⟩
    · rename_i name hsymbol
      split at h
      · rename_i span others
        obtain ⟨⟨terms, rest'⟩, hterms, hdone⟩ := Except.bind_eq_ok.1 h
        cases hdone
        obtain ⟨part, closing, rfl, hclosing, hnames⟩ := names_of_readTerms hterms
        refine ⟨token :: ⟨.openParen, span⟩ :: (part ++ [closing]), 0, by simp, Nat.zero_le _, ?_⟩
        simpa [hsymbol, hclosing] using Derives.application name hnames
      · cases h
        exact ⟨[token], 0, rfl, Nat.zero_le _, by simpa [hsymbol] using Derives.letter name⟩
    · cases h

/-- The operands behind the first one go on with a chain. -/
theorem chain_of_readMore {readOperand : PartReader}
    (hoperand : ReadsPhrase levels phrase readOperand) {rounds : Nat}
    (h : readMore connective readOperand rounds tokens = .ok (operands, rest)) :
    ∃ part depth, tokens = part ++ rest ∧ depth ≤ levels ∧
      ∀ symbols s m, Derives phrase symbols s m →
        Chain connective phrase (symbols ++ part.map Token.symbol) (s :: operands)
          (max m depth) := by
  induction rounds generalizing tokens operands with
  | zero =>
    cases h
    exact ⟨[], 0, rfl, Nat.zero_le _, fun symbols s m hs => by simpa using Chain.one hs⟩
  | succ rounds ih =>
    cases tokens with
    | nil =>
      cases h
      exact ⟨[], 0, rfl, Nat.zero_le _, fun symbols s m hs => by simpa using Chain.one hs⟩
    | cons token tokens =>
      simp only [readMore] at h
      split at h
      · rename_i hconnective
        obtain ⟨⟨operand, rest'⟩, hread, hmore⟩ := Except.bind_eq_ok.1 h
        obtain ⟨⟨others, rest''⟩, hothers, hdone⟩ := Except.bind_eq_ok.1 hmore
        cases hdone
        obtain ⟨first, m, rfl, hm, hfirst⟩ := hoperand _ _ _ hread
        obtain ⟨part, n, rfl, hn, hpart⟩ := ih hothers
        refine ⟨token :: (first ++ part), max m n, by simp, Nat.max_le.2 ⟨hm, hn⟩, ?_⟩
        intro symbols s k hs
        simpa [hconnective] using Chain.more hs (hpart _ _ _ hfirst)
      · cases h
        exact ⟨[], 0, rfl, Nat.zero_le _, fun symbols s m hs => by simpa using Chain.one hs⟩

/-- What is read as a chain is one, when joining makes a phrase of a chain. -/
theorem readsPhrase_chain {readOperand : PartReader} {operand : Phrase}
    (hoperand : ReadsPhrase levels operand readOperand) {join : List Sentence → Sentence}
    (hjoin : ∀ {symbols operands depth}, Chain connective operand symbols operands depth →
      Derives phrase symbols (join operands) depth) :
    ReadsPhrase levels phrase (readChain connective join readOperand) := by
  intro tokens s rest h
  obtain ⟨⟨first, others⟩, hfirst, hmore⟩ := Except.bind_eq_ok.1 h
  obtain ⟨⟨more, rest'⟩, hothers, hdone⟩ := Except.bind_eq_ok.1 hmore
  cases hdone
  obtain ⟨part, m, rfl, hm, hpart⟩ := hoperand _ _ _ hfirst
  obtain ⟨behind, n, rfl, hn, hchain⟩ := chain_of_readMore hoperand hothers
  refine ⟨part ++ behind, max m n, by simp, Nat.max_le.2 ⟨hm, hn⟩, ?_⟩
  simpa using hjoin (hchain _ _ _ hpart)

/-- What is read with a right operand, or without one, is a phrase. -/
theorem readsPhrase_right (category : Category) (hnested : NestsPhrase levels nested)
    {readLeft : PartReader} {leftPhrase : Phrase} (hleft : ReadsPhrase levels leftPhrase readLeft)
    {build : Sentence → Sentence → Sentence}
    (halone : ∀ {symbols s depth}, Derives leftPhrase symbols s depth →
      Derives category.phrase symbols s depth)
    (hbuild : ∀ {left right a b m n}, Derives leftPhrase left a m →
      Derives category.phrase right b n →
        Derives category.phrase (left ++ connective :: right) (build a b) (max m (n + 1))) :
    ReadsPhrase levels category.phrase (readRight nested connective category build readLeft) := by
  intro tokens s rest h
  obtain ⟨⟨left, others⟩, hread, hright⟩ := Except.bind_eq_ok.1 h
  obtain ⟨part, m, rfl, hm, hpart⟩ := hleft _ _ _ hread
  dsimp only at hright
  split at hright
  · rename_i token others
    split at hright
    · rename_i hconnective
      obtain ⟨⟨right, rest'⟩, hnestedRead, hdone⟩ := Except.bind_eq_ok.1 hright
      cases hdone
      obtain ⟨behind, n, rfl, hn, hbehind⟩ := hnested _ _ _ _ _ hnestedRead
      refine ⟨part ++ token :: behind, max m (n + 1), by simp, Nat.max_le.2 ⟨hm, hn⟩, ?_⟩
      simpa [hconnective] using hbuild hpart hbehind
    · cases hright
      exact ⟨part, m, rfl, hm, halone hpart⟩
  · cases hright
    exact ⟨part, m, rfl, hm, halone hpart⟩

/-- What is read at one level is a phrase, when what is read nested in it is. -/
theorem readsPhrase_category (hnested : NestsPhrase levels nested) (category : Category) :
    ReadsPhrase levels category.phrase (readCategory nested last category) := by
  have hunit : ReadsPhrase levels .unit (readUnit nested last) := readsPhrase_unit hnested
  have hconjunction : ReadsPhrase levels .conjunction (readConjunction nested last) :=
    readsPhrase_chain hunit .conjunction
  have hdisjunction : ReadsPhrase levels .disjunction (readDisjunction nested last) :=
    readsPhrase_chain hconjunction .disjunction
  have himplication : ReadsPhrase levels .implication (readImplication nested last) :=
    readsPhrase_right .implication hnested hdisjunction .ofDisjunction .implies
  cases category with
  | biconditional => exact readsPhrase_right .biconditional hnested himplication .ofImplication .iff
  | implication => exact himplication
  | unit => exact hunit

/-- With a number of levels left, phrases are read that are nested less deep. -/
theorem nestsPhrase_readAt (last : Span) (levels : Nat) :
    NestsPhrase levels (readAt last levels) := by
  induction levels with
  | zero =>
    intro category opener tokens s rest h
    cases h
  | succ levels ih =>
    intro category opener tokens s rest h
    obtain ⟨part, depth, htokens, hdepth, hpart⟩ := readsPhrase_category ih category _ _ _ h
    exact ⟨part, depth, htokens, Nat.succ_le_succ hdepth, hpart⟩

/-! ## What is derived is read -/

/-- Tokens for the symbols are read to the sentence, unless what follows goes on with it. -/
def Reads (last : Span) (phrase : Phrase) (symbols : List Symbol) (s : Sentence) (depth : Nat) :
    Prop :=
  ∀ levels tokens rest, depth ≤ levels → tokens.map Token.symbol = symbols →
    Ends phrase.least rest →
      readLeast (readAt last levels) last phrase.least (tokens ++ rest) = .ok (s, rest)

/-- Tokens for the symbols are read to the operands: the first one, and then those that the rounds
for further ones find. -/
def ReadsChain (last : Span) (connective : Symbol) (phrase : Phrase) (symbols : List Symbol)
    (operands : List Sentence) (depth : Nat) : Prop :=
  ∀ levels tokens rest least, depth ≤ levels → tokens.map Token.symbol = symbols →
    goesOn least connective = true → goesOn phrase.least connective = false →
    least ≤ phrase.least → Ends least rest →
      ∃ first others middle, operands = first :: others ∧
        middle.length ≤ (tokens ++ rest).length ∧
        readLeast (readAt last levels) last phrase.least (tokens ++ rest) = .ok (first, middle) ∧
        ∀ rounds, middle.length ≤ rounds →
          readMore connective (readLeast (readAt last levels) last phrase.least) rounds middle =
            .ok (others, rest)

/-! ### Units -/

/-- A token by itself that is a unit. -/
theorem reads_token {symbol : Symbol}
    (h : ∀ (nested : NestedReader) (token : Token) (rest : List Token), token.symbol = symbol →
      Ends 5 rest → readUnit nested last (token :: rest) = .ok (s, rest)) :
    Reads last .unit [symbol] s 0 := by
  intro levels tokens rest _ htokens hrest
  obtain ⟨token, _, rfl, htoken, hnil⟩ := List.map_eq_cons_iff.1 htokens
  obtain rfl := List.map_eq_nil_iff.1 hnil
  exact h _ _ _ htoken hrest

theorem reads_letter (name : String) : Reads last .unit [.word name] (predicate name []) 0 := by
  refine reads_token fun nested token rest htoken hrest => ?_
  rw [readUnit, htoken]
  -- Nothing that follows can be taken for terms.
  cases rest with
  | nil => rfl
  | cons next rest =>
    have hnot : next.symbol ≠ .openParen := hrest.symbol_ne rfl
    obtain ⟨symbol, span⟩ := next
    cases symbol with
    | openParen => exact absurd rfl hnot
    | _ => rfl

/-- Names are read up to the closing parenthesis. -/
theorem Names.readTerms {names : List String} (h : Names symbols names) {closing : Token}
    (hclosing : closing.symbol = .closeParen) {rounds : Nat}
    (hrounds : tokens.length ≤ rounds) (htokens : tokens.map Token.symbol = symbols) :
    readTerms last rounds (tokens ++ closing :: rest) = .ok (names, rest) := by
  induction h generalizing tokens rounds with
  | one name =>
    obtain ⟨word, _, rfl, hword, hnil⟩ := List.map_eq_cons_iff.1 htokens
    obtain rfl := List.map_eq_nil_iff.1 hnil
    obtain ⟨rounds, rfl⟩ := Nat.exists_eq_add_of_le' hrounds
    simp only [List.length_singleton, List.cons_append, List.nil_append, Sentence.readTerms,
      readName, hword, hclosing, bind, Except.bind]
    rfl
  | more name h ih =>
    simp only [List.map_eq_cons_iff] at htokens
    obtain ⟨word, _, rfl, hword, comma, others, rfl, hcomma, hothers⟩ := htokens
    obtain ⟨rounds, rfl⟩ := Nat.exists_eq_add_of_le' (Nat.le_trans (Nat.le_add_left 1 _) hrounds)
    have hlength : others.length ≤ rounds := by
      simp only [List.length_cons] at hrounds
      omega
    have hmore := ih hlength hothers
    simp only [List.cons_append, Sentence.readTerms, readName, hword, hcomma, bind, Except.bind,
      hmore]
    rfl

theorem reads_application {terms : List String} (name : String) (h : Names symbols terms) :
    Reads last .unit (.word name :: .openParen :: (symbols ++ [.closeParen]))
      (predicate name terms) 0 := by
  intro levels tokens rest _ htokens _
  simp only [List.map_eq_cons_iff, List.map_eq_append_iff, List.map_eq_nil_iff] at htokens
  obtain ⟨word, _, rfl, hword, ⟨_, span⟩, _, rfl, rfl, names, _, rfl, hnames, closing, _, rfl,
    hclosing, rfl⟩ := htokens
  have hread : readTerms last (names ++ closing :: rest).length (names ++ closing :: rest) =
      .ok (terms, rest) := h.readTerms hclosing (by simp) hnames
  show readUnit (readAt last levels) last
    (word :: ⟨.openParen, span⟩ :: (names ++ [closing]) ++ rest) = _
  simp only [List.cons_append, List.append_assoc, List.nil_append, readUnit, hword]
  simp only [hread, bind, Except.bind]
  rfl

/-- Behind a token that opens it, a phrase is read with one level less. -/
theorem Reads.below (category : Category) (h : Reads last category.phrase symbols s depth)
    (hdepth : depth + 1 ≤ levels) (htokens : tokens.map Token.symbol = symbols)
    (hrest : Ends category.phrase.least rest) (opener : Span) :
    readAt last levels category opener (tokens ++ rest) = .ok (s, rest) := by
  obtain ⟨levels, rfl⟩ := Nat.exists_eq_add_of_le' (Nat.le_trans (Nat.le_add_left 1 _) hdepth)
  have hread := h levels tokens rest (Nat.le_of_succ_le_succ hdepth) htokens hrest
  rw [readAt]
  cases category with
  | biconditional => exact hread
  | implication => exact hread
  | unit => exact hread

theorem Reads.not (h : Reads last .unit symbols s depth) :
    Reads last .unit (.not :: symbols) (.not s) (depth + 1) := by
  intro levels tokens rest hdepth htokens hrest
  obtain ⟨token, body, rfl, htoken, hbody⟩ := List.map_eq_cons_iff.1 htokens
  have hread := h.below .unit hdepth hbody hrest token.span
  show readUnit (readAt last levels) last (token :: (body ++ rest)) = _
  simp only [readUnit, htoken, hread, bind, Except.bind]
  rfl

theorem Reads.quantified (h : Reads last .unit symbols s depth) {quantifier : Symbol}
    {build : String → Sentence → Sentence} (x : String)
    (hquantifier : ∀ (nested : NestedReader) (token : Token) (rest : List Token),
      token.symbol = quantifier →
        readUnit nested last (token :: rest) = readQuantified nested last build rest) :
    Reads last .unit (quantifier :: .word x :: symbols) (build x s) (depth + 1) := by
  intro levels tokens rest hdepth htokens hrest
  simp only [List.map_eq_cons_iff] at htokens
  obtain ⟨token, _, rfl, htoken, word, body, rfl, hword, hbody⟩ := htokens
  have hread := h.below .unit hdepth hbody hrest word.span
  show readUnit (readAt last levels) last (token :: (word :: body ++ rest)) = _
  rw [hquantifier _ _ _ htoken]
  simp only [List.cons_append, readQuantified, readName, hword, bind, Except.bind,
    List.head?_cons, Option.map_some, Option.getD_some, hread]
  rfl

theorem Reads.parenthesised (h : Reads last .biconditional symbols s depth) :
    Reads last .unit (.openParen :: (symbols ++ [.closeParen])) s (depth + 1) := by
  intro levels tokens rest hdepth htokens hrest
  simp only [List.map_eq_cons_iff, List.map_eq_append_iff, List.map_eq_nil_iff] at htokens
  obtain ⟨opening, _, rfl, hopening, inner, _, rfl, hinner, closing, _, rfl, hclosing, rfl⟩ :=
    htokens
  have hends : Ends 1 (closing :: rest) := ends_cons (by rw [hclosing]; rfl) rest
  have hread := h.below .biconditional hdepth hinner hends opening.span
  show readUnit (readAt last levels) last (opening :: (inner ++ [closing] ++ rest)) = _
  simp only [List.append_assoc, List.cons_append, List.nil_append, readUnit, hopening, hread, bind,
    Except.bind, readClosing, hclosing, if_true]
  rfl

/-! ### Chains -/

theorem Reads.chain (h : Reads last phrase symbols s depth) :
    ReadsChain last connective phrase symbols [s] depth := by
  intro levels tokens rest least hdepth htokens hconnective _ hle hrest
  exact ⟨s, [], rest, rfl, by simp, h _ _ _ hdepth htokens (hrest.of_le hle),
    fun rounds _ => readMore_of_ends hconnective hrest _ _⟩

theorem ReadsChain.cons (h : Reads last phrase left s m)
    (hmore : ReadsChain last connective phrase right operands n) :
    ReadsChain last connective phrase (left ++ connective :: right) (s :: operands) (max m n) := by
  intro levels tokens rest least hdepth htokens hconnective hoperand hle hrest
  obtain ⟨hm, hn⟩ := Nat.max_le.1 hdepth
  simp only [List.map_eq_append_iff, List.map_eq_cons_iff] at htokens
  obtain ⟨part, _, rfl, hpart, token, behind, rfl, htoken, hbehind⟩ := htokens
  have hends : Ends phrase.least (token :: (behind ++ rest)) :=
    ends_cons (by rw [htoken]; exact hoperand) _
  obtain ⟨first, others, middle, rfl, hlength, hfirst, hrounds⟩ :=
    hmore _ _ _ _ hn hbehind hconnective hoperand hle hrest
  refine ⟨s, first :: others, token :: (behind ++ rest), rfl, by simp, ?_, ?_⟩
  · simpa using h _ _ _ hm hpart hends
  · intro rounds hle
    obtain ⟨rounds, rfl⟩ := Nat.exists_eq_add_of_le' (Nat.le_trans (Nat.le_add_left 1 _) hle)
    -- What is left behind the next operand is no longer than what is left now.
    have hmiddle := hrounds rounds (Nat.le_trans hlength (Nat.le_of_succ_le_succ hle))
    simp only [readMore, htoken, if_true, hfirst, bind, Except.bind, hmiddle]
    rfl

/-- A chain is read to its operands joined. -/
theorem ReadsChain.join {operand : Phrase}
    (h : ReadsChain last connective operand symbols operands depth)
    (hstep : operand.least = phrase.least + 1)
    (hconnective : goesOn phrase.least connective = true)
    (hoperand : goesOn operand.least connective = false) {join : List Sentence → Sentence}
    (hread : ∀ nested, readLeast nested last phrase.least =
      readChain connective join (readLeast nested last operand.least)) :
    Reads last phrase symbols (join operands) depth := by
  intro levels tokens rest hdepth htokens hrest
  obtain ⟨first, others, middle, rfl, -, hfirst, hrounds⟩ :=
    h _ _ _ _ hdepth htokens hconnective hoperand (by omega) hrest
  simp only [hread, readChain, hfirst, bind, Except.bind, hrounds _ (Nat.le_refl _)]
  rfl

/-! ### Right operands -/

/-- A phrase may stand where a looser one is asked for. -/
theorem Reads.looser {looser : Phrase} (h : Reads last phrase symbols s depth)
    (hle : looser.least ≤ phrase.least) : Reads last looser symbols s depth := by
  intro levels tokens rest hdepth htokens hrest
  have hread := h levels tokens rest hdepth htokens (hrest.of_le hle)
  exact readLeast_of_le (by cases looser <;> decide) hle (by cases phrase <;> decide) hread hrest

/-- Two phrases with a connective between them, the right one nested. -/
theorem Reads.beside (category : Category) (ha : Reads last phrase left a m)
    (hb : Reads last category.phrase right b n) (hoperand : goesOn phrase.least connective = false)
    {build : Sentence → Sentence → Sentence}
    (hread : ∀ nested, readLeast nested last category.phrase.least =
      readRight nested connective category build (readLeast nested last phrase.least)) :
    Reads last category.phrase (left ++ connective :: right) (build a b) (max m (n + 1)) := by
  intro levels tokens rest hdepth htokens hrest
  obtain ⟨hm, hn⟩ := Nat.max_le.1 hdepth
  simp only [List.map_eq_append_iff, List.map_eq_cons_iff] at htokens
  obtain ⟨part, _, rfl, hpart, token, behind, rfl, htoken, hbehind⟩ := htokens
  have hends : Ends phrase.least (token :: (behind ++ rest)) :=
    ends_cons (by rw [htoken]; exact hoperand) _
  have hleft := ha _ _ _ hm hpart hends
  have hright := hb.below category hn hbehind hrest token.span
  simp only [hread, List.append_assoc, List.cons_append, readRight, hleft, bind, Except.bind,
    htoken, if_true, hright]
  rfl

mutual

/-- Every phrase is read to the sentence that it stands for. -/
theorem Derives.reads (last : Span) {phrase : Phrase} {symbols : List Symbol} {s : Sentence}
    {depth : Nat} : Derives phrase symbols s depth → Reads last phrase symbols s depth
  | .falsum => reads_token fun _ _ _ h _ => by rw [readUnit, h]
  | .verum => reads_token fun _ _ _ h _ => by rw [readUnit, h]
  | .letter name => reads_letter name
  | .application name h => reads_application name h
  | .parenthesised h => (h.reads last).parenthesised
  | .not h => (h.reads last).not
  | .forAll x h => (h.reads last).quantified x fun _ _ _ h => by rw [readUnit, h]
  | .thereExists x h => (h.reads last).quantified x fun _ _ _ h => by rw [readUnit, h]
  | .conjunction h => (h.reads last).join rfl rfl rfl fun _ => rfl
  | .disjunction h => (h.reads last).join rfl rfl rfl fun _ => rfl
  | .ofDisjunction h => (h.reads last).looser (by decide)
  | .implies ha hb => (ha.reads last).beside .implication (hb.reads last) rfl fun _ => rfl
  | .ofImplication h => (h.reads last).looser (by decide)
  | .iff ha hb => (ha.reads last).beside .biconditional (hb.reads last) rfl fun _ => rfl

/-- Every chain is read to its operands. -/
theorem Chain.reads (last : Span) {connective : Symbol} {phrase : Phrase} {symbols : List Symbol}
    {operands : List Sentence} {depth : Nat} : Chain connective phrase symbols operands depth →
      ReadsChain last connective phrase symbols operands depth
  | .one h => (h.reads last).chain
  | .more h hmore => .cons (h.reads last) (hmore.reads last)

end

/-! ## Texts -/

/-- The symbols of a phrase stand for one sentence only. -/
theorem Derives.unique {s' : Sentence} (h : Derives phrase symbols s m)
    (h' : Derives phrase symbols s' n) : s = s' := by
  have htokens : (symbols.map fun symbol => Token.mk symbol ⟨0, 0⟩).map Token.symbol = symbols := by
    rw [List.map_map]
    exact List.map_id symbols
  have hread := h.reads ⟨0, 0⟩ (max m n) _ [] (Nat.le_max_left _ _) htokens (ends_nil _)
  have hread' := h'.reads ⟨0, 0⟩ (max m n) _ [] (Nat.le_max_right _ _) htokens (ends_nil _)
  rw [hread] at hread'
  cases hread'
  rfl

theorem not_derives_nil : ¬ Derives .biconditional [] s depth := by
  intro h
  have hread := h.reads ⟨0, 0⟩ depth [] [] (Nat.le_refl _) rfl (ends_nil _)
  cases hread

/-- All of the tokens are read to a sentence if they are a phrase for it within the limit. -/
theorem ofTokensUpTo_eq_ok_iff {limit : Nat} {first : Token} {others : List Token} :
    ofTokensUpTo limit first others = .ok s ↔ ∃ depth, depth ≤ limit ∧
      Derives .biconditional ((first :: others).map Token.symbol) s depth := by
  constructor
  · intro h
    obtain ⟨⟨found, rest⟩, hread, hdone⟩ := Except.bind_eq_ok.1 h
    obtain ⟨part, depth, htokens, hdepth, hpart⟩ := nestsPhrase_readAt _ _ _ _ _ _ _ hread
    cases rest with
    | nil =>
      cases hdone
      rw [htokens, List.append_nil]
      exact ⟨depth, Nat.le_of_succ_le_succ hdepth, hpart⟩
    | cons token rest => cases hdone
  · rintro ⟨depth, hdepth, h⟩
    have hread := (h.reads ((first :: others).getLast (List.cons_ne_nil _ _)).span).below
      .biconditional (Nat.succ_le_succ hdepth) rfl (ends_nil _) first.span
    rw [List.append_nil] at hread
    simp only [ofTokensUpTo, hread, bind, Except.bind]
    rfl

/-- The lexemes of the text form a phrase for the sentence, nested so many levels deep. -/
def Expresses (text : String) (s : Sentence) (depth : Nat) : Prop :=
  ∃ symbols, Splits text.toList symbols ∧ Derives .biconditional symbols s depth

variable {text : String}

theorem Expresses.unique {s' : Sentence} (h : Expresses text s m) (h' : Expresses text s' n) :
    s = s' := by
  obtain ⟨symbols, hsplits, hderives⟩ := h
  obtain ⟨symbols', hsplits', hderives'⟩ := h'
  obtain rfl := hsplits.unique hsplits'
  exact hderives.unique hderives'

theorem read_eq_none_iff : read text = .ok none ↔ ∀ c ∈ text.toList, Text.isBlank c = true := by
  rw [← splits_nil_iff, ← scan_iff_splits]
  constructor
  · intro h
    obtain ⟨tokens, hscan, hread⟩ := Except.bind_eq_ok.1 h
    cases tokens with
    | nil => exact ⟨[], hscan, rfl⟩
    | cons first others =>
      obtain ⟨s, -, hdone⟩ := Except.bind_eq_ok.1 hread
      cases hdone
  · rintro ⟨tokens, hscan, hsymbols⟩
    obtain rfl := List.map_eq_nil_iff.1 hsymbols
    simp only [read, hscan, bind, Except.bind]
    rfl

theorem readUpTo_eq_some_iff {limit : Nat} :
    readUpTo limit text = .ok (some s) ↔ ∃ depth, depth ≤ limit ∧ Expresses text s depth := by
  constructor
  · intro h
    obtain ⟨tokens, hscan, hread⟩ := Except.bind_eq_ok.1 h
    cases tokens with
    | nil => cases hread
    | cons first others =>
      obtain ⟨found, hfound, hdone⟩ := Except.bind_eq_ok.1 hread
      cases hdone
      obtain ⟨depth, hdepth, hderives⟩ := ofTokensUpTo_eq_ok_iff.1 hfound
      exact ⟨depth, hdepth, _, scan_iff_splits.1 ⟨_, hscan, rfl⟩, hderives⟩
  · rintro ⟨depth, hdepth, symbols, hsplits, hderives⟩
    obtain ⟨tokens, hscan, rfl⟩ := scan_iff_splits.2 hsplits
    cases tokens with
    | nil => exact absurd hderives not_derives_nil
    | cons first others =>
      simp only [readUpTo, hscan, bind, Except.bind,
        ofTokensUpTo_eq_ok_iff.2 ⟨depth, hdepth, hderives⟩]
      rfl

theorem read_eq_some_iff :
    read text = .ok (some s) ↔ ∃ depth, depth ≤ maxDepth ∧ Expresses text s depth :=
  readUpTo_eq_some_iff

/-- Reading accepts exactly the grammar: blank texts hold no sentence, a text is read to the only
sentence that it expresses with at most 128 levels, and every other text is an error. -/
theorem read_iff_expresses (text : String) :
    (read text = .ok none ↔ ∀ c ∈ text.toList, Text.isBlank c = true) ∧
      (∀ s, read text = .ok (some s) ↔ ∃ depth, depth ≤ 128 ∧ Expresses text s depth) ∧
      (∀ s s' m n, Expresses text s m → Expresses text s' n → s = s') ∧
      ((∃ failure, read text = .error failure) ↔
        ¬ (∀ c ∈ text.toList, Text.isBlank c = true) ∧
          ¬ ∃ s depth, depth ≤ 128 ∧ Expresses text s depth) := by
  refine ⟨read_eq_none_iff, fun s => read_eq_some_iff, fun s s' m n => Expresses.unique, ?_⟩
  rw [← read_eq_none_iff]
  have hsome : ∀ s, (∃ depth, depth ≤ 128 ∧ Expresses text s depth) ↔ read text = .ok (some s) :=
    fun s => read_eq_some_iff.symm
  simp only [hsome]
  cases read text with
  | error failure => simp
  | ok found => cases found <;> simp

end NaturalDeduction.Sentence
