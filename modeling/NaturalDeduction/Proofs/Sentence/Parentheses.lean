/-
  The fewest parentheses.

  A text may hold more parentheses than its sentence needs. The rendering holds
  none that can be spared: whatever derivation the grammar has for a sentence,
  the symbols derived hold at least as many opening parentheses as the rendering
  does where such a phrase is asked for. Neither is a rendering nested deeper
  than the text that it is the rendering of, so a sentence that was read within
  some limit is read within it again when it is written canonically.
-/

import Mathlib
import NaturalDeduction.Proofs.Sentence.Phrase

namespace NaturalDeduction

/-! ## Parentheses among characters -/

namespace Token

variable {cs lexeme : List Char} {symbol : Symbol} {symbols : List Symbol}

theorem count_openParen_of_isWord (h : IsWord lexeme) : lexeme.count '(' = 0 := by
  refine List.count_eq_zero.2 fun hmem => ?_
  have hcontinues := h.continuesWord _ hmem
  revert hcontinues
  decide

/-- The lexeme of the opening parenthesis is the only one that holds this character. -/
theorem Lexeme.count_openParen (h : Lexeme lexeme symbol) :
    lexeme.count '(' = [symbol].count .openParen := by
  have hmarks : ∀ entry ∈ marks, entry.1.toList.count '(' = [entry.2].count .openParen := by
    decide +kernel
  have hwords : ∀ entry ∈ connectiveWords, [entry.2].count .openParen = 0 := by decide +kernel
  cases h with
  | mark hmem => exact hmarks _ hmem
  | connectiveWord hmem =>
    rw [hwords _ hmem]
    exact count_openParen_of_isWord (isWord_of_mem_connectiveWords _ hmem).1
  | name hname => exact count_openParen_of_isWord (isWord_of_isName hname).1

theorem count_openParen_of_isBlank {c : Char} (hc : Text.isBlank c = true) :
    [c].count '(' = 0 := by
  refine List.count_eq_zero.2 fun hmem => ?_
  obtain rfl := List.mem_singleton.1 hmem
  revert hc
  decide

/-- A text holds as many opening parentheses as the symbols that it is cut into. -/
theorem Splits.count_openParen (h : Splits cs symbols) :
    cs.count '(' = symbols.count .openParen := by
  induction h with
  | done => rfl
  | @blank c cs symbols hc h ih =>
    rw [← List.singleton_append, List.count_append, count_openParen_of_isBlank hc, ih,
      Nat.zero_add]
  | @lexeme lexeme cs symbol symbols hlexeme hlongest h ih =>
    rw [List.count_append, hlexeme.count_openParen, ih, ← List.count_append,
      List.singleton_append]

end Token

namespace Sentence

open Token

variable {phrase : Phrase} {connective : Symbol} {symbols : List Symbol} {s a b : Sentence}
  {operands : List Sentence} {depth least : Nat} {text : String}

/-! ## Parentheses of an operand -/

/-- How many opening parentheses an operand is rendered with, those around it counted. -/
def openings (least : Nat) (operand : Sentence) : Nat :=
  (encloseSymbols least operand operand.symbols).count .openParen

theorem openings_eq (least : Nat) (s : Sentence) :
    openings least s = parentheses least s + s.symbols.count .openParen := by
  unfold openings encloseSymbols parentheses
  split
  · rw [List.cons_append, List.count_cons_self, List.count_append, Nat.add_comm]
    rfl
  · rw [Nat.zero_add]

/-- An operand that binds tightly enough has the parentheses of its own symbols. -/
theorem openings_of_le (h : least ≤ s.strength) :
    openings least s = s.symbols.count .openParen := by
  rw [openings_eq, parentheses, if_neg (Nat.not_lt.2 h), Nat.zero_add]

/-- A place that asks for less costs no more. -/
theorem openings_le_openings {more : Nat} (h : least ≤ more) (s : Sentence) :
    openings least s ≤ openings more s := by
  rw [openings_eq, openings_eq]
  unfold parentheses
  split <;> split <;> omega

/-- The parentheses around an operand are one pair. -/
theorem openings_le (least : Nat) (s : Sentence) : openings least s ≤ openings 1 s + 1 := by
  rw [openings_eq, openings_of_le (strength_pos s), Nat.add_comm]
  refine Nat.add_le_add_left ?_ _
  unfold parentheses
  split <;> decide

theorem count_intercalate (hconnective : connective ≠ .openParen) (parts : List (List Symbol)) :
    ([connective].intercalate parts).count .openParen =
      (parts.map (List.count .openParen)).sum := by
  cases parts with
  | nil => rfl
  | cons part parts =>
    rw [intercalate_cons, List.count_append, List.count_flatMap, List.map_cons, List.sum_cons]
    congr 3
    funext part
    simp [hconnective]

/-- The terms of a predicate stand in one pair of parentheses. -/
theorem count_termSymbols_le (terms : List String) : (termSymbols terms).count .openParen ≤ 1 := by
  cases terms with
  | nil => simp [termSymbols]
  | cons first others =>
    have hname : (List.count Symbol.openParen ∘ fun term => [Symbol.word term]) = fun _ => 0 :=
      funext fun _ => rfl
    have hnames : ([Symbol.comma].intercalate
        ((first :: others).map fun term => [Symbol.word term])).count .openParen = 0 := by
      rw [count_intercalate (by decide), List.map_map, hname]
      simp
    show (Symbol.openParen :: ([Symbol.comma].intercalate
      ((first :: others).map fun term => [Symbol.word term]) ++ [.closeParen])).count .openParen ≤ 1
    rw [List.count_cons_self, List.count_append, hnames]
    rfl

/-! ### Parentheses of each kind of sentence -/

theorem openings_predicate (name : String) (terms : List String) :
    openings 5 (predicate name terms) = (termSymbols terms).count .openParen := by
  rw [openings_of_le (by simp [strength]), symbols, List.count_cons_of_ne (by simp)]

theorem openings_not (a : Sentence) : openings 5 (not a) = openings 5 a := by
  rw [openings_of_le (by simp [strength]), symbols, List.count_cons_of_ne (by simp), openings]

theorem openings_forAll (x : String) (a : Sentence) : openings 5 (forAll x a) = openings 5 a := by
  rw [openings_of_le (by simp [strength]), symbols, List.count_cons_of_ne (by simp),
    List.count_cons_of_ne (by simp), openings]

theorem openings_thereExists (x : String) (a : Sentence) :
    openings 5 (thereExists x a) = openings 5 a := by
  rw [openings_of_le (by simp [strength]), symbols, List.count_cons_of_ne (by simp),
    List.count_cons_of_ne (by simp), openings]

theorem openings_operands (least : Nat) (as : List Sentence) :
    (operandSymbols least as).map (List.count .openParen) = as.map (openings least) := by
  rw [operandSymbols_eq_map, List.map_map]
  rfl

theorem openings_and (as : List Sentence) : openings 4 (and as) = (as.map (openings 5)).sum := by
  rw [openings_of_le (by simp [strength]), symbols, count_intercalate (by decide),
    openings_operands]

theorem openings_or (as : List Sentence) : openings 3 (or as) = (as.map (openings 4)).sum := by
  rw [openings_of_le (by simp [strength]), symbols, count_intercalate (by decide),
    openings_operands]

theorem openings_implies (a b : Sentence) :
    openings 2 (implies a b) = openings 3 a + openings 2 b := by
  rw [openings_of_le (by simp [strength]), symbols, List.count_append, List.count_cons_of_ne
    (by decide), openings, openings]

theorem openings_iff (a b : Sentence) : openings 1 (iff a b) = openings 2 a + openings 1 b := by
  rw [openings_of_le (by simp [strength]), symbols, List.count_append, List.count_cons_of_ne
    (by decide), openings, openings]

/-- Operands joined by a conjunction have no more parentheses together than one by one. -/
theorem openings_conjunction_le (as : List Sentence) :
    openings 4 (conjunction as) ≤ (as.map (openings 5)).sum := by
  unfold conjunction
  split
  · rw [List.map_singleton, List.sum_singleton]
    exact openings_le_openings (by decide) _
  · exact Nat.le_of_eq (openings_and as)

/-- Operands joined by a disjunction have no more parentheses together than one by one. -/
theorem openings_disjunction_le (as : List Sentence) :
    openings 3 (disjunction as) ≤ (as.map (openings 4)).sum := by
  unfold disjunction
  split
  · rw [List.map_singleton, List.sum_singleton]
    exact openings_le_openings (by decide) _
  · exact Nat.le_of_eq (openings_or as)

/-! ## Every derivation -/

theorem count_openParen_parenthesised (symbols : List Symbol) :
    (Symbol.openParen :: (symbols ++ [.closeParen])).count .openParen =
      symbols.count .openParen + 1 := by
  rw [List.count_cons_self, List.count_append]
  rfl

theorem count_le_count_append_cons (left right : List Symbol) (connective : Symbol) :
    left.count .openParen + right.count .openParen ≤
      (left ++ connective :: right).count .openParen := by
  rw [List.count_append]
  exact Nat.add_le_add_left List.count_le_count_cons _

mutual

/-- A phrase for a sentence holds the parentheses that the sentence is rendered with where it
stands. -/
theorem Derives.openings_le {phrase : Phrase} {symbols : List Symbol} {s : Sentence} {depth : Nat} :
    Derives phrase symbols s depth → openings phrase.least s ≤ symbols.count .openParen
  | .falsum => Nat.zero_le _
  | .verum => Nat.zero_le _
  | .letter name => by
    rw [Phrase.least, openings_predicate]
    exact Nat.zero_le _
  | .application name h => by
    rw [Phrase.least, openings_predicate, List.count_cons_of_ne (by simp),
      count_openParen_parenthesised]
    exact Nat.le_trans (count_termSymbols_le _) (Nat.le_add_left _ _)
  | .parenthesised h => by
    -- These parentheses pay for those that the rendering may need.
    rw [count_openParen_parenthesised]
    exact Nat.le_trans (Sentence.openings_le _ _) (Nat.succ_le_succ h.openings_le)
  | .not h => by
    rw [Phrase.least, openings_not, List.count_cons_of_ne (by simp)]
    exact h.openings_le
  | .forAll x h => by
    rw [Phrase.least, openings_forAll, List.count_cons_of_ne (by simp),
      List.count_cons_of_ne (by simp)]
    exact h.openings_le
  | .thereExists x h => by
    rw [Phrase.least, openings_thereExists, List.count_cons_of_ne (by simp),
      List.count_cons_of_ne (by simp)]
    exact h.openings_le
  | .conjunction h => Nat.le_trans (openings_conjunction_le _) h.openings_le
  | .disjunction h => Nat.le_trans (openings_disjunction_le _) h.openings_le
  | .ofDisjunction h => Nat.le_trans (openings_le_openings (by decide) _) h.openings_le
  | .implies ha hb => by
    rw [Phrase.least, openings_implies]
    exact Nat.le_trans (Nat.add_le_add ha.openings_le hb.openings_le)
      (count_le_count_append_cons _ _ _)
  | .ofImplication h => Nat.le_trans (openings_le_openings (by decide) _) h.openings_le
  | .iff ha hb => by
    rw [Phrase.least, openings_iff]
    exact Nat.le_trans (Nat.add_le_add ha.openings_le hb.openings_le)
      (count_le_count_append_cons _ _ _)

/-- A chain holds the parentheses that its operands are rendered with. -/
theorem Chain.openings_le {connective : Symbol} {phrase : Phrase} {symbols : List Symbol}
    {operands : List Sentence} {depth : Nat} : Chain connective phrase symbols operands depth →
      (operands.map (openings phrase.least)).sum ≤ symbols.count .openParen
  | .one h => by
    rw [List.map_singleton, List.sum_singleton]
    exact h.openings_le
  | .more h hmore => by
    rw [List.map_cons, List.sum_cons]
    exact Nat.le_trans (Nat.add_le_add h.openings_le hmore.openings_le)
      (count_le_count_append_cons _ _ _)

end

/-! ## Texts -/

/-- A text holds the parentheses of the rendering of its sentence. -/
theorem Expresses.openings_le (h : Expresses text s depth) :
    openings 1 s ≤ text.toList.count '(' := by
  obtain ⟨symbols, hsplits, hderives⟩ := h
  rw [hsplits.count_openParen]
  exact hderives.openings_le

/-- The rendering holds no parentheses but those of its symbols. -/
theorem count_openParen_render (hs : Grammatical s) :
    s.render.toList.count '(' = openings 1 s := by
  have hsplits := scan_iff_splits.1 (exists_scan_render hs)
  rw [hsplits.count_openParen, openings_of_le (strength_pos s)]

/-- How deep the sentences in a text are nested: the smallest limit with which it is read to the
sentence. -/
def NestedTo (text : String) (s : Sentence) (depth : Nat) : Prop :=
  IsLeast {limit | readUpTo limit text = .ok (some s)} depth

/-- A text that is read within a limit is nested to some depth within it. -/
theorem exists_nestedTo {limit : Nat} (h : readUpTo limit text = .ok (some s)) :
    ∃ depth, NestedTo text s depth ∧ depth ≤ limit :=
  ⟨_, ⟨Nat.sInf_mem ⟨limit, h⟩, fun _ hless => Nat.sInf_le hless⟩, Nat.sInf_le h⟩

/-- The rendering of a sentence is nested as deep as the sentence. -/
theorem nestedTo_render (hs : Grammatical s) : NestedTo s.render s s.nesting :=
  ⟨readUpTo_render hs (Nat.le_refl _), fun _ hlimit => (nesting_le_of_readUpTo hlimit).2⟩

/-- Rendering uses the fewest parentheses. Of all the texts that are read to a sentence none holds
fewer opening parentheses than its rendering, and none is nested less deep; so the rendering of a
sentence that was read is read again, to the same sentence. -/
theorem render_fewest_parentheses (h : read text = .ok (some s)) :
    s.render.toList.count '(' ≤ text.toList.count '(' ∧
      (∃ m n, NestedTo s.render s m ∧ NestedTo text s n ∧ m ≤ n) ∧
      read s.render = .ok (some s) := by
  obtain ⟨depth, -, hexpresses⟩ := read_eq_some_iff.1 h
  have hs := expressible_of_read h
  rw [count_openParen_render hs.grammatical]
  rw [read_eq_readUpTo] at h
  obtain ⟨n, hn, -⟩ := exists_nestedTo h
  exact ⟨hexpresses.openings_le, ⟨s.nesting, n, nestedTo_render hs.grammatical, hn,
    (nesting_le_of_readUpTo hn.1).2⟩, read_render hs⟩

/-- Of three pairs of parentheses two can be spared, which leaves the pair behind the negation. -/
theorem render_fewest_parentheses_negatedImplication :
    let s := and [not (implies (atom "P") (or [atom "Q", atom "R"])), atom "S"]
    read "¬(P → (Q ∨ R)) ∧ (S)" = .ok (some s) ∧
      s.render.toList.count '(' = 1 ∧ "¬(P → (Q ∨ R)) ∧ (S)".toList.count '(' = 3 ∧
      (∃ m n, NestedTo s.render s m ∧ NestedTo "¬(P → (Q ∨ R)) ∧ (S)" s n ∧ m ≤ n) ∧
      read s.render = .ok (some s) := by
  intro s
  have hread : read "¬(P → (Q ∨ R)) ∧ (S)" = .ok (some s) := by decide +kernel
  obtain ⟨-, hnested, hagain⟩ := render_fewest_parentheses hread
  exact ⟨hread, by decide +kernel, by decide +kernel, hnested, hagain⟩

end Sentence

end NaturalDeduction
