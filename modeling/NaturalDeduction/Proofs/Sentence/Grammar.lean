/-
  Which sentences a text can express.

  Texts spell names and connectives, so a sentence has a text only if its names
  can be told apart from connectives and its chains have more than one operand.
  Texts are nested to a limited depth: `nesting` counts the levels that the
  rendering of a sentence takes up, one for each prefix operator, each pair of
  parentheses and each right operand of `→` or `↔`.
-/

import NaturalDeduction.Sentence.Printer
import NaturalDeduction.Sentence.Reader

namespace NaturalDeduction.Sentence

/-! ## Names and chains -/

/-- The words that stand for connectives. -/
def keywords : List String := ["forall", "exists", "or"]

/-- A name is a letter followed by letters, digits and underscores, and no keyword. -/
def isName (name : String) : Bool :=
  match name.toList with
  | [] => false
  | c :: cs => c.isAlpha && cs.all (fun c => c.isAlphanum || c == '_') && !keywords.contains name

/-- The sentences with names for predicates, terms and variables, and with at least two operands in
each chain. -/
inductive Grammatical : Sentence → Prop where
  | falsum : Grammatical falsum
  | verum : Grammatical verum
  | predicate {name : String} {terms : List String} (hname : isName name = true)
      (hterms : ∀ term ∈ terms, isName term = true) : Grammatical (predicate name terms)
  | not {a : Sentence} (ha : Grammatical a) : Grammatical (not a)
  | and {as : List Sentence} (hcount : 2 ≤ as.length) (has : ∀ a ∈ as, Grammatical a) :
      Grammatical (and as)
  | or {as : List Sentence} (hcount : 2 ≤ as.length) (has : ∀ a ∈ as, Grammatical a) :
      Grammatical (or as)
  | implies {a b : Sentence} (ha : Grammatical a) (hb : Grammatical b) : Grammatical (implies a b)
  | iff {a b : Sentence} (ha : Grammatical a) (hb : Grammatical b) : Grammatical (iff a b)
  | forAll {x : String} {a : Sentence} (hx : isName x = true) (ha : Grammatical a) :
      Grammatical (forAll x a)
  | thereExists {x : String} {a : Sentence} (hx : isName x = true) (ha : Grammatical a) :
      Grammatical (thereExists x a)

theorem conjunction_of_two_le {as : List Sentence} (h : 2 ≤ as.length) :
    conjunction as = and as := by
  match as, h with
  | _ :: _ :: _, _ => rfl

theorem disjunction_of_two_le {as : List Sentence} (h : 2 ≤ as.length) :
    disjunction as = or as := by
  match as, h with
  | _ :: _ :: _, _ => rfl

/-! ## Nesting -/

/-- The level of the parentheses around an operand that binds less tightly than `least`. -/
def parentheses (least : Nat) (operand : Sentence) : Nat :=
  if operand.strength < least then 1 else 0

mutual

/-- How many levels deep the rendering of a sentence is nested. -/
def nesting : Sentence → Nat
  | falsum | verum | predicate _ _ => 0
  | not a | forAll _ a | thereExists _ a => 1 + (parentheses 5 a + nesting a)
  | and as => nestingAmong 5 as
  | or as => nestingAmong 4 as
  | implies a b => max (parentheses 3 a + nesting a) (1 + (parentheses 2 b + nesting b))
  | iff a b => max (parentheses 2 a + nesting a) (1 + (parentheses 1 b + nesting b))

/-- The deepest nesting among the operands of a chain. -/
def nestingAmong (least : Nat) : List Sentence → Nat
  | [] => 0
  | a :: as => max (parentheses least a + nesting a) (nestingAmong least as)

end

/-- Reads a sentence from all of the tokens, nested in each other up to a limit. -/
def ofTokensUpTo (limit : Nat) (first : Token) (more : List Token) : Reading Sentence := do
  let last := ((first :: more).getLast (List.cons_ne_nil _ _)).span
  let (sentence, rest) ← readAt last (limit + 1) .biconditional first.span (first :: more)
  match rest with
  | [] => return sentence
  | token :: _ => .error (.spanning token.span (.leftOver token.symbol))

/-- Reads a text whose sentences are nested in each other up to a limit. -/
def readUpTo (limit : Nat) (text : String) : Reading (Option Sentence) := do
  match ← Token.scan text with
  | [] => return none
  | first :: more => return some (← ofTokensUpTo limit first more)

theorem read_eq_readUpTo : read = readUpTo maxDepth := rfl

/-- The sentences that have a text. -/
structure Expressible (s : Sentence) : Prop where
  grammatical : Grammatical s
  nesting_le : s.nesting ≤ maxDepth

/-! ## Depth of an operand -/

attribute [local simp] strength nesting nestingAmong

/-- How many levels deep an operand is nested, its parentheses counted. -/
def depth (least : Nat) (operand : Sentence) : Nat :=
  parentheses least operand + nesting operand

theorem nestingAmong_le_iff {least limit : Nat} {as : List Sentence} :
    nestingAmong least as ≤ limit ↔ ∀ a ∈ as, depth least a ≤ limit := by
  induction as with
  | nil => simp
  | cons a as ih =>
    rw [nestingAmong, Nat.max_le, ih, List.forall_mem_cons]
    rfl

theorem strength_pos (s : Sentence) : 1 ≤ s.strength := by
  cases s <;> simp

/-- An operand that binds tightly enough needs no parentheses. -/
theorem depth_of_le {least : Nat} {s : Sentence} (h : least ≤ s.strength) :
    depth least s = nesting s := by
  rw [depth, parentheses, if_neg (Nat.not_lt.2 h), Nat.zero_add]

theorem depth_of_lt {least : Nat} {s : Sentence} (h : s.strength < least) :
    depth least s = 1 + nesting s := by
  rw [depth, parentheses, if_pos h]

/-- Parentheses cost one level. -/
theorem depth_le (least : Nat) (s : Sentence) : depth least s ≤ 1 + nesting s := by
  rcases Nat.lt_or_ge s.strength least with h | h
  · exact Nat.le_of_eq (depth_of_lt h)
  · rw [depth_of_le h]
    exact Nat.le_add_left _ _

/-- A place that asks for less costs no more. -/
theorem depth_le_depth {least more : Nat} (h : least ≤ more) (s : Sentence) :
    depth least s ≤ depth more s := by
  rcases Nat.lt_or_ge s.strength more with hlt | hge
  · rw [depth_of_lt hlt]
    exact depth_le least s
  · exact Nat.le_of_eq ((depth_of_le (Nat.le_trans h hge)).trans (depth_of_le hge).symm)

theorem depth_one (s : Sentence) : depth 1 s = nesting s :=
  depth_of_le (strength_pos s)

/-! ### Depth of each kind of sentence -/

theorem depth_not (a : Sentence) : depth 5 (not a) = 1 + depth 5 a := by
  rw [depth_of_le (by simp), nesting, depth]

theorem depth_forAll (x : String) (a : Sentence) : depth 5 (forAll x a) = 1 + depth 5 a := by
  rw [depth_of_le (by simp), nesting, depth]

theorem depth_thereExists (x : String) (a : Sentence) :
    depth 5 (thereExists x a) = 1 + depth 5 a := by
  rw [depth_of_le (by simp), nesting, depth]

theorem depth_and_le_iff {as : List Sentence} {levels : Nat} :
    depth 4 (and as) ≤ levels ↔ ∀ a ∈ as, depth 5 a ≤ levels := by
  rw [depth_of_le (by simp), nesting, nestingAmong_le_iff]

theorem depth_or_le_iff {as : List Sentence} {levels : Nat} :
    depth 3 (or as) ≤ levels ↔ ∀ a ∈ as, depth 4 a ≤ levels := by
  rw [depth_of_le (by simp), nesting, nestingAmong_le_iff]

theorem depth_implies (a b : Sentence) :
    depth 2 (implies a b) = max (depth 3 a) (1 + depth 2 b) := by
  rw [depth_of_le (by simp), nesting, depth, depth]

theorem depth_iff (a b : Sentence) : depth 1 (iff a b) = max (depth 2 a) (1 + depth 1 b) := by
  rw [depth_of_le (by simp), nesting, depth, depth]

end NaturalDeduction.Sentence
