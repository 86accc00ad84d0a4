/-
  The canonical rendering of a sentence.

  `render` writes every connective with its logical symbol and puts an operand
  in parentheses only where its outermost connective binds less tightly than
  the place it stands in requires.
-/

import NaturalDeduction.Sentence.Basic

namespace NaturalDeduction.Sentence

/-! ## Binding strength -/

/-- How tightly the outermost connective binds, from `↔`, the loosest, to the atoms. -/
def strength : Sentence → Nat
  | iff .. => 1
  | implies .. => 2
  | or _ => 3
  | and _ => 4
  | not _ | forAll .. | thereExists .. => 5
  | falsum | verum | predicate .. => 6

/-- The text of an operand, in parentheses when it binds less tightly than `least`. -/
def enclose (least : Nat) (operand : Sentence) (text : String) : String :=
  if operand.strength < least then "(" ++ text ++ ")" else text

/-! ## Rendering -/

/-- A predicate's terms in parentheses, or nothing when it has none. -/
def renderTerms : List String → String
  | [] => ""
  | terms => "(" ++ String.intercalate ", " terms ++ ")"

mutual

/-- The canonical rendering. -/
def render : Sentence → String
  | falsum => "⊥"
  | verum => "⊤"
  | predicate name terms => name ++ renderTerms terms
  | not a => "¬" ++ enclose 5 a (render a)
  | and as => String.intercalate " ∧ " (renderOperands 5 as)
  | or as => String.intercalate " ∨ " (renderOperands 4 as)
  | implies a b => enclose 3 a (render a) ++ " → " ++ enclose 2 b (render b)
  | iff a b => enclose 2 a (render a) ++ " ↔ " ++ enclose 1 b (render b)
  | forAll x a => "∀" ++ x ++ " " ++ enclose 5 a (render a)
  | thereExists x a => "∃" ++ x ++ " " ++ enclose 5 a (render a)

/-- The texts of the operands of a chain. -/
def renderOperands (least : Nat) : List Sentence → List String
  | [] => []
  | a :: as => enclose least a (render a) :: renderOperands least as

end

instance : ToString Sentence := ⟨render⟩

/-- The rendering between double quotes, as messages cite a sentence. -/
def quoted (s : Sentence) : String :=
  "\"" ++ s.render ++ "\""

theorem renderOperands_eq_map (least : Nat) (as : List Sentence) :
    renderOperands least as = as.map fun a => enclose least a a.render := by
  induction as with
  | nil => rfl
  | cons a as ih => simp [renderOperands, ih]

end NaturalDeduction.Sentence
