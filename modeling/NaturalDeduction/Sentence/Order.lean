/-
  The order of sentences.

  Sentences are ordered first by their outermost connective, in the order of
  the constructors, and then by their parts from left to right; names by code
  point and lists of parts lexicographically.
-/

import NaturalDeduction.Sentence.Basic

namespace NaturalDeduction.Sentence

/-- The place of the outermost connective among the connectives. -/
def rank : Sentence → Nat
  | falsum => 0
  | verum => 1
  | predicate .. => 2
  | not _ => 3
  | and _ => 4
  | or _ => 5
  | implies .. => 6
  | iff .. => 7
  | forAll .. => 8
  | thereExists .. => 9

/-- Lexicographic order of lists of names. -/
def orderNames : List String → List String → Ordering
  | [], [] => .eq
  | [], _ :: _ => .lt
  | _ :: _, [] => .gt
  | x :: xs, y :: ys => (compare x y).then (orderNames xs ys)

mutual

/-- The order of two sentences. -/
def order : Sentence → Sentence → Ordering
  | predicate n ts, predicate m us => (compare n m).then (orderNames ts us)
  | not a, not b => order a b
  | and as, and bs => orderAll as bs
  | or as, or bs => orderAll as bs
  | implies a c, implies b d => (order a b).then (order c d)
  | iff a c, iff b d => (order a b).then (order c d)
  | forAll x a, forAll y b => (compare x y).then (order a b)
  | thereExists x a, thereExists y b => (compare x y).then (order a b)
  | a, b => compare a.rank b.rank

/-- Lexicographic order of lists of sentences. -/
def orderAll : List Sentence → List Sentence → Ordering
  | [], [] => .eq
  | [], _ :: _ => .lt
  | _ :: _, [] => .gt
  | a :: as, b :: bs => (order a b).then (orderAll as bs)

end

instance : Ord Sentence := ⟨order⟩

end NaturalDeduction.Sentence
