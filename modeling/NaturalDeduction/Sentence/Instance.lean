/-
  Instances of a sentence with a free variable.

  `isInstantiatedBy` decides whether a sentence arises from a pattern by
  putting one term for every free occurrence of a variable. Occurrences are
  visited from left to right; the first one fixes the term and the others must
  agree. Bound variables are part of the pattern and must be equal.
-/

import NaturalDeduction.Sentence.Basic

namespace NaturalDeduction.Sentence

/-- Matches terms against the terms of the pattern, given the term found so far. The answer is
the term found, or nothing when the terms do not match. -/
def matchTerms (var : String) : Option String → List String → List String → Option (Option String)
  | found, [], [] => some found
  | found, x :: xs, t :: ts =>
    if x = var then
      match found with
      | none => matchTerms var (some t) xs ts
      | some u => if u = t then matchTerms var (some u) xs ts else none
    else if x = t then matchTerms var found xs ts
    else none
  | _, _, _ => none

mutual

/-- Matches a sentence against the pattern, given the term found so far. Below a quantifier that
binds the variable nothing may change. -/
def matchFrom (var : String) : Option String → Sentence → Sentence → Option (Option String)
  | found, falsum, falsum => some found
  | found, verum, verum => some found
  | found, predicate n xs, predicate m ts => if n = m then matchTerms var found xs ts else none
  | found, not a, not b => matchFrom var found a b
  | found, and as, and bs => matchAll var found as bs
  | found, or as, or bs => matchAll var found as bs
  | found, implies a c, implies b d => do matchFrom var (← matchFrom var found a b) c d
  | found, iff a c, iff b d => do matchFrom var (← matchFrom var found a b) c d
  | found, forAll x a, forAll y b =>
    if x ≠ y then none
    else if x = var then (if a = b then some found else none)
    else matchFrom var found a b
  | found, thereExists x a, thereExists y b =>
    if x ≠ y then none
    else if x = var then (if a = b then some found else none)
    else matchFrom var found a b
  | _, _, _ => none

/-- Matches sentences against patterns one by one; there must be equally many. -/
def matchAll (var : String) : Option String → List Sentence → List Sentence → Option (Option String)
  | found, [], [] => some found
  | found, a :: as, b :: bs => do matchAll var (← matchFrom var found a b) as bs
  | _, _, _ => none

end

/-- Whether the sentence is the pattern with one term for every free occurrence of `var`. A
pattern without a free occurrence is matched by itself alone. -/
def isInstantiatedBy (pattern : Sentence) (var : String) (sentence : Sentence) : Bool :=
  (matchFrom var none pattern sentence).isSome

end NaturalDeduction.Sentence
