/-
  Sentences of first-order logic over names.

  A sentence is a finite tree. Conjunction and disjunction take a list of
  operands, so that an unparenthesised chain is one node; terms are plain
  names. Equality is equality of trees and is decidable: `P ∧ Q` written in
  two ways is one sentence, while `P ∧ Q` and `Q ∧ P` are two.
-/

namespace NaturalDeduction

/-- The sentences. -/
inductive Sentence where
  | falsum
  | verum
  | predicate (name : String) (terms : List String)
  | not (body : Sentence)
  | and (operands : List Sentence)
  | or (operands : List Sentence)
  | implies (antecedent consequent : Sentence)
  | iff (left right : Sentence)
  | forAll (var : String) (body : Sentence)
  | thereExists (var : String) (body : Sentence)
  deriving Repr, Inhabited

namespace Sentence

/-! ## Deciding equality -/

mutual

/-- Compares two trees node by node. -/
def same : Sentence → Sentence → Bool
  | falsum, falsum => true
  | verum, verum => true
  | predicate n ts, predicate m us => n == m && ts == us
  | not a, not b => same a b
  | and as, and bs => sameAll as bs
  | or as, or bs => sameAll as bs
  | implies a c, implies b d => same a b && same c d
  | iff a c, iff b d => same a b && same c d
  | forAll x a, forAll y b => x == y && same a b
  | thereExists x a, thereExists y b => x == y && same a b
  | _, _ => false

/-- Compares two lists of trees, which must have one length. -/
def sameAll : List Sentence → List Sentence → Bool
  | [], [] => true
  | a :: as, b :: bs => same a b && sameAll as bs
  | _, _ => false

end

mutual

theorem same_self : (a : Sentence) → same a a = true
  | falsum => by simp [same]
  | verum => by simp [same]
  | predicate _ _ => by simp [same]
  | not a => by simp [same, same_self a]
  | and as => by simp [same, sameAll_self as]
  | or as => by simp [same, sameAll_self as]
  | implies a b => by simp [same, same_self a, same_self b]
  | iff a b => by simp [same, same_self a, same_self b]
  | forAll _ a => by simp [same, same_self a]
  | thereExists _ a => by simp [same, same_self a]

theorem sameAll_self : (as : List Sentence) → sameAll as as = true
  | [] => by simp [sameAll]
  | a :: as => by simp [sameAll, same_self a, sameAll_self as]

end

mutual

theorem eq_of_same : (a b : Sentence) → same a b = true → a = b
  | falsum, b, h => by cases b <;> simp_all [same]
  | verum, b, h => by cases b <;> simp_all [same]
  | predicate _ _, b, h => by cases b <;> simp_all [same]
  | not a, b, h => by
    cases b with
    | not b => rw [eq_of_same a b (by simpa [same] using h)]
    | _ => simp [same] at h
  | and as, b, h => by
    cases b with
    | and bs => rw [eq_of_sameAll as bs (by simpa [same] using h)]
    | _ => simp [same] at h
  | or as, b, h => by
    cases b with
    | or bs => rw [eq_of_sameAll as bs (by simpa [same] using h)]
    | _ => simp [same] at h
  | implies a c, b, h => by
    cases b with
    | implies b d =>
      simp only [same, Bool.and_eq_true] at h
      rw [eq_of_same a b h.1, eq_of_same c d h.2]
    | _ => simp [same] at h
  | iff a c, b, h => by
    cases b with
    | iff b d =>
      simp only [same, Bool.and_eq_true] at h
      rw [eq_of_same a b h.1, eq_of_same c d h.2]
    | _ => simp [same] at h
  | forAll x a, b, h => by
    cases b with
    | forAll y b =>
      simp only [same, Bool.and_eq_true, beq_iff_eq] at h
      rw [h.1, eq_of_same a b h.2]
    | _ => simp [same] at h
  | thereExists x a, b, h => by
    cases b with
    | thereExists y b =>
      simp only [same, Bool.and_eq_true, beq_iff_eq] at h
      rw [h.1, eq_of_same a b h.2]
    | _ => simp [same] at h

theorem eq_of_sameAll : (as bs : List Sentence) → sameAll as bs = true → as = bs
  | [], [], _ => rfl
  | [], _ :: _, h => by simp [sameAll] at h
  | _ :: _, [], h => by simp [sameAll] at h
  | a :: as, b :: bs, h => by
    simp only [sameAll, Bool.and_eq_true] at h
    rw [eq_of_same a b h.1, eq_of_sameAll as bs h.2]

end

theorem same_iff_eq {a b : Sentence} : same a b = true ↔ a = b :=
  ⟨eq_of_same a b, fun h => h ▸ same_self a⟩

instance : DecidableEq Sentence := fun a b =>
  decidable_of_iff (same a b = true) same_iff_eq

/-! ## Building sentences -/

/-- A proposition letter: a predicate without terms. -/
def atom (name : String) : Sentence :=
  predicate name []

/-- The conjunction of the operands, which is the operand itself when there is only one. -/
def conjunction : List Sentence → Sentence
  | [operand] => operand
  | operands => and operands

/-- The disjunction of the operands, which is the operand itself when there is only one. -/
def disjunction : List Sentence → Sentence
  | [operand] => operand
  | operands => or operands

/-! ## Taking sentences apart -/

/-- What a negation negates. -/
def negated? : Sentence → Option Sentence
  | not body => some body
  | _ => none

/-- The antecedent and the consequent of an implication. -/
def implication? : Sentence → Option (Sentence × Sentence)
  | implies antecedent consequent => some (antecedent, consequent)
  | _ => none

/-- The operands of a conjunction. -/
def conjuncts? : Sentence → Option (List Sentence)
  | and operands => some operands
  | _ => none

/-- The operands of a disjunction. -/
def disjuncts? : Sentence → Option (List Sentence)
  | or operands => some operands
  | _ => none

theorem negated?_eq_some {s t : Sentence} : s.negated? = some t ↔ s = not t := by
  cases s <;> simp [negated?]

theorem implication?_eq_some {s a b : Sentence} :
    s.implication? = some (a, b) ↔ s = implies a b := by
  cases s <;> simp [implication?]

theorem conjuncts?_eq_some {s : Sentence} {ops : List Sentence} :
    s.conjuncts? = some ops ↔ s = and ops := by
  cases s <;> simp [conjuncts?]

theorem disjuncts?_eq_some {s : Sentence} {ops : List Sentence} :
    s.disjuncts? = some ops ↔ s = or ops := by
  cases s <;> simp [disjuncts?]

end Sentence

end NaturalDeduction
