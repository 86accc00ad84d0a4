/-
  First-order meaning.

  An interpretation gives every predicate name a relation on tuples over a
  domain; an assignment gives every name of a term a domain element. The names
  bound by quantifiers range over the domain. Replacing a variable by a term
  that is free for it has the same effect as assigning to the variable what
  the term stands for.
-/

import Mathlib.Logic.Function.Basic
import NaturalDeduction.Proofs.Sentence.Substitution

namespace NaturalDeduction

/-- A relation on tuples of domain elements for every predicate name. -/
abbrev Interpretation (α : Type) := String → List α → Prop

/-- A domain element for every name of a term. -/
abbrev Assignment (α : Type) := String → α

namespace Sentence

variable {α : Type} (I : Interpretation α)

/-! ## Truth -/

mutual

/-- Whether a sentence is true under an assignment. -/
def Holds (env : Assignment α) : Sentence → Prop
  | falsum => False
  | verum => True
  | predicate name terms => I name (terms.map env)
  | not a => ¬ Holds env a
  | and as => HoldsAll env as
  | or as => HoldsAny env as
  | implies a b => Holds env a → Holds env b
  | iff a b => Holds env a ↔ Holds env b
  | forAll x a => ∀ d, Holds (Function.update env x d) a
  | thereExists x a => ∃ d, Holds (Function.update env x d) a

/-- Whether all sentences of a list are true. -/
def HoldsAll (env : Assignment α) : List Sentence → Prop
  | [] => True
  | a :: as => Holds env a ∧ HoldsAll env as

/-- Whether some sentence of a list is true. -/
def HoldsAny (env : Assignment α) : List Sentence → Prop
  | [] => False
  | a :: as => Holds env a ∨ HoldsAny env as

end

variable {I} {env : Assignment α} {var term : String}

theorem holdsAll_iff {as : List Sentence} : HoldsAll I env as ↔ ∀ a ∈ as, Holds I env a := by
  induction as with
  | nil => simp [HoldsAll]
  | cons a as ih => simp [HoldsAll, ih]

theorem holdsAny_iff {as : List Sentence} : HoldsAny I env as ↔ ∃ a ∈ as, Holds I env a := by
  induction as with
  | nil => simp [HoldsAny]
  | cons a as ih => simp [HoldsAny, ih]

/-! ## Variables that do not occur free -/

/-- What is assigned to a variable makes no difference where it does not occur free. -/
theorem holds_update_of_not_isFree {s : Sentence} (h : s.isFree var = false) (d : α) :
    Holds I (Function.update env var d) s ↔ Holds I env s := by
  induction s using induct generalizing env with
  | falsum => rfl
  | verum => rfl
  | predicate name terms =>
    have hmap : terms.map (Function.update env var d) = terms.map env := by
      refine List.map_congr_left fun x hx => Function.update_of_ne ?_ _ _
      rintro rfl
      simp [isFree, hx] at h
    rw [Holds, Holds, hmap]
  | not a ih =>
    rw [isFree] at h
    rw [Holds, Holds, ih h]
  | and as ih =>
    rw [isFree, isFreeInAny_eq_any, List.any_eq_false] at h
    rw [Holds, Holds, holdsAll_iff, holdsAll_iff]
    exact forall₂_congr fun a ha => ih a ha (by simpa using h a ha)
  | or as ih =>
    rw [isFree, isFreeInAny_eq_any, List.any_eq_false] at h
    rw [Holds, Holds, holdsAny_iff, holdsAny_iff]
    exact exists_congr fun a => and_congr_right fun ha => ih a ha (by simpa using h a ha)
  | implies a b iha ihb =>
    rw [isFree, Bool.or_eq_false_iff] at h
    rw [Holds, Holds, iha h.1, ihb h.2]
  | iff a b iha ihb =>
    rw [isFree, Bool.or_eq_false_iff] at h
    rw [Holds, Holds, iha h.1, ihb h.2]
  | forAll x a ih =>
    rw [Holds, Holds]
    refine forall_congr' fun e => ?_
    -- The quantifier assigns to the variable itself, or to another one.
    by_cases hx : x = var
    · rw [hx, Function.update_idem]
    · rw [Function.update_comm (Ne.symm hx)]
      exact ih (by simpa [isFree, hx] using h)
  | thereExists x a ih =>
    rw [Holds, Holds]
    refine exists_congr fun e => ?_
    by_cases hx : x = var
    · rw [hx, Function.update_idem]
    · rw [Function.update_comm (Ne.symm hx)]
      exact ih (by simpa [isFree, hx] using h)

/-! ## Legal substitutions -/

/-- Below a quantifier, a replacement by a term that is free for the variable is an assignment. -/
theorem holds_replace_body {x : String} {a : Sentence}
    (ih : ∀ {env : Assignment α}, a.isFreeFor var term = true →
      (Holds I env (a.replace var term) ↔ Holds I (Function.update env var (env term)) a))
    (hfree : (!(x != var && isFree var a) || (x != term && isFreeFor var term a)) = true) (d : α) :
    Holds I (Function.update env x d) (if x = var then a else a.replace var term) ↔
      Holds I (Function.update (Function.update env var (env term)) x d) a := by
  -- Below a quantifier that binds the variable nothing was replaced.
  by_cases hx : x = var
  · rw [if_pos hx, hx, Function.update_idem]
  rw [if_neg hx, Function.update_comm (Ne.symm hx)]
  -- Otherwise the quantifier binds the term only where there is nothing to replace.
  cases hoccurs : a.isFree var with
  | false =>
    rw [replace_of_not_isFree hoccurs, holds_update_of_not_isFree hoccurs]
  | true =>
    have hbound : x ≠ term ∧ a.isFreeFor var term = true := by simpa [hx, hoccurs] using hfree
    rw [ih hbound.2, Function.update_of_ne (Ne.symm hbound.1)]

/-- A replacement by a term that is free for the variable says what the sentence says when the
variable stands for what the term stands for. -/
theorem holds_replace {s : Sentence} (hfree : s.isFreeFor var term = true) :
    Holds I env (s.replace var term) ↔ Holds I (Function.update env var (env term)) s := by
  -- Each form passes the assignment on to its parts; the quantifiers are `holds_replace_body`.
  induction s using induct generalizing env with
  | falsum => rfl
  | verum => rfl
  | predicate name terms =>
    rw [replace, Holds, Holds, List.map_map]
    refine iff_of_eq (congrArg (I name) (List.map_congr_left fun x _ => ?_))
    by_cases hx : x = var <;> simp [hx]
  | not a ih =>
    rw [isFreeFor] at hfree
    rw [replace, Holds, Holds, ih hfree]
  | and as ih =>
    rw [isFreeFor, isFreeForAll_eq_all, List.all_eq_true] at hfree
    rw [replace, replaceAll_eq_map, Holds, Holds, holdsAll_iff, holdsAll_iff, List.forall_mem_map]
    exact forall₂_congr fun a ha => ih a ha (hfree a ha)
  | or as ih =>
    rw [isFreeFor, isFreeForAll_eq_all, List.all_eq_true] at hfree
    rw [replace, replaceAll_eq_map, Holds, Holds, holdsAny_iff, holdsAny_iff]
    simp only [List.mem_map, exists_exists_and_eq_and]
    exact exists_congr fun a => and_congr_right fun ha => ih a ha (hfree a ha)
  | implies a b iha ihb =>
    rw [isFreeFor, Bool.and_eq_true] at hfree
    rw [replace, Holds, Holds, iha hfree.1, ihb hfree.2]
  | iff a b iha ihb =>
    rw [isFreeFor, Bool.and_eq_true] at hfree
    rw [replace, Holds, Holds, iha hfree.1, ihb hfree.2]
  | forAll x a ih =>
    rw [isFreeFor] at hfree
    rw [replace, Holds, Holds]
    exact forall_congr' fun d => holds_replace_body ih hfree d
  | thereExists x a ih =>
    rw [isFreeFor] at hfree
    rw [replace, Holds, Holds]
    exact exists_congr fun d => holds_replace_body ih hfree d

end Sentence

end NaturalDeduction
