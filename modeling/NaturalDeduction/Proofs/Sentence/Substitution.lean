/-
  Instances as replacements.

  `replace` puts a term for the free occurrences of a variable, just where they
  stand; `isInstantiatedBy` accepts the sentences that arise in this way and no
  others. A replacement is a legal substitution when the term is free for the
  variable: no quantifier around a replaced occurrence binds the term.
-/

import NaturalDeduction.Sentence.Instance

namespace NaturalDeduction.Sentence

/-! ## Induction -/

section Induction

variable {motive : Sentence → Prop}
  (falsum : motive .falsum)
  (verum : motive .verum)
  (predicate : ∀ name terms, motive (.predicate name terms))
  (not : ∀ a, motive a → motive (.not a))
  (and : ∀ as, (∀ a ∈ as, motive a) → motive (.and as))
  (or : ∀ as, (∀ a ∈ as, motive a) → motive (.or as))
  (implies : ∀ a b, motive a → motive b → motive (.implies a b))
  (iff : ∀ a b, motive a → motive b → motive (.iff a b))
  (forAll : ∀ x a, motive a → motive (.forAll x a))
  (thereExists : ∀ x a, motive a → motive (.thereExists x a))
include falsum verum predicate not and or implies iff forAll thereExists

/-- What holds of a sentence when it holds of its parts, the operands of a chain among them, holds
of all sentences. -/
@[elab_as_elim]
theorem induct (s : Sentence) : motive s :=
  @Sentence.rec motive (fun as => ∀ a ∈ as, motive a) falsum verum predicate not and or
    implies iff forAll thereExists (fun _ hmem => absurd hmem List.not_mem_nil)
    (fun _ _ ha has => List.forall_mem_cons.2 ⟨ha, has⟩) s

end Induction

/-! ## Free occurrences and replacement -/

mutual

/-- Whether the variable occurs free. -/
def isFree (var : String) : Sentence → Bool
  | falsum | verum => false
  | predicate _ terms => terms.contains var
  | not a => isFree var a
  | and as | or as => isFreeInAny var as
  | implies a b | iff a b => isFree var a || isFree var b
  | forAll x a | thereExists x a => x != var && isFree var a

/-- Whether the variable occurs free in one of the sentences. -/
def isFreeInAny (var : String) : List Sentence → Bool
  | [] => false
  | a :: as => isFree var a || isFreeInAny var as

end

mutual

/-- Puts the term for every free occurrence of the variable. -/
def replace (var term : String) : Sentence → Sentence
  | falsum => falsum
  | verum => verum
  | predicate name terms => predicate name (terms.map fun x => if x = var then term else x)
  | not a => not (replace var term a)
  | and as => and (replaceAll var term as)
  | or as => or (replaceAll var term as)
  | implies a b => implies (replace var term a) (replace var term b)
  | iff a b => iff (replace var term a) (replace var term b)
  | forAll x a => forAll x (if x = var then a else replace var term a)
  | thereExists x a => thereExists x (if x = var then a else replace var term a)

/-- The same for every sentence of a list. -/
def replaceAll (var term : String) : List Sentence → List Sentence
  | [] => []
  | a :: as => replace var term a :: replaceAll var term as

end

mutual

/-- Whether no quantifier around a free occurrence of the variable binds the term. -/
def isFreeFor (var term : String) : Sentence → Bool
  | falsum | verum | predicate .. => true
  | not a => isFreeFor var term a
  | and as | or as => isFreeForAll var term as
  | implies a b | iff a b => isFreeFor var term a && isFreeFor var term b
  | forAll x a | thereExists x a =>
    !(x != var && isFree var a) || (x != term && isFreeFor var term a)

/-- The same for every sentence of a list. -/
def isFreeForAll (var term : String) : List Sentence → Bool
  | [] => true
  | a :: as => isFreeFor var term a && isFreeForAll var term as

end

theorem isFreeInAny_eq_any (var : String) (as : List Sentence) :
    isFreeInAny var as = as.any (isFree var) := by
  induction as with
  | nil => rfl
  | cons a as ih => rw [isFreeInAny, List.any_cons, ih]

theorem replaceAll_eq_map (var term : String) (as : List Sentence) :
    replaceAll var term as = as.map (replace var term) := by
  induction as with
  | nil => rfl
  | cons a as ih => rw [replaceAll, List.map_cons, ih]

theorem isFreeForAll_eq_all (var term : String) (as : List Sentence) :
    isFreeForAll var term as = as.all (isFreeFor var term) := by
  induction as with
  | nil => rfl
  | cons a as ih => rw [isFreeForAll, List.all_cons, ih]

/-- Nothing is replaced where the variable does not occur free. -/
theorem replace_of_not_isFree {var term : String} {s : Sentence} (h : s.isFree var = false) :
    s.replace var term = s := by
  -- Chains follow from their operands.
  have hall : ∀ as : List Sentence, (∀ a ∈ as, a.isFree var = false → a.replace var term = a) →
      isFreeInAny var as = false → replaceAll var term as = as := by
    intro as has h
    rw [isFreeInAny_eq_any, List.any_eq_false] at h
    rw [replaceAll_eq_map]
    refine (List.map_congr_left fun a ha => ?_).trans (List.map_id as)
    exact has a ha (by simpa using h a ha)
  induction s using induct with
  | falsum => rw [replace]
  | verum => rw [replace]
  | predicate name terms =>
    rw [isFree] at h
    have hmap : (terms.map fun x => if x = var then term else x) = terms := by
      refine (List.map_congr_left fun x hx => ?_).trans (List.map_id terms)
      rw [if_neg]
      · rfl
      · rintro rfl
        simp [hx] at h
    rw [replace, hmap]
  | not a ih =>
    rw [isFree] at h
    rw [replace, ih h]
  | and as ih =>
    rw [isFree] at h
    rw [replace, hall as ih h]
  | or as ih =>
    rw [isFree] at h
    rw [replace, hall as ih h]
  | implies a b iha ihb =>
    rw [isFree, Bool.or_eq_false_iff] at h
    rw [replace, iha h.1, ihb h.2]
  | iff a b iha ihb =>
    rw [isFree, Bool.or_eq_false_iff] at h
    rw [replace, iha h.1, ihb h.2]
  | forAll x a ih =>
    by_cases hx : x = var
    · rw [replace, if_pos hx]
    · rw [replace, if_neg hx, ih (by simpa [isFree, hx] using h)]
  | thereExists x a ih =>
    by_cases hx : x = var
    · rw [replace, if_pos hx]
    · rw [replace, if_neg hx, ih (by simpa [isFree, hx] using h)]

/-! ## Matching finds the replacements -/

/-- The term is the one found so far, if one was found. -/
def Fits (found : Option String) (term : String) : Prop :=
  ∀ other ∈ found, other = term

variable {var term : String} {found found' : Option String}

theorem exists_fits (found : Option String) : ∃ term, Fits found term := by
  cases found with
  | none => exact ⟨"", fun other h => by cases h⟩
  | some term => exact ⟨term, fun other h => (Option.some.inj h).symm⟩

/-- Matched terms are the terms of the pattern with any fitting term for the variable. -/
theorem eq_map_of_matchTerms {xs ts : List String} (h : matchTerms var found xs ts = some found')
    (hfits : Fits found' term) :
    Fits found term ∧ ts = xs.map fun x => if x = var then term else x := by
  induction xs generalizing ts found with
  | nil =>
    cases ts with
    | nil =>
      cases h
      exact ⟨hfits, rfl⟩
    | cons t ts => cases h
  | cons x xs ih =>
    cases ts with
    | nil => cases h
    | cons t ts =>
      simp only [matchTerms] at h
      -- At the variable the term found so far must come again, or is fixed now; elsewhere the two
      -- terms must be the same.
      split at h
      · rename_i hx
        split at h
        · obtain ⟨hfound, rfl⟩ := ih h
          have ht : t = term := hfound t rfl
          exact ⟨fun other ho => (by cases ho), by simp [hx, ht]⟩
        · rename_i u
          split at h
          · rename_i hu
            obtain ⟨hfound, rfl⟩ := ih h
            have ht : u = term := hfound u rfl
            exact ⟨hfound, by simp [hx, ← hu, ht]⟩
          · cases h
      · rename_i hx
        split at h
        · rename_i ht
          obtain ⟨hfound, rfl⟩ := ih h
          exact ⟨hfound, by simp [← ht, hx]⟩
        · cases h

theorem exists_matchTerms (var : String) (xs : List String) (hfits : Fits found term) :
    ∃ found', matchTerms var found xs (xs.map fun x => if x = var then term else x) =
      some found' ∧ Fits found' term := by
  induction xs generalizing found with
  | nil => exact ⟨found, rfl, hfits⟩
  | cons x xs ih =>
    -- Once the variable is met, the term is fixed and stays a fitting one.
    by_cases hx : x = var
    · have hterm : Fits (some term) term := fun other h => (Option.some.inj h).symm
      obtain ⟨found', hmatch, hfits'⟩ := ih hterm
      refine ⟨found', ?_, hfits'⟩
      cases found with
      | none => simpa [matchTerms, hx] using hmatch
      | some u =>
        obtain rfl : u = term := hfits u rfl
        simpa [matchTerms, hx] using hmatch
    · obtain ⟨found', hmatch, hfits'⟩ := ih hfits
      refine ⟨found', ?_, hfits'⟩
      simpa [matchTerms, hx] using hmatch

/-- A match of the pattern is the pattern with any fitting term for the variable. -/
def IsMatchedBy (var : String) (a : Sentence) : Prop :=
  ∀ {b : Sentence} {found found' : Option String} {term : String},
    matchFrom var found a b = some found' → Fits found' term →
      Fits found term ∧ b = a.replace var term

theorem eq_replaceAll_of_matchAll {as bs : List Sentence} (has : ∀ a ∈ as, IsMatchedBy var a)
    (h : matchAll var found as bs = some found') (hfits : Fits found' term) :
    Fits found term ∧ bs = replaceAll var term as := by
  induction as generalizing bs found with
  | nil =>
    cases bs <;> simp only [matchAll, reduceCtorEq] at h
    cases h
    exact ⟨hfits, rfl⟩
  | cons a as ih =>
    cases bs with
    | nil => simp only [matchAll, reduceCtorEq] at h
    | cons b bs =>
      simp only [matchAll] at h
      -- The match is taken apart from the right, since fitting is known of the last term found.
      obtain ⟨middle, hfirst, hrest⟩ := Option.bind_eq_some_iff.1 h
      obtain ⟨hmiddle, rfl⟩ := ih (fun a ha => has a (.tail _ ha)) hrest
      obtain ⟨hfound, rfl⟩ := has a (.head _) hfirst hmiddle
      exact ⟨hfound, rfl⟩

/-- Matching goes below a quantifier unless it binds the variable. -/
theorem eq_replace_of_matchBody {x y : String} {a b : Sentence} (ha : IsMatchedBy var a)
    (h : (if x ≠ y then none
      else if x = var then (if a = b then some found else none)
      else matchFrom var found a b) = some found') (hfits : Fits found' term) :
    Fits found term ∧ x = y ∧ b = if x = var then a else a.replace var term := by
  -- The bound variables agree; below a quantifier that binds `var` nothing may differ.
  split at h
  · cases h
  · rename_i hxy
    have hxy := Decidable.not_not.1 hxy
    split at h
    · rename_i hx
      split at h
      · rename_i hab
        cases h
        exact ⟨hfits, hxy, by rw [if_pos hx, hab]⟩
      · cases h
    · rename_i hx
      obtain ⟨hfound, hb⟩ := ha h hfits
      exact ⟨hfound, hxy, by rw [if_neg hx, hb]⟩

theorem isMatchedBy (var : String) (a : Sentence) : IsMatchedBy var a := by
  -- One case for each form of the pattern. The other sentence has the same form, and the parts are
  -- matched one after the other.
  induction a using induct with
  | falsum =>
    intro b found found' term h hfits
    cases b <;> simp only [matchFrom, reduceCtorEq] at h
    cases h
    exact ⟨hfits, rfl⟩
  | verum =>
    intro b found found' term h hfits
    cases b <;> simp only [matchFrom, reduceCtorEq] at h
    cases h
    exact ⟨hfits, rfl⟩
  | predicate name terms =>
    intro b found found' term h hfits
    cases b <;> simp only [matchFrom, reduceCtorEq, Option.ite_none_right_eq_some] at h
    obtain ⟨rfl, h⟩ := h
    obtain ⟨hfound, rfl⟩ := eq_map_of_matchTerms h hfits
    exact ⟨hfound, rfl⟩
  | not a ih =>
    intro b found found' term h hfits
    cases b <;> simp only [matchFrom, reduceCtorEq] at h
    obtain ⟨hfound, rfl⟩ := ih h hfits
    exact ⟨hfound, rfl⟩
  | and as ih =>
    intro b found found' term h hfits
    cases b <;> simp only [matchFrom, reduceCtorEq] at h
    obtain ⟨hfound, rfl⟩ := eq_replaceAll_of_matchAll ih h hfits
    exact ⟨hfound, rfl⟩
  | or as ih =>
    intro b found found' term h hfits
    cases b <;> simp only [matchFrom, reduceCtorEq] at h
    obtain ⟨hfound, rfl⟩ := eq_replaceAll_of_matchAll ih h hfits
    exact ⟨hfound, rfl⟩
  | implies a c iha ihc =>
    intro b found found' term h hfits
    cases b <;> simp only [matchFrom, reduceCtorEq] at h
    obtain ⟨middle, hfirst, hrest⟩ := Option.bind_eq_some_iff.1 h
    obtain ⟨hmiddle, rfl⟩ := ihc hrest hfits
    obtain ⟨hfound, rfl⟩ := iha hfirst hmiddle
    exact ⟨hfound, rfl⟩
  | iff a c iha ihc =>
    intro b found found' term h hfits
    cases b <;> simp only [matchFrom, reduceCtorEq] at h
    obtain ⟨middle, hfirst, hrest⟩ := Option.bind_eq_some_iff.1 h
    obtain ⟨hmiddle, rfl⟩ := ihc hrest hfits
    obtain ⟨hfound, rfl⟩ := iha hfirst hmiddle
    exact ⟨hfound, rfl⟩
  | forAll x a ih =>
    intro b found found' term h hfits
    cases b <;> simp only [matchFrom, reduceCtorEq] at h
    obtain ⟨hfound, rfl, rfl⟩ := eq_replace_of_matchBody ih h hfits
    exact ⟨hfound, by rw [replace]⟩
  | thereExists x a ih =>
    intro b found found' term h hfits
    cases b <;> simp only [matchFrom, reduceCtorEq] at h
    obtain ⟨hfound, rfl, rfl⟩ := eq_replace_of_matchBody ih h hfits
    exact ⟨hfound, by rw [replace]⟩

/-- Every replacement by a fitting term is matched. -/
theorem exists_matchFrom_replace (var : String) (a : Sentence) (hfits : Fits found term) :
    ∃ found', matchFrom var found a (a.replace var term) = some found' ∧ Fits found' term := by
  -- Operands are matched in order, each with the term that the ones before it left.
  have hall : ∀ (as : List Sentence) (found : Option String), Fits found term →
      (∀ a ∈ as, ∀ found : Option String, Fits found term →
        ∃ found', matchFrom var found a (a.replace var term) = some found' ∧ Fits found' term) →
      ∃ found', matchAll var found as (replaceAll var term as) = some found' ∧
        Fits found' term := by
    intro as
    induction as with
    | nil => exact fun found hfits _ => ⟨found, by rw [replaceAll, matchAll], hfits⟩
    | cons a as ih =>
      intro found hfits has
      obtain ⟨middle, hfirst, hmiddle⟩ := has a (.head _) found hfits
      obtain ⟨found', hrest, hfits'⟩ := ih middle hmiddle fun a ha => has a (.tail _ ha)
      exact ⟨found', by simp only [replaceAll, matchAll, hfirst, Option.bind_eq_bind,
        Option.bind_some, hrest], hfits'⟩
  induction a using induct generalizing found with
  | falsum => exact ⟨found, by rw [replace, matchFrom], hfits⟩
  | verum => exact ⟨found, by rw [replace, matchFrom], hfits⟩
  | predicate name terms =>
    obtain ⟨found', hmatch, hfits'⟩ := exists_matchTerms var terms hfits
    exact ⟨found', by simp only [replace, matchFrom, if_true, hmatch], hfits'⟩
  | not a ih =>
    obtain ⟨found', hmatch, hfits'⟩ := ih hfits
    exact ⟨found', by simp only [replace, matchFrom, hmatch], hfits'⟩
  | and as ih =>
    obtain ⟨found', hmatch, hfits'⟩ := hall as found hfits fun a ha found h => ih a ha h
    exact ⟨found', by simp only [replace, matchFrom, hmatch], hfits'⟩
  | or as ih =>
    obtain ⟨found', hmatch, hfits'⟩ := hall as found hfits fun a ha found h => ih a ha h
    exact ⟨found', by simp only [replace, matchFrom, hmatch], hfits'⟩
  | implies a b iha ihb =>
    obtain ⟨middle, hfirst, hmiddle⟩ := iha hfits
    obtain ⟨found', hrest, hfits'⟩ := ihb hmiddle
    exact ⟨found', by simp only [replace, matchFrom, hfirst, Option.bind_eq_bind,
      Option.bind_some, hrest], hfits'⟩
  | iff a b iha ihb =>
    obtain ⟨middle, hfirst, hmiddle⟩ := iha hfits
    obtain ⟨found', hrest, hfits'⟩ := ihb hmiddle
    exact ⟨found', by simp only [replace, matchFrom, hfirst, Option.bind_eq_bind,
      Option.bind_some, hrest], hfits'⟩
  | forAll x a ih =>
    by_cases hx : x = var
    · exact ⟨found, by simp [replace, matchFrom, hx], hfits⟩
    · obtain ⟨found', hmatch, hfits'⟩ := ih hfits
      exact ⟨found', by simp [replace, matchFrom, hx, hmatch], hfits'⟩
  | thereExists x a ih =>
    by_cases hx : x = var
    · exact ⟨found, by simp [replace, matchFrom, hx], hfits⟩
    · obtain ⟨found', hmatch, hfits'⟩ := ih hfits
      exact ⟨found', by simp [replace, matchFrom, hx, hmatch], hfits'⟩

/-- The accepted instances are the replacements, legal or not. -/
theorem isInstantiatedBy_iff {pattern sentence : Sentence} :
    pattern.isInstantiatedBy var sentence = true ↔ ∃ term, sentence = pattern.replace var term := by
  rw [isInstantiatedBy, Option.isSome_iff_exists]
  constructor
  · rintro ⟨found, hmatch⟩
    obtain ⟨term, hfits⟩ := exists_fits found
    exact ⟨term, (isMatchedBy var pattern hmatch hfits).2⟩
  · rintro ⟨term, rfl⟩
    have hfits : Fits none term := fun other h => by cases h
    obtain ⟨found, hmatch, -⟩ := exists_matchFrom_replace var pattern hfits
    exact ⟨found, hmatch⟩

end NaturalDeduction.Sentence
