/-
  References to variables in a text.

  A reference is a dollar sign and a name in braces. `expand` goes through the
  text once, from left to right, and puts the value of the variable in place of
  each reference; a variable without a value gives nothing. Values are not
  looked through for further references, and a reference that is never closed
  is kept with all that follows it.
-/

namespace NaturalDeduction

/-- The values of variables. -/
abbrev Environment := String → Option String

namespace Text

/-- The name up to the first closing brace, and the text behind the brace. -/
def nameAt? : List Char → Option (List Char × List Char)
  | [] => none
  | c :: cs =>
    if c = '\x7d' then some ([], cs)
    else (nameAt? cs).map fun (name, rest) => (c :: name, rest)

theorem eq_of_nameAt? {cs name rest : List Char} (h : nameAt? cs = some (name, rest)) :
    cs = name ++ '\x7d' :: rest := by
  induction cs generalizing name with
  | nil => simp [nameAt?] at h
  | cons c cs ih =>
    simp only [nameAt?] at h
    split at h
    · rename_i hc
      simp only [Option.some.injEq, Prod.mk.injEq] at h
      simp [← h.1, ← h.2, hc]
    · obtain ⟨⟨name', rest'⟩, hcs, h⟩ := Option.map_eq_some_iff.1 h
      simp only [Prod.mk.injEq] at h
      obtain ⟨rfl, rfl⟩ := h
      simp [ih hcs]

/-- What a reference to a name stands for. The empty name has no value. -/
def valueOf (environment : Environment) (name : List Char) : List Char :=
  if name.isEmpty then [] else ((environment (String.ofList name)).getD "").toList

/-- Expands the references among characters. -/
def expandChars (environment : Environment) : List Char → List Char
  | [] => []
  | '$' :: '\x7b' :: cs =>
    match h : nameAt? cs with
    | none => '$' :: '\x7b' :: cs
    | some (name, rest) =>
      have : rest.length < cs.length := by simp [eq_of_nameAt? h]; omega
      valueOf environment name ++ expandChars environment rest
  | c :: cs => c :: expandChars environment cs
  termination_by cs => cs.length

section Equations

variable {environment : Environment} {cs name rest : List Char}

theorem expandChars_of_unclosed (h : nameAt? cs = none) :
    expandChars environment ('$' :: '\x7b' :: cs) = '$' :: '\x7b' :: cs := by
  rw [expandChars]
  split <;> simp_all

theorem expandChars_of_reference (h : nameAt? cs = some (name, rest)) :
    expandChars environment ('$' :: '\x7b' :: cs) =
      valueOf environment name ++ expandChars environment rest := by
  rw [expandChars]
  split <;> simp_all

theorem expandChars_of_not_opens {c : Char}
    (hopens : ∀ rest, c = '$' → cs = '\x7b' :: rest → False) :
    expandChars environment (c :: cs) = c :: expandChars environment cs := by
  rw [expandChars]
  exact hopens

end Equations

/-- The names that are referred to among characters. -/
def namesIn : List Char → List String
  | [] => []
  | '$' :: '\x7b' :: cs =>
    match h : nameAt? cs with
    | none => []
    | some (name, rest) =>
      have : rest.length < cs.length := by simp [eq_of_nameAt? h]; omega
      String.ofList name :: namesIn rest
  | _ :: cs => namesIn cs
  termination_by cs => cs.length

/-- Expands the references in a text. -/
def expand (environment : Environment) (text : String) : String :=
  String.ofList (expandChars environment text.toList)

end Text

end NaturalDeduction
