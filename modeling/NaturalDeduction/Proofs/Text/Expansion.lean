/-
  Expansion in one pass.

  Expanding a text goes from left to right and never back: a text may be cut
  anywhere but inside a reference, and the expansions of the parts make up the
  expansion of the whole. What a variable stands for is written as it is, and a
  reference that is never closed is kept with all that follows it. The pass by
  byte offsets writes the same, and never cuts a character in two.
-/

import Mathlib.Data.List.Infix
import NaturalDeduction.Text.Slicing

namespace NaturalDeduction.Text

variable {environment : Environment} {a b cs name rest pattern : List Char}

/-! ## Names of references -/

theorem nameAt?_eq_none_iff : nameAt? cs = none ↔ '\x7d' ∉ cs := by
  induction cs with
  | nil => simp [nameAt?]
  | cons c cs ih =>
    rw [nameAt?]
    split
    · rename_i hc
      simp [hc]
    · rename_i hc
      simp [ih, Ne.symm hc]

/-- A name goes up to the first closing brace. -/
theorem nameAt?_of_not_mem (h : '\x7d' ∉ name) (rest : List Char) :
    nameAt? (name ++ '\x7d' :: rest) = some (name, rest) := by
  induction name with
  | nil => rfl
  | cons c name ih =>
    rw [List.mem_cons, not_or] at h
    rw [List.cons_append, nameAt?, if_neg (Ne.symm h.1), ih h.2]
    rfl

/-- What follows behind makes no difference to a name that is closed. -/
theorem nameAt?_append (h : nameAt? cs = some (name, rest)) (more : List Char) :
    nameAt? (cs ++ more) = some (name, rest ++ more) := by
  induction cs generalizing name with
  | nil => cases h
  | cons c cs ih =>
    rw [nameAt?] at h
    rw [List.cons_append, nameAt?]
    split at h
    · rename_i hc
      cases h
      rw [if_pos hc]
    · rename_i hc
      obtain ⟨⟨name', rest'⟩, hcs, heq⟩ := Option.map_eq_some_iff.1 h
      cases heq
      rw [if_neg hc, ih hcs]
      rfl

/-! ## Expansion character by character -/

/-- Without a reference nothing is changed. -/
theorem expandChars_eq_self (h : ¬ ['$', '\x7b'] <:+: cs) : expandChars environment cs = cs := by
  fun_induction expandChars environment cs with
  | case1 => rfl
  | case2 => rfl
  | case3 cs => exact absurd ⟨[], cs, rfl⟩ h
  | case4 c cs _ ih => rw [ih fun hcs => h (List.infix_cons hcs)]

/-- What a reference stands for as a text. -/
theorem ofList_valueOf (environment : Environment) (name : List Char) :
    String.ofList (valueOf environment name) =
      if String.ofList name = "" then "" else (environment (String.ofList name)).getD "" := by
  cases name with
  | nil => rfl
  | cons c name =>
    have hne : String.ofList (c :: name) ≠ "" := by simp
    rw [if_neg hne]
    exact String.ofList_toList

/-! ## Texts side by side -/

/-- Every reference that is opened among the characters is closed among them. -/
def ReferencesClose (cs : List Char) : Prop :=
  ∀ rest, '$' :: '\x7b' :: rest <:+ cs → '\x7d' ∈ rest

/-- A dollar sign at the end of the one and a brace at the beginning of the other open a reference
that is in neither. -/
def OpensBetween (a b : List Char) : Prop :=
  a.getLast? = some '$' ∧ b.head? = some '\x7b'

theorem ReferencesClose.of_suffix (h : ReferencesClose cs) (hrest : rest <:+ cs) :
    ReferencesClose rest :=
  fun _ hreference => h _ (hreference.trans hrest)

theorem referencesClose_of_unopened (h : ¬ ['$', '\x7b'] <:+: cs) : ReferencesClose cs := by
  rintro rest ⟨before, rfl⟩
  exact absurd ⟨before, rest, by simp⟩ h

theorem OpensBetween.of_suffix (h : OpensBetween rest b) (hrest : rest <:+ a) :
    OpensBetween a b := by
  obtain ⟨before, rfl⟩ := hrest
  exact ⟨by rw [List.getLast?_append, h.1]; rfl, h.2⟩

/-- A character that opens no reference opens none with other text behind it, unless the reference
is opened between the two texts. -/
theorem not_opens_append {c : Char} (hopens : ∀ rest, c = '$' → cs = '\x7b' :: rest → False)
    (hseam : ¬ OpensBetween (c :: cs) b) :
    ∀ rest, c = '$' → cs ++ b = '\x7b' :: rest → False := by
  rintro rest rfl h
  cases cs with
  | nil => exact hseam ⟨rfl, by rw [← List.nil_append b, h]; rfl⟩
  | cons d cs =>
    obtain ⟨rfl, -⟩ := List.cons.inj h
    exact hopens cs rfl rfl

theorem suffix_of_nameAt? (h : nameAt? cs = some (name, rest)) : rest <:+ '$' :: '\x7b' :: cs :=
  ⟨'$' :: '\x7b' :: (name ++ ['\x7d']), by simp [eq_of_nameAt? h]⟩

/-- The expansions of two texts stand side by side, if no reference goes from the one into the
other. -/
theorem expandChars_append (hclose : ReferencesClose a) (hseam : ¬ OpensBetween a b) :
    expandChars environment (a ++ b) = expandChars environment a ++ expandChars environment b := by
  -- The induction follows the pass over the first text.
  fun_induction expandChars environment a with
  | case1 => rfl
  | case2 cs hname => exact absurd (hclose cs List.suffix_rfl) (nameAt?_eq_none_iff.1 hname)
  | case3 cs name rest hname _ ih =>
    have hrest := suffix_of_nameAt? hname
    rw [List.cons_append, List.cons_append, expandChars_of_reference (nameAt?_append hname b),
      ih (hclose.of_suffix hrest) (fun h => hseam (h.of_suffix hrest)), List.append_assoc]
  | case4 c cs hopens ih =>
    have hcs := List.suffix_cons c cs
    rw [List.cons_append, expandChars_of_not_opens (not_opens_append hopens hseam),
      ih (hclose.of_suffix hcs) (fun h => hseam (h.of_suffix hcs)), List.cons_append]

/-- A reference that is never closed is kept with all that follows it, whatever stands before. -/
theorem expandChars_append_unclosed (h : '\x7d' ∉ rest) :
    expandChars environment (a ++ '$' :: '\x7b' :: rest) =
      expandChars environment a ++ '$' :: '\x7b' :: rest := by
  fun_induction expandChars environment a with
  | case1 => exact expandChars_of_unclosed (nameAt?_eq_none_iff.2 h)
  | case2 cs hname =>
    -- An earlier reference that is not closed before is not closed behind either.
    have hcs := nameAt?_eq_none_iff.1 hname
    exact expandChars_of_unclosed (nameAt?_eq_none_iff.2 (by simp [hcs, h]))
  | case3 cs name _ hname _ ih =>
    rw [List.cons_append, List.cons_append, expandChars_of_reference (nameAt?_append hname _), ih,
      List.append_assoc]
  | case4 c cs hopens ih =>
    have hseam : ¬ OpensBetween (c :: cs) ('$' :: '\x7b' :: rest) := by
      rintro ⟨-, hhead⟩
      cases hhead
    rw [List.cons_append, expandChars_of_not_opens (not_opens_append hopens hseam), ih,
      List.cons_append]

/-! ## Offsets and slices -/

/-- A pattern has no offset where it does not stand. -/
theorem offsetIn?_eq_none_iff (hpattern : pattern ≠ []) :
    offsetIn? pattern cs = none ↔ ¬ pattern <:+: cs := by
  induction cs with
  | nil => simp [offsetIn?, hpattern]
  | cons c cs ih =>
    rw [offsetIn?, List.infix_cons_iff]
    split
    · rename_i hprefix
      simp [List.isPrefixOf_iff_prefix.1 hprefix]
    · rename_i hprefix
      rw [List.isPrefixOf_iff_prefix] at hprefix
      simp [ih, hprefix]

/-- At its offset a pattern stands, and nowhere in front of it. -/
theorem exists_of_offsetIn? (hpattern : pattern ≠ []) {offset : Nat}
    (h : offsetIn? pattern cs = some offset) : ∃ before after, cs = before ++ (pattern ++ after) ∧
      byteLength before = offset ∧ ¬ pattern <:+: before := by
  induction cs generalizing offset with
  | nil => simp [offsetIn?, hpattern] at h
  | cons c cs ih =>
    rw [offsetIn?] at h
    split at h
    · rename_i hprefix
      obtain ⟨after, hafter⟩ := List.isPrefixOf_iff_prefix.1 hprefix
      cases h
      exact ⟨[], after, hafter.symm, rfl, by simpa using hpattern⟩
    · rename_i hprefix
      obtain ⟨offset, hoffset, rfl⟩ := Option.map_eq_some_iff.1 h
      obtain ⟨before, after, rfl, rfl, hbefore⟩ := ih hoffset
      refine ⟨c :: before, after, rfl, rfl, fun hinfix => ?_⟩
      rcases List.infix_cons_iff.1 hinfix with hfirst | hlater
      · have hlonger : c :: before <+: c :: (before ++ (pattern ++ after)) :=
          List.prefix_append (c :: before) _
        exact hprefix (List.isPrefixOf_iff_prefix.2 (hfirst.trans hlonger))
      · exact hbefore hlater

/-- Up to its first reference a text is kept. -/
theorem expandChars_before (h : ¬ ['$', '\x7b'] <:+: a) (behind : List Char) :
    expandChars environment (a ++ ('$' :: '\x7b' :: behind)) =
      a ++ expandChars environment ('$' :: '\x7b' :: behind) := by
  rw [expandChars_append (referencesClose_of_unopened h), expandChars_eq_self h]
  rintro ⟨-, hhead⟩
  cases hhead

/-- The rest of a text from where a character begins is a slice. -/
theorem slice?_behind {text : String} {before after : List Char} {start : Nat}
    (htext : text.toList = before ++ after) (hstart : start = byteLength before) :
    Span.slice? ⟨start, size text⟩ text = some (String.ofList after) := by
  have hall : text.toList = before ++ (after ++ []) := by rw [htext, List.append_nil]
  refine Span.slice?_eq_some hall hstart ?_
  rw [size, htext, byteLength_append]

theorem slice?_behind_opening {text : String} {before behind : List Char}
    (htext : text.toList = before ++ (['$', '\x7b'] ++ behind)) :
    Span.slice? ⟨byteLength before + 2, size text⟩ text = some (String.ofList behind) := by
  rw [← List.append_assoc] at htext
  exact slice?_behind htext (by rw [byteLength_append]; rfl)

theorem offsetOf?_opening (text : String) :
    offsetOf? "$\x7b" text = offsetIn? ['$', '\x7b'] text.toList := rfl

theorem offsetOf?_closing (cs : List Char) :
    offsetOf? "\x7d" (String.ofList cs) = offsetIn? ['\x7d'] cs :=
  congrArg (offsetIn? ['\x7d']) String.toList_ofList

/-- What stands before a reference, its name, and what stands behind it are slices between the
offsets of its dollar sign and its closing brace. -/
theorem slices_of_reference {text : String} {before name after : List Char}
    (htext : text.toList = before ++ (['$', '\x7b'] ++ (name ++ (['\x7d'] ++ after)))) :
    Span.slice? ⟨0, byteLength before⟩ text = some (String.ofList before) ∧
      Span.slice? ⟨byteLength before + 2, byteLength before + 2 + byteLength name⟩ text =
        some (String.ofList name) ∧
      Span.slice? ⟨byteLength before + 2 + byteLength name + 1, size text⟩ text =
        some (String.ofList after) := by
  have hopening : byteLength (before ++ ['$', '\x7b']) = byteLength before + 2 := by
    rw [byteLength_append]
    rfl
  have hclosing : byteLength (before ++ ['$', '\x7b'] ++ name ++ ['\x7d']) =
      byteLength before + 2 + byteLength name + 1 := by
    rw [byteLength_append, byteLength_append, hopening]
    rfl
  have hname : text.toList = (before ++ ['$', '\x7b']) ++ (name ++ (['\x7d'] ++ after)) := by
    rw [htext, List.append_assoc]
  have hafter : text.toList = (before ++ ['$', '\x7b'] ++ name ++ ['\x7d']) ++ after := by
    rw [htext]
    simp only [List.append_assoc]
  have hbefore : text.toList = [] ++ (before ++ _) := htext
  refine ⟨?_, ?_, slice?_behind hafter hclosing.symm⟩
  · exact Span.slice?_eq_some hbefore rfl (Nat.zero_add _).symm
  · exact Span.slice?_eq_some hname hopening.symm (by rw [hopening])

/-! ### Steps of the pass -/

section Steps

variable {text written : String} {before behind after : List Char}

/-- Where no reference is opened the pass ends. -/
theorem expandSlices_of_unopened (hstart : offsetIn? ['$', '\x7b'] text.toList = none) :
    expandSlices environment written text = some (written ++ text) := by
  rw [expandSlices, offsetOf?_opening, hstart]

/-- At a reference that is not closed the pass ends. -/
theorem expandSlices_of_unclosed (htext : text.toList = before ++ (['$', '\x7b'] ++ behind))
    (hstart : offsetIn? ['$', '\x7b'] text.toList = some (byteLength before))
    (hclosing : offsetIn? ['\x7d'] behind = none) :
    expandSlices environment written text = some (written ++ text) := by
  rw [expandSlices, offsetOf?_opening, hstart]
  simp only [slice?_behind_opening htext, bind, Option.bind, offsetOf?_closing, hclosing]
  rfl

/-- A reference is replaced by its value, and the pass goes on behind it. -/
theorem expandSlices_of_reference
    (htext : text.toList = before ++ (['$', '\x7b'] ++ (name ++ (['\x7d'] ++ after))))
    (hstart : offsetIn? ['$', '\x7b'] text.toList = some (byteLength before))
    (hclosing : offsetIn? ['\x7d'] (name ++ (['\x7d'] ++ after)) = some (byteLength name)) :
    expandSlices environment written text = expandSlices environment
      (written ++ String.ofList before ++ String.ofList (valueOf environment name))
      (String.ofList after) := by
  obtain ⟨hbefore, hname, hafter⟩ := slices_of_reference htext
  rw [expandSlices, offsetOf?_opening, hstart]
  simp only [slice?_behind_opening htext, bind, Option.bind, offsetOf?_closing, hclosing, hbefore,
    hname]
  split
  · rename_i hnone
    rw [hafter] at hnone
    cases hnone
  · rename_i rest hsome
    obtain rfl := Option.some.inj (hafter.symm.trans hsome)
    rw [ofList_valueOf]

end Steps

/-- The pass by offsets cuts between characters only, and writes the expansion. -/
theorem expandSlices_eq (environment : Environment) (written text : String) :
    expandSlices environment written text = some (written ++ expand environment text) := by
  -- The induction is on the number of characters that are left.
  induction hlength : text.length using Nat.strong_induction_on generalizing written text with
  | h count ih =>
    subst hlength
    cases hstart : offsetIn? ['$', '\x7b'] text.toList with
    | none =>
      have hnone := (offsetIn?_eq_none_iff (List.cons_ne_nil _ _)).1 hstart
      rw [expandSlices_of_unopened hstart, expand, expandChars_eq_self hnone, String.ofList_toList]
    | some start =>
      obtain ⟨before, behind, htext, rfl, hbefore⟩ :=
        exists_of_offsetIn? (List.cons_ne_nil _ _) hstart
      have hexpand : expandChars environment text.toList =
          before ++ expandChars environment ('$' :: '\x7b' :: behind) := by
        rw [htext]
        exact expandChars_before hbefore behind
      cases hclosing : offsetIn? ['\x7d'] behind with
      | none =>
        have hnone := (offsetIn?_eq_none_iff (List.cons_ne_nil _ _)).1 hclosing
        rw [List.singleton_infix_iff] at hnone
        have hkept : expandChars environment text.toList = text.toList := by
          rw [hexpand, expandChars_of_unclosed (nameAt?_eq_none_iff.2 hnone), htext]
          rfl
        rw [expandSlices_of_unclosed htext hstart hclosing, expand, hkept, String.ofList_toList]
      | some length =>
        obtain ⟨name, after, rfl, rfl, hfirst⟩ :=
          exists_of_offsetIn? (List.cons_ne_nil _ _) hclosing
        rw [List.singleton_infix_iff] at hfirst
        have hname : nameAt? (name ++ (['\x7d'] ++ after)) = some (name, after) :=
          nameAt?_of_not_mem hfirst after
        have hshorter :=
          Span.length_lt_of_slice? (slices_of_reference htext).2.2 (Nat.zero_lt_succ _)
        rw [expandSlices_of_reference htext hstart hclosing, ih _ hshorter _ _ rfl, expand, expand,
          hexpand, expandChars_of_reference hname, String.toList_ofList, String.ofList_append,
          String.ofList_append, String.append_assoc, String.append_assoc]

/-! ## Texts -/

/-- The expansions of two texts stand side by side, if no reference goes from the one into the
other. -/
theorem expand_append {a b : String} (hclose : ReferencesClose a.toList)
    (hseam : ¬ OpensBetween a.toList b.toList) :
    expand environment (a ++ b) = expand environment a ++ expand environment b := by
  rw [expand, String.toList_append, expandChars_append hclose hseam, String.ofList_append]
  rfl

/-- A reference that is never closed is kept with all that follows it. -/
theorem expand_append_unclosed (a : String) {rest : String} (hrest : '\x7d' ∉ rest.toList) :
    expand environment (a ++ "$\x7b" ++ rest) = expand environment a ++ "$\x7b" ++ rest := by
  have htext : (a ++ "$\x7b" ++ rest).toList = a.toList ++ '$' :: '\x7b' :: rest.toList := by
    rw [String.toList_append, String.toList_append, List.append_assoc]
    rfl
  have hkept : String.ofList ('$' :: '\x7b' :: rest.toList) = "$\x7b" ++ rest := by
    rw [← String.toList_inj, String.toList_ofList, String.toList_append]
    rfl
  rw [expand, htext, expandChars_append_unclosed hrest, String.ofList_append, hkept,
    String.append_assoc]
  rfl

/-- A text without references is kept. -/
theorem expand_eq_self {text : String} (h : ¬ ['$', '\x7b'] <:+: text.toList) :
    expand environment text = text := by
  rw [expand, expandChars_eq_self h, String.ofList_toList]

/-- The value of a variable is written as it is, whatever it looks like. -/
theorem expand_reference {name : String} (hname : '\x7d' ∉ name.toList) (rest : String) :
    expand environment ("$\x7b" ++ name ++ "\x7d" ++ rest) =
      (if name = "" then "" else (environment name).getD "") ++ expand environment rest := by
  have htext : ("$\x7b" ++ name ++ "\x7d" ++ rest).toList =
      '$' :: '\x7b' :: (name.toList ++ '\x7d' :: rest.toList) := by
    rw [String.toList_append, String.toList_append, String.toList_append, List.append_assoc,
      List.append_assoc]
    rfl
  rw [expand, htext, expandChars_of_reference (nameAt?_of_not_mem hname rest.toList),
    String.ofList_append, ofList_valueOf, String.ofList_toList]
  rfl

/-- Expanding is one pass from left to right. The expansions of two texts stand side by side, if the
references in the first one are closed there and none is opened between the two. A reference that is
never closed is kept with all that follows it, a text without references is kept as a whole, and the
value of a variable is written as it is, whatever it looks like. The pass finds references by byte
offsets, and all of its slices begin and end between characters. -/
theorem expand_in_one_pass (environment : Environment) :
    (∀ a b : String, ReferencesClose a.toList → ¬ OpensBetween a.toList b.toList →
      expand environment (a ++ b) = expand environment a ++ expand environment b) ∧
    (∀ a rest : String, '\x7d' ∉ rest.toList →
      expand environment (a ++ "$\x7b" ++ rest) = expand environment a ++ "$\x7b" ++ rest) ∧
    (∀ text : String, ¬ ['$', '\x7b'] <:+: text.toList → expand environment text = text) ∧
    (∀ name rest : String, '\x7d' ∉ name.toList →
      expand environment ("$\x7b" ++ name ++ "\x7d" ++ rest) =
        (if name = "" then "" else (environment name).getD "") ++ expand environment rest) ∧
    ∀ text : String, expandSlices environment "" text = some (expand environment text) := by
  refine ⟨fun _ _ => expand_append, fun a _ => expand_append_unclosed a, fun _ => expand_eq_self,
    fun _ rest hname => expand_reference hname rest, fun text => ?_⟩
  rw [expandSlices_eq, String.empty_append]

/-- A value that looks like a reference is written as it is, a dollar sign may stand between two
references, and the last reference is not closed. -/
theorem expand_in_one_pass_valueLikeReference :
    ReferencesClose "$\x7bA\x7d→$".toList ∧ ¬ OpensBetween "$\x7bA\x7d→$".toList "$\x7bA".toList ∧
      expand (fun _ => some "$\x7bB\x7d") ("$\x7bA\x7d→$" ++ "$\x7bA") = "$\x7bB\x7d→$$\x7bA" ∧
      expandSlices (fun _ => some "$\x7bB\x7d") "" "$\x7bA\x7d→$$\x7bA" =
        some "$\x7bB\x7d→$$\x7bA" := by
  obtain ⟨happend, hunclosed, hplain, hreference, hslices⟩ :=
    expand_in_one_pass fun _ => some "$\x7bB\x7d"
  have hclose : ReferencesClose "$\x7bA\x7d→$".toList := by
    intro rest hrest
    simp [List.suffix_cons_iff] at hrest
    simp [hrest]
  have hseam : ¬ OpensBetween "$\x7bA\x7d→$".toList "$\x7bA".toList := by
    simp [OpensBetween]
  have hfirst : expand (fun _ => some "$\x7bB\x7d") "$\x7bA\x7d→$" = "$\x7bB\x7d→$" := by
    have h := hreference "A" "→$" (by decide)
    rwa [hplain "→$" (by decide)] at h
  have hlast : expand (fun _ => some "$\x7bB\x7d") "$\x7bA" = "$\x7bA" := by
    have h := hunclosed "" "A" (by decide)
    rwa [hplain "" (by decide)] at h
  have hboth := happend _ _ hclose hseam
  rw [hfirst, hlast] at hboth
  exact ⟨hclose, hseam, hboth, (hslices _).trans (congrArg some hboth)⟩

end NaturalDeduction.Text
