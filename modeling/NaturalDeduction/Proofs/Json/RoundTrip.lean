/-
  Reading back what was written.

  Both ways of writing a value, compact and with a line for each part, give a
  text that spells it, provided that its numbers are whole numbers of 64 bits.
  So such a value is read back from either text.
-/

import NaturalDeduction.Proofs.Json.Grammar

namespace NaturalDeduction.Json

/-! ## Values with whole numbers -/

mutual

/-- Whether the value holds no other numbers than whole numbers of 64 bits. -/
def whole : Json → Bool
  | number (.natural n) => n < Word.limit 64
  | number (.negative magnitude) => 0 < magnitude && magnitude ≤ Word.limit 63
  | number (.real _) => false
  | array items => wholeItems items
  | object members => wholeMembers members
  | unrepresentable => false
  | _ => true

/-- Whether the items hold no other numbers than whole numbers of 64 bits. -/
def wholeItems : List Json → Bool
  | [] => true
  | item :: items => whole item && wholeItems items

/-- Whether the members hold no other numbers than whole numbers of 64 bits. -/
def wholeMembers : List (String × Json) → Bool
  | [] => true
  | (_, value) :: members => whole value && wholeMembers members

end

/-! ## Parts between brackets -/

/-- Texts of items with commas between them, each on a line of its own, spell the items. -/
theorem spellsItems_intercalate {items : List Json} {parts : List (List Char)}
    (h : List.Forall₂ Spells items parts) (hitems : items ≠ []) {before after : List Char}
    (hbefore : Blank before) (hafter : Blank after) :
    SpellsItems items (before ++ (',' :: before).intercalate parts ++ after ++ [']']) := by
  induction h with
  | nil => exact absurd rfl hitems
  | @cons item part items parts hitem hrest ih =>
    cases hrest with
    | nil =>
      rw [List.intercalate_singleton]
      exact .last hbefore hitem hafter
    | @cons next _ items parts hnext hrest =>
      have hmore := SpellsItems.more hbefore hitem (ih (List.cons_ne_nil _ _))
      rw [List.intercalate_cons_cons]
      simpa only [List.append_assoc, List.cons_append] using hmore

/-- The characters are a key, a colon with white space behind it, and a value. -/
def SpellsMember (blank : List Char) (member : String × Json) (part : List Char) : Prop :=
  ∃ cs, Spells member.2 cs ∧
    part = '"' :: (member.1.toList.flatMap escape ++ '"' :: ':' :: (blank ++ cs))

/-- Texts of members with commas between them, each on a line of its own, spell the members. -/
theorem spellsMembers_intercalate {members : List (String × Json)} {parts : List (List Char)}
    {before blank after : List Char} (h : List.Forall₂ (SpellsMember blank) members parts)
    (hmembers : members ≠ []) (hbefore : Blank before) (hblank : Blank blank)
    (hafter : Blank after) :
    SpellsMembers members (before ++ (',' :: before).intercalate parts ++ after ++ ['\x7d']) := by
  induction h with
  | nil => exact absurd rfl hmembers
  | @cons member part members parts hmember hrest ih =>
    obtain ⟨cs, hvalue, rfl⟩ := hmember
    cases hrest with
    | nil =>
      have hlast : SpellsMembers [(member.1, member.2)] _ := .last hbefore hblank hvalue hafter
      rw [List.intercalate_singleton]
      simpa only [List.append_assoc, List.cons_append] using hlast
    | @cons next _ members parts hnext hrest =>
      have hmore : SpellsMembers ((member.1, member.2) :: _) _ :=
        .more hbefore hblank hvalue (ih (List.cons_ne_nil _ _))
      rw [List.intercalate_cons_cons]
      simpa only [List.append_assoc, List.cons_append] using hmore

theorem blank_lineStart (level : Nat) : Blank (lineStart level).toList := by
  intro c hc
  simp only [lineStart, String.toList_append, String.toList_ofList, List.mem_append] at hc
  rcases hc with hc | hc
  · obtain rfl : c = '\n' := by simpa using hc
    decide
  · obtain rfl : c = ' ' := List.eq_of_mem_replicate hc
    decide

/-! ## Strings and numbers -/

theorem spells_renderNumber {n : JsonNumber} (h : whole (.number n) = true) :
    Spells (.number n) (renderNumber n).toList := by
  cases n with
  | natural n =>
    rw [renderNumber, Nat.toString_eq_ofList_toDigits, String.toList_ofList]
    exact .natural (by simpa [whole] using h)
  | negative magnitude =>
    simp only [whole, Bool.and_eq_true, decide_eq_true_eq] at h
    rw [renderNumber, String.toList_append, Nat.toString_eq_ofList_toDigits]
    simpa using Spells.negative h.1 h.2
  | real bits => simp [whole] at h

theorem toList_renderString (text : String) :
    (renderString text).toList = '"' :: (text.toList.flatMap escape ++ ['"']) := by
  simp [renderString]

/-! ## Compact form -/

mutual

/-- The compact text of a value spells it. -/
theorem spells_render : ∀ (v : Json), v.whole = true → Spells v (render v).toList
  | .null, _ => .nullLiteral
  | .bool true, _ => .trueLiteral
  | .bool false, _ => .falseLiteral
  | .number n, h => spells_renderNumber h
  | .string text, _ => by
    rw [render, toList_renderString]
    exact .string text
  | .array [], _ => .noItems
  | .array (item :: items), h => by
    have hparts := spells_renderItems (item :: items) h
    have hnone : Blank [] := by simp [Blank]
    have hspells := spellsItems_intercalate hparts (List.cons_ne_nil _ _) hnone hnone
    simp only [render, String.toList_append, String.toList_intercalate]
    simpa using Spells.array hspells
  | .object [], _ => .noMembers
  | .object (member :: members), h => by
    have hparts := spells_renderMembers (member :: members) h
    have hnone : Blank [] := by simp [Blank]
    have hspells := spellsMembers_intercalate hparts (List.cons_ne_nil _ _) hnone hnone hnone
    simp only [render, String.toList_append, String.toList_intercalate]
    simpa using Spells.object hspells
  | .unrepresentable, h => by simp [whole] at h

theorem spells_renderItems : ∀ (items : List Json), wholeItems items = true →
    List.Forall₂ Spells items ((renderItems items).map String.toList)
  | [], _ => .nil
  | item :: items, h => by
    rw [wholeItems, Bool.and_eq_true] at h
    exact .cons (spells_render item h.1) (spells_renderItems items h.2)

theorem spells_renderMembers : ∀ (members : List (String × Json)), wholeMembers members = true →
    List.Forall₂ (SpellsMember []) members ((renderMembers members).map String.toList)
  | [], _ => .nil
  | (key, value) :: members, h => by
    rw [wholeMembers, Bool.and_eq_true] at h
    refine .cons ⟨_, spells_render value h.1, ?_⟩ (spells_renderMembers members h.2)
    simp [toList_renderString]

end

/-! ## Indented form -/

mutual

/-- The indented text of a value spells it, at whatever level it is written. -/
theorem spells_renderIndented (level : Nat) :
    ∀ (v : Json), v.whole = true → Spells v (renderIndented level v).toList
  | .array [], _ => by simpa [renderIndented, indentItems, layOut] using Spells.noItems
  | .array (item :: items), h => by
    have hparts := spells_indentItems (level + 1) (item :: items) h
    have hspells := spellsItems_intercalate hparts (List.cons_ne_nil _ _)
      (blank_lineStart (level + 1)) (blank_lineStart level)
    simp only [renderIndented, indentItems, layOut, String.toList_append, String.toList_intercalate]
    simpa [indentItems] using Spells.array hspells
  | .object [], _ => by simpa [renderIndented, indentMembers, layOut] using Spells.noMembers
  | .object (member :: members), h => by
    have hparts := spells_indentMembers (level + 1) (member :: members) h
    have hspells := spellsMembers_intercalate hparts (List.cons_ne_nil _ _)
      (blank_lineStart (level + 1)) (by simp [Blank, isSpace]) (blank_lineStart level)
    simp only [renderIndented, indentMembers, layOut, String.toList_append,
      String.toList_intercalate]
    simpa [indentMembers] using Spells.object hspells
  | .null, h => spells_render _ h
  | .bool _, h => spells_render _ h
  | .number _, h => spells_render _ h
  | .string _, h => spells_render _ h
  | .unrepresentable, h => spells_render _ h

theorem spells_indentItems (level : Nat) : ∀ (items : List Json), wholeItems items = true →
    List.Forall₂ Spells items ((indentItems level items).map String.toList)
  | [], _ => .nil
  | item :: items, h => by
    rw [wholeItems, Bool.and_eq_true] at h
    exact .cons (spells_renderIndented level item h.1) (spells_indentItems level items h.2)

theorem spells_indentMembers (level : Nat) : ∀ (members : List (String × Json)),
    wholeMembers members = true →
      List.Forall₂ (SpellsMember [' ']) members ((indentMembers level members).map String.toList)
  | [], _ => .nil
  | (key, value) :: members, h => by
    rw [wholeMembers, Bool.and_eq_true] at h
    refine .cons ⟨_, spells_renderIndented level value h.1, ?_⟩
      (spells_indentMembers level members h.2)
    simp [toList_renderString]

end

/-! ## Both forms are read back -/

theorem read?_renderPretty_append {v : Json} (h : v.whole = true) {after : String}
    (hafter : Blank after.toList) : read? (v.renderPretty ++ after) = some v := by
  rw [read?, String.toList_append]
  exact (spells_renderIndented 0 v h).readChars?_append hafter

end NaturalDeduction.Json
