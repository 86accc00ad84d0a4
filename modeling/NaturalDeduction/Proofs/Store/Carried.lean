/-
  What a rearrangement carries over.

  When lines are put in or taken out where they are sealed, the other lines
  stay what they are: in their order, with their texts and rules, in the same
  subproofs, and citing what they cited except for the lines that are gone. A
  citation is dropped only when its line is, since rows that surround the edit
  may cite each other before it just when they may afterwards.
-/

import NaturalDeduction.Proofs.Layout.Edit
import NaturalDeduction.Proofs.Verdict.Moved

namespace NaturalDeduction

namespace Line

/-- The line without its position and what verification left on it. -/
def unplaced (line : Line) : Line :=
  { line.content with number := 0 }

/-- The line without citations of the lines `removed`. -/
def without (removed : List LineId) (line : Line) : Line :=
  { line with premises := line.premises.filter (· ∉ removed) }

@[simp] theorem id_unplaced (line : Line) : line.unplaced.id = line.id := rfl

@[simp] theorem id_without (removed : List LineId) (line : Line) :
    (line.without removed).id = line.id := rfl

end Line

namespace Proof

variable {p q arranged : Proof} {rows : Layout} {removed added : List LineId} {index : Nat}

/-- The line that opens the innermost subproof around a line. -/
def opener? (proof : Proof) (id : LineId) : Option LineId := do
  let index ← proof.position? id
  let opener ← proof.layout.enclosing? index
  proof.lineId? opener

/-- Every line of `p` but those `removed` is a line of `q`, where only the lines `added` are new.
They are in the same order as before, each with its identity, level, text and rule, each in the
same subproof, and each cites what it cited before except for the lines `removed`. -/
structure Carries (p q : Proof) (removed added : List LineId) : Prop where
  lines_eq : (q.lines.filter (·.id ∉ added)).map Line.unplaced =
    (p.lines.filter (·.id ∉ removed)).map fun line => (line.without removed).unplaced
  opener?_eq : ∀ line ∈ p.lines, line.id ∉ removed → q.opener? line.id = p.opener? line.id
  added_new : ∀ id ∈ added, id ∉ p.lines.map Line.id

/-! ## Only the content matters -/

theorem map_unplaced_of_content_eq (h : q.content = p.content) :
    q.lines.map Line.unplaced = p.lines.map Line.unplaced := by
  have hlines : q.lines.map Line.content = p.lines.map Line.content := congrArg lines h
  have hunplaced := congrArg (List.map fun line : Line => { line with number := 0 }) hlines
  rw [List.map_map, List.map_map] at hunplaced
  exact hunplaced

theorem layout_eq_of_content_eq (h : q.content = p.content) : q.layout = p.layout := by
  have hlayout := congrArg layout h
  exact hlayout

theorem opener?_eq_of_content_eq (h : q.content = p.content) : q.opener? = p.opener? := by
  have hpositions : q.content.positions = p.content.positions := congrArg positions h
  change q.positions = p.positions at hpositions
  funext id
  rw [opener?, opener?, position?, position?, hpositions, layout_eq_of_content_eq h,
    lineId?_eq_of_content_eq h]

/-- Filtering lines by their identities is filtering what they say. -/
theorem map_unplaced_filter (lines : List Line) (added : List LineId) :
    (lines.filter (·.id ∉ added)).map Line.unplaced =
      (lines.map Line.unplaced).filter (·.id ∉ added) := by
  rw [List.filter_map]
  rfl

/-! ## Lines put into place -/

/-- Lines of a proof that are put into place behind an edit, with rows that keep every subproof and
every citation among them. -/
structure Settles (p arranged : Proof) (rows : Layout) (removed added : List LineId) : Prop where
  filter_eq : arranged.lines.filter (·.id ∉ added) = p.lines.filter (·.id ∉ removed)
  mem : ∀ line ∈ arranged.lines, line ∈ p.lines ∨ line.premises = []
  removed_gone : ∀ id ∈ removed, id ∉ arranged.lines.map Line.id
  added_new : ∀ id ∈ added, id ∉ p.lines.map Line.id
  isAccessible_eq : ∀ {i i' j j'}, Matches p arranged i i' → Matches p arranged j j' →
    rows.isAccessible i' j' = p.layout.isAccessible i j
  opener_eq : ∀ {i i'}, Matches p arranged i i' →
    (rows.enclosing? i').bind arranged.lineId? = (p.layout.enclosing? i).bind p.lineId?

namespace Settles

variable (h : Settles p arranged rows removed added)
include h

/-- A line that is not removed stands somewhere afterwards. -/
theorem exists_matches {id : LineId} {i : Nat} (hi : p.lineId? i = some id) (hid : id ∉ removed) :
    ∃ i', arranged.lineId? i' = some id ∧ Matches p arranged i i' := by
  obtain ⟨line, hline, rfl⟩ := Option.map_eq_some_iff.1 hi
  have hkept : line ∈ p.lines.filter (·.id ∉ removed) :=
    List.mem_filter.2 ⟨List.mem_of_getElem? hline, by simpa using hid⟩
  rw [← h.filter_eq] at hkept
  obtain ⟨i', hi'⟩ := List.mem_iff_getElem?.1 (List.mem_filter.1 hkept).1
  have hat : arranged.lineId? i' = some line.id := by rw [lineId?, hi']; rfl
  exact ⟨i', hat, line.id, hi, hat⟩

variable (hp : WellFormedLines p) (hids : (arranged.lines.map Line.id).Nodup)
include hp hids

/-- A line keeps its citations of the lines that are not removed, and no others. -/
theorem keptPremises_eq {i' : Nat} {line : Line} (hline : arranged.lines[i']? = some line) :
    (arranged.indexed rows).keptPremises i' line = (line.without removed).premises := by
  have hposition : ∀ {id : LineId} {k : Nat}, (arranged.indexed rows).position? id = some k ↔
      arranged.lineId? k = some id := Positions.lookup_ofLines hids
  refine List.filter_congr fun id hid => ?_
  rcases h.mem line (List.mem_of_getElem? hline) with hold | hnone
  swap
  · rw [hnone] at hid
    cases hid
  obtain ⟨i, hi⟩ := List.mem_iff_getElem?.1 hold
  have hmatch : Matches p arranged i i' :=
    ⟨line.id, by rw [lineId?, hi]; rfl, by rw [lineId?, hline]; rfl⟩
  obtain ⟨premise, hpremise, haccessible⟩ := hp.premise_accessible i line hi id hid
  rw [hp.position_iff] at hpremise
  by_cases hremoved : id ∈ removed
  · -- A removed line has no position any more.
    have hnone : (arranged.indexed rows).position? id = none := by
      cases hfound : (arranged.indexed rows).position? id with
      | none => rfl
      | some k =>
        obtain ⟨other, hother, rfl⟩ := Option.map_eq_some_iff.1 (hposition.1 hfound)
        have hmem := List.mem_map_of_mem (f := Line.id) (List.mem_of_getElem? hother)
        exact absurd hmem (h.removed_gone _ hremoved)
    simp [hnone, hremoved]
  · obtain ⟨premise', hat, hcited⟩ := h.exists_matches hpremise hremoved
    rw [hposition.2 hat, Option.any_some]
    show rows.isAccessible premise' i' = _
    rw [h.isAccessible_eq hcited hmatch, haccessible]
    simp [hremoved]

theorem map_unplaced_placeAll : (arranged.placeAll rows).1.lines.map Line.unplaced =
    arranged.lines.map fun line => (line.without removed).unplaced := by
  apply List.ext_getElem?
  intro i'
  rw [List.getElem?_map, List.getElem?_map, getElem?_lines_placeAll, Option.map_map]
  cases hline : arranged.lines[i']? with
  | none => rfl
  | some line =>
    have hkept := h.keptPremises_eq hp hids hline
    rw [Option.map_some, Option.map_some, Function.comp_apply, place_fst, hkept]
    split
    · rename_i heq
      have hsame : line.without removed = line := calc
        line.without removed = { line with premises := (line.without removed).premises } := rfl
        _ = line := by rw [heq]
      rw [hsame]
      rfl
    · rfl

theorem opener?_placeAll {line : Line} (hmem : line ∈ p.lines) (hkept : line.id ∉ removed) :
    (arranged.placeAll rows).1.opener? line.id = p.opener? line.id := by
  obtain ⟨i, hi⟩ := List.mem_iff_getElem?.1 hmem
  have hat : p.lineId? i = some line.id := by rw [lineId?, hi]; rfl
  obtain ⟨i', hat', hmatch⟩ := h.exists_matches hat hkept
  have hposition : (arranged.placeAll rows).1.position? line.id = some i' :=
    (Positions.lookup_ofLines hids).2 hat'
  have hsame : (arranged.placeAll rows).1.lineId? = arranged.lineId? := by
    funext k
    rw [lineId?, getElem?_lines_placeAll, Option.map_map, lineId?]
    simp only [Function.comp_def, id_place]
  rw [opener?, opener?, hposition, (hp.position_iff _ _).2 hat, hsame]
  exact h.opener_eq hmatch

/-- Whatever verification leaves on the lines, they are carried over. -/
theorem carries (hq : q.content = (arranged.placeAll rows).1.content) :
    Carries p q removed added where
  lines_eq := by
    rw [map_unplaced_filter, map_unplaced_of_content_eq hq, h.map_unplaced_placeAll hp hids,
      List.filter_map, ← h.filter_eq]
    rfl
  opener?_eq := fun line hmem hkept => by
    rw [opener?_eq_of_content_eq hq]
    exact h.opener?_placeAll hp hids hmem hkept
  added_new := h.added_new

end Settles

end Proof

end NaturalDeduction
