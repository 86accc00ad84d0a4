/-
  Rearranging lines keeps every condition.

  When lines are added or removed, a line shows its verdict as before only where
  it keeps all its citations and cites no subproof whose lines changed. Its
  premises are then the same as before, wherever they stand now.
-/

import NaturalDeduction.Proofs.Verdict.Moved

namespace NaturalDeduction.Proof

variable {p q : Proof} {index : Nat} {line : Line}

/-! ## What stays of a proof -/

/-- The lines of a proof, some of them taken out or new blank ones put in. -/
structure Arranges (p : Proof) (lines : List Line) : Prop where
  mem : ∀ line ∈ lines, line ∈ p.lines ∨
    (line.id ∉ p.lines.map Line.id ∧ line.mark = .blank ∧ line.claim? = none)
  order : (lines.map Line.id).Sublist (p.lines.map Line.id) ∨
    (p.lines.map Line.id).Sublist (lines.map Line.id)

namespace Arranges

variable {arranged : Proof} {rows : Layout} {i i' : Nat}

/-- The line that stands at matching positions was put into place as it was. -/
theorem exists_of_matches (h : Arranges p arranged.lines) (hp : WellFormedLines p)
    (hmatch : Matches p (arranged.placeAll rows).1 i i') :
    ∃ line, p.lines[i]? = some line ∧ arranged.lines[i']? = some line := by
  obtain ⟨id, hi, hi'⟩ := hmatch
  obtain ⟨line, hline, rfl⟩ := Option.map_eq_some_iff.1 hi
  rw [lineId?, getElem?_lines_placeAll, Option.map_map] at hi'
  obtain ⟨other, hother, hid⟩ := Option.map_eq_some_iff.1 hi'
  rw [Function.comp_apply, id_place] at hid
  have hmem := List.mem_of_getElem? hline
  -- A new line has an identity that no line of the proof has.
  rcases h.mem other (List.mem_of_getElem? hother) with hold | ⟨hnew, -⟩
  · obtain rfl := List.inj_on_of_nodup_map hp.ids_nodup hold hmem hid
    exact ⟨other, hline, hother⟩
  · exact absurd (hid ▸ List.mem_map_of_mem hmem) hnew

theorem moved (h : Arranges p arranged.lines) (hp : WellFormedLines p)
    (hq : WellFormedLines (arranged.placeAll rows).1) : Moved p (arranged.placeAll rows).1 := by
  have hids : (arranged.placeAll rows).1.lines.map Line.id = arranged.lines.map Line.id :=
    map_lines_placeAll (id_place _)
  have hsublist := h.order
  have hplaced : ∀ {i i'}, Matches p (arranged.placeAll rows).1 i i' →
      ∃ line, p.lines[i]? = some line ∧ (arranged.placeAll rows).1.lines[i']? =
        some ((arranged.indexed rows).place i' line).1 := by
    intro i i' hmatch
    obtain ⟨line, hline, hother⟩ := h.exists_of_matches hp hmatch
    refine ⟨line, hline, ?_⟩
    rw [getElem?_lines_placeAll, hother, Option.map_some]
  refine ⟨fun {i j i' j'} hi hj => ?_, fun {i i'} hmatch => ?_, fun {i i'} hmatch => ?_⟩
  · obtain ⟨a, ha, ha'⟩ := hi
    obtain ⟨b, hb, hb'⟩ := hj
    rw [lineId?, ← List.getElem?_map] at ha ha' hb hb'
    rw [← hids] at hsublist
    -- The identities of one proof are part of those of the other, in the same order.
    rcases hsublist with hsub | hsub
    · exact (lt_iff_of_sublist hsub hp.ids_nodup ha' hb' ha hb).symm
    · exact lt_iff_of_sublist hsub hq.ids_nodup ha hb ha' hb'
  · obtain ⟨line, hline, hother⟩ := hplaced hmatch
    have htext : ((arranged.indexed rows).place i' line).1.text = line.text := by
      rw [place_fst]
      split <;> rfl
    rw [sentenceAt?, sentenceAt?, hline, hother, Option.bind_some, Option.bind_some,
      Line.sentence?, Line.sentence?, htext]
  · obtain ⟨line, hline, hother⟩ := hplaced hmatch
    rw [hq.layout_eq, hp.layout_eq, List.getElem?_map, List.getElem?_map, hline, hother,
      Option.map_some, Option.map_some, row_place]

/-- A new line is blank. -/
theorem insertIdx (hp : WellFormed p) (index : Nat) (row : Row) :
    Arranges p (p.lines.insertIdx index (Line.new p.nextLine index row)) := by
  refine ⟨fun line hline => ?_, .inr ?_⟩
  · rcases List.eq_or_mem_of_mem_insertIdx hline with rfl | hline
    · exact .inr ⟨hp.nextLine_not_mem, rfl, rfl⟩
    · exact .inl hline
  · rw [List.map_insertIdx]
    exact List.sublist_insertIdx _ _ _

theorem cut (p : Proof) (index count : Nat) :
    Arranges p (p.lines.take index ++ p.lines.drop (index + count)) :=
  have hsub := sublist_cut p.lines index count
  ⟨fun _ hline => .inl (hsub.subset hline), .inl (hsub.map Line.id)⟩

end Arranges

/-- What is well-formed at the end was so when the lines were in place. -/
theorem WellFormedLines.of_rearranged {before : List (LineId × List LineId)} {rows : Layout}
    (h : WellFormedLines (p.rearranged before rows).1) : WellFormedLines (p.placeAll rows).1 :=
  h.congr_outline (outline_eq_of_content_eq (content_rearranged before rows p).symm)

/-! ## Reshaped subproofs -/

theorem mem_subproofs {opener : LineId} {ids : List LineId} :
    (opener, ids) ∈ p.subproofs ↔ ∃ index, p.layout.opens index = true ∧
      p.lineId? index = some opener ∧ p.subproofIds index = ids := by
  rw [subproofs, List.mem_filterMap]
  constructor
  · rintro ⟨index, hindex, hentry⟩
    obtain ⟨id, hid, hpair⟩ := Option.bind_eq_some_iff.1 hentry
    cases hpair
    exact ⟨index, (List.mem_filter.1 hindex).2, hid, rfl⟩
  · rintro ⟨index, hopens, hid, rfl⟩
    obtain ⟨line, hline, -⟩ := Option.map_eq_some_iff.1 hid
    have hlt := (List.getElem?_eq_some_iff.1 hline).1
    exact ⟨index, List.mem_filter.2 ⟨List.mem_range.2 hlt, hopens⟩,
      Option.bind_eq_some_iff.2 ⟨opener, hid, rfl⟩⟩

/-- The subproof of an opener is looked up by the identity of the opener. -/
theorem lookup_subproofs_eq_some (hp : WellFormedLines p) {opener : LineId} {ids : List LineId} :
    p.subproofs.lookup opener = some ids ↔ ∃ index, p.layout.opens index = true ∧
      p.lineId? index = some opener ∧ p.subproofIds index = ids := by
  have hmem : ∀ {found}, p.subproofs.lookup opener = some found →
      (opener, found) ∈ p.subproofs := by
    intro found hfound
    obtain ⟨front, back, hsplit, -⟩ := List.lookup_eq_some_iff.1 hfound
    rw [hsplit]
    exact List.mem_append_right _ (.head _)
  refine ⟨fun h => mem_subproofs.1 (hmem h), fun ⟨index, hopens, hindex, hids⟩ => ?_⟩
  cases hlookup : p.subproofs.lookup opener with
  | none =>
    have hentry := mem_subproofs.2 ⟨index, hopens, hindex, hids⟩
    exact absurd (List.lookup_eq_none_iff.1 hlookup _ hentry) (by simp)
  | some found =>
    -- An identity stands at one position only.
    obtain ⟨other, -, hother, hfound⟩ := mem_subproofs.1 (hmem hlookup)
    rw [← hfound, ← hids, hp.eq_of_lineId? hother hindex]

/-- A line that cites no reshaped subproof cites subproofs with the same lines as before. -/
theorem subproofIds_eq_of_not_mem_citingReshaped (hp : WellFormedLines p)
    (hq : WellFormedLines q) (hmem : line ∈ q.lines)
    (hnot : line.id ∉ q.citingReshaped p.subproofs) {id : LineId} (hid : id ∈ line.premises)
    {cited cited' : Nat} (hat : p.lineId? cited = some id) (hat' : q.lineId? cited' = some id)
    (hopens : q.layout.opens cited' = true) : p.subproofIds cited = q.subproofIds cited' := by
  have hentry : (id, q.subproofIds cited') ∈ q.subproofs :=
    mem_subproofs.2 ⟨cited', hopens, hat', rfl⟩
  -- Otherwise the subproof would count as reshaped, and the line cites it.
  have hbefore : p.subproofs.lookup id = some (q.subproofIds cited') := by
    by_contra hne
    refine hnot (List.mem_flatMap.2 ⟨(id, q.subproofIds cited'), List.mem_filter.2 ⟨hentry, ?_⟩,
      (hq.id_mem_citing hmem id).2 hid⟩)
    simpa using hne
  obtain ⟨index, -, hindex, hids⟩ := (lookup_subproofs_eq_some hp).1 hbefore
  obtain rfl := hp.eq_of_lineId? hindex hat
  exact hids

/-! ## Conditions are kept -/

namespace Condition.Holds

variable {c : Condition}

/-- Rearranging lines blanks every line whose premises may have changed. -/
theorem rearranged (hp : c.Holds p) (hwell : WellFormedLines p) {arranged : Proof}
    {rows : Layout} (h : Arranges p arranged.lines)
    (hrestriction : arranged.restriction = p.restriction)
    (hplaced : WellFormedLines (arranged.placeAll rows).1) :
    c.Holds (arranged.rearranged p.subproofs rows).1 := by
  have hmoved := h.moved hwell hplaced
  simp only [Proof.rearranged]
  refine .of_invalidateEach hplaced fun j placed hline hnot => ?_
  have hat := hline
  rw [getElem?_lines_placeAll] at hat
  obtain ⟨line, harranged, hplace⟩ := Option.map_eq_some_iff.1 hat
  rw [place_fst] at hplace
  -- A line that lost a citation is blank, and so is a new one.
  split at hplace
  · rcases h.mem line (List.mem_of_getElem? harranged) with hold | ⟨-, hmark, hclaim⟩
    · subst hplace
      obtain ⟨i, hi⟩ := List.mem_iff_getElem?.1 hold
      refine c.congr_line (hp.line i line id hi) rfl rfl ?_ ?_
      · rw [show (arranged.placeAll rows).1.restriction = p.restriction from hrestriction]
        rfl
      · refine hmoved.premisesById_eq hwell hplaced hi hline rfl rfl ?_
        intro id hid cited cited' hcited hcited' hcase
        refine subproofIds_eq_of_not_mem_citingReshaped hwell hplaced
          (List.mem_of_getElem? hline) hnot hid hcited hcited' ?_
        rw [hmoved.opens_eq ⟨id, hcited, hcited'⟩]
        exact Layout.opens_of_isSubproofPremise hcase
    · subst hplace
      exact c.line_blank _ j hmark hclaim
  · subst hplace
    exact c.line_blank _ j rfl rfl

/-! ### Lines added and removed -/

theorem insertLine (hp : c.Holds p) (hwell : WellFormed p) {row : Row}
    (hplaced : WellFormed (p.insertLine index row).proof) :
    c.Holds (p.insertLine index row).proof := by
  have hplaced := hplaced.toWellFormedLines
  rw [proof_insertLine] at hplaced ⊢
  exact hp.rearranged hwell.toWellFormedLines (.insertIdx hwell index row) rfl
    hplaced.of_rearranged

theorem cutLines (hp : c.Holds p) (hwell : WellFormed p)
    (hplaced : WellFormed (p.cutLines index).proof) : c.Holds (p.cutLines index).proof := by
  have hplaced := hplaced.toWellFormedLines
  rw [proof_cutLines] at hplaced ⊢
  exact hp.rearranged hwell.toWellFormedLines (.cut p index _) rfl hplaced.of_rearranged

end Condition.Holds

end NaturalDeduction.Proof
