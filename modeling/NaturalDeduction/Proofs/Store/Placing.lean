/-
  How lines are put into place.

  After lines were added or removed, `placeAll` gives every line its new
  number and drops the citations that are not allowed any more. A line that
  keeps all its citations keeps what it shows; one that loses a citation loses
  its mark and its checked claim as well.
-/

import NaturalDeduction.Proofs.Store.WellFormed

namespace NaturalDeduction

@[simp] theorem Line.setNumber_fst (number : Nat) (line : Line) :
    (line.setNumber number).1 = { line with number } := by
  unfold setNumber
  split
  · rename_i h
    rw [← h]
  · rfl

@[simp] theorem Line.setPremises_fst (premises : List LineId) (line : Line) :
    (line.setPremises premises).1 = { line with premises } := by
  unfold setPremises
  split
  · rename_i h
    rw [← h]
  · rfl

namespace Proof

variable {p : Proof} {rows : Layout}

/-! ## One line -/

/-- A line that keeps its citations is only moved; any other one is invalidated as well. -/
theorem place_fst (p : Proof) (index : Nat) (line : Line) :
    (p.place index line).1 =
      if p.keptPremises index line = line.premises then { line with number := index }
      else
        { line with
          number := index
          premises := p.keptPremises index line
          mark := .blank
          claim? := none } := by
  unfold place
  simp only
  split
  · rw [Line.setNumber_fst]
  · simp [Line.invalidate, Line.setMark]

theorem outline_place (p : Proof) (index : Nat) (line : Line) :
    (p.place index line).1.outline =
      { line.outline with number := index, premises := p.keptPremises index line } := by
  rw [place_fst]
  split
  · rename_i h
    rw [h]
    rfl
  · rfl

@[simp] theorem id_place (p : Proof) (index : Nat) (line : Line) :
    (p.place index line).1.id = line.id := by
  rw [place_fst]
  split <;> rfl

@[simp] theorem number_place (p : Proof) (index : Nat) (line : Line) :
    (p.place index line).1.number = index :=
  congrArg Line.number (outline_place p index line)

@[simp] theorem row_place (p : Proof) (index : Nat) (line : Line) :
    (p.place index line).1.row = line.row := by
  rw [place_fst]
  split <;> rfl

@[simp] theorem premises_place (p : Proof) (index : Nat) (line : Line) :
    (p.place index line).1.premises = p.keptPremises index line :=
  congrArg Line.premises (outline_place p index line)

theorem mem_keptPremises {index : Nat} {line : Line} {id : LineId} :
    id ∈ p.keptPremises index line ↔ id ∈ line.premises ∧
      ∃ premise, p.position? id = some premise ∧ p.layout.isAccessible premise index = true := by
  rw [keptPremises, List.mem_filter, Option.any_eq_true]

/-! ## All lines -/

/-- The proof in which lines are looked up while they are put into place. -/
def indexed (rows : Layout) (p : Proof) : Proof :=
  { p with layout := rows, positions := .ofLines p.lines }

theorem lines_placeAll (rows : Layout) (p : Proof) :
    (p.placeAll rows).1.lines =
      p.lines.mapIdx fun index line => ((p.indexed rows).place index line).1 := by
  simp only [placeAll, noting_fst, List.map_map, List.mapIdx_eq_zipIdx_map]
  rfl

theorem getElem?_lines_placeAll (rows : Layout) (p : Proof) (index : Nat) :
    (p.placeAll rows).1.lines[index]? =
      p.lines[index]?.map fun line => ((p.indexed rows).place index line).1 := by
  rw [lines_placeAll, List.getElem?_mapIdx]

/-- Lines that are put into place keep whatever placing a single line keeps. -/
theorem map_lines_placeAll {α : Type} {f : Line → α}
    (h : ∀ index line, f ((p.indexed rows).place index line).1 = f line) :
    (p.placeAll rows).1.lines.map f = p.lines.map f := by
  apply List.ext_getElem?
  intro index
  rw [List.getElem?_map, List.getElem?_map, getElem?_lines_placeAll, Option.map_map]
  cases p.lines[index]? with
  | none => rfl
  | some line => exact congrArg some (h index line)

/-- Lines with rows that fit, put into place, form a well-formed proof. -/
theorem wellFormedLines_placeAll (hids : (p.lines.map Line.id).Nodup)
    (hlt : ∀ line ∈ p.lines, line.id < p.nextLine) (hrows : rows = p.lines.map Line.row)
    (hvalid : Layout.validate rows = .ok ())
    (hascending : ∀ line ∈ p.lines, line.premises.Pairwise (· < ·)) :
    WellFormedLines (p.placeAll rows).1 := by
  have hsame : (p.placeAll rows).1.lines.map Line.id = p.lines.map Line.id :=
    map_lines_placeAll (id_place _)
  -- Every placed line comes from the line at its position.
  have hline : ∀ {index : Nat} {placed : Line}, (p.placeAll rows).1.lines[index]? = some placed →
      ∃ line : Line, p.lines[index]? = some line ∧
        ((p.indexed rows).place index line).1 = placed := by
    intro index placed hplaced
    rwa [getElem?_lines_placeAll, Option.map_eq_some_iff] at hplaced
  have hmem : ∀ {placed : Line}, placed ∈ (p.placeAll rows).1.lines →
      ∃ index, ∃ line ∈ p.lines, ((p.indexed rows).place index line).1 = placed := by
    intro placed hplaced
    obtain ⟨index, hindex⟩ := List.mem_iff_getElem?.1 hplaced
    obtain ⟨line, hat, heq⟩ := hline hindex
    exact ⟨index, line, List.mem_of_getElem? hat, heq⟩
  refine ⟨hsame ▸ hids, ?_, ?_, ?_, ?_, hvalid, ?_, ?_, ?_, ?_⟩
  · intro placed hplaced
    obtain ⟨index, line, hmem', rfl⟩ := hmem hplaced
    rw [id_place]
    exact hlt line hmem'
  · intro id index
    have hid : (p.placeAll rows).1.lineId? index = p.lines[index]?.map Line.id := by
      have hat := congrArg (·[index]?) hsame
      simpa [lineId?] using hat
    rw [hid]
    exact Positions.lookup_ofLines hids
  · intro index placed hplaced
    obtain ⟨line, -, rfl⟩ := hline hplaced
    exact number_place _ index line
  · rw [map_lines_placeAll (row_place _)]
    exact hrows
  · intro index placed hplaced id hid
    obtain ⟨line, -, rfl⟩ := hline hplaced
    rw [premises_place] at hid
    exact (mem_keptPremises.1 hid).2
  · intro placed hplaced
    obtain ⟨index, line, hmem', rfl⟩ := hmem hplaced
    rw [premises_place]
    exact (hascending line hmem').filter _
  · exact fun id citer => Citations.mem_citing_ofLines
  · exact fun id => Citations.pairwise_citing_ofLines _ id

/-! ## Rearranged proofs -/

/-- What follows the placing of lines only drops marks. -/
theorem content_rearranged (before : List (LineId × List LineId)) (rows : Layout) (p : Proof) :
    (p.rearranged before rows).1.content = (p.placeAll rows).1.content := by
  simp only [rearranged, content_resetGoals, content_invalidateEach]

/-- Rearranging lines with rows that fit gives a well-formed proof. -/
theorem wellFormed_rearranged {before : List (LineId × List LineId)}
    (hids : (p.lines.map Line.id).Nodup) (hlt : ∀ line ∈ p.lines, line.id < p.nextLine)
    (hrows : rows = p.lines.map Line.row) (hvalid : Layout.validate rows = .ok ())
    (hascending : ∀ line ∈ p.lines, line.premises.Pairwise (· < ·)) (hgoals : WellFormedGoals p) :
    WellFormed (p.rearranged before rows).1 := by
  refine WellFormed.congr (outline_eq_of_content_eq (content_rearranged before rows p)) ?_
  exact ⟨wellFormedLines_placeAll hids hlt hrows hvalid hascending,
    WellFormedGoals.congr (p := p) rfl rfl hgoals⟩

theorem proof_insertLine (p : Proof) (index : Nat) (row : Row) :
    (p.insertLine index row).proof = (({ p with
      lines := p.lines.insertIdx index (Line.new p.nextLine index row)
      nextLine := p.nextLine + 1 } : Proof).rearranged p.subproofs
        (p.layout.insertIdx index row)).1 := by
  simp only [insertLine]

theorem proof_cutLines (p : Proof) (index : Nat) :
    (p.cutLines index).proof = (({ p with
      lines := p.lines.take index ++
        p.lines.drop (index + (p.layout.subproofRange index).length) } : Proof).rearranged
        p.subproofs (p.rowsWithout index)).1 := by
  simp only [cutLines]

end Proof

end NaturalDeduction
