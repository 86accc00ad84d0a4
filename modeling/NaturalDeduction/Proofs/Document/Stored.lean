/-
  The document of a stored proof.

  A document keeps what a proof says, and nothing of what verification found.
  The document of a well-formed proof is valid. Loading a valid document gives
  a proof with this document, in which premises are listed the way a stored
  proof lists them: in order, and each once.
-/

import Mathlib.Data.List.Sort
import NaturalDeduction.Proofs.Store.Preservation

namespace NaturalDeduction

/-- A list of premises in the order in which stored proofs list them. -/
def LineRecord.Ordered (record : LineRecord) : Prop :=
  record.premises.Pairwise (· < ·)

instance (record : LineRecord) : Decidable record.Ordered :=
  inferInstanceAs (Decidable (record.premises.Pairwise (· < ·)))

/-- The record with its premises in order, and each once. -/
def LineRecord.sorted (record : LineRecord) : LineRecord :=
  { record with premises := Ascending.ofList record.premises }

/-- The document with the premises of every line in order, and each once. -/
def Document.sorted (document : Document) : Document :=
  { document with lines := document.lines.map LineRecord.sorted }

theorem LineRecord.Ordered.sorted_eq {record : LineRecord} (h : record.Ordered) :
    record.sorted = record := by
  have hpremises : Ascending.ofList record.premises = record.premises :=
    (Ascending.pairwise_ofList _).eq_of_mem_iff h fun _ => Ascending.mem_ofList
  rw [LineRecord.sorted, hpremises]

theorem Document.sorted_eq {document : Document}
    (h : ∀ record ∈ document.lines, record.Ordered) : document.sorted = document := by
  have hlines : document.lines.map LineRecord.sorted = document.lines :=
    (List.map_congr_left fun record hrecord => (h record hrecord).sorted_eq).trans (List.map_id _)
  rw [Document.sorted, hlines]

namespace Proof

variable {p q : Proof} {document : Document}

/-! ## Only the content matters -/

theorem document_content (p : Proof) : p.content.document = p.document := by
  simp only [document, content, List.map_map]
  rfl

theorem document_eq_of_content_eq (h : q.content = p.content) : q.document = p.document := by
  rw [← document_content q, h, document_content]

/-! ## The document of a well-formed proof -/

theorem getElem?_lines_document (p : Proof) (index : Nat) :
    p.document.lines[index]? = p.lines[index]?.map p.record :=
  List.getElem?_map

theorem WellFormedLines.layout_document (hp : WellFormedLines p) :
    p.document.layout = p.layout := by
  rw [hp.layout_eq, Document.layout, document, List.map_map]
  rfl

theorem pairwise_premiseNumbers (p : Proof) (line : Line) :
    (p.premiseNumbers line).Pairwise (· < ·) :=
  Ascending.pairwise_ofList _

theorem ordered_of_mem_document {record : LineRecord} (h : record ∈ p.document.lines) :
    record.Ordered := by
  obtain ⟨line, -, rfl⟩ := List.mem_map.1 h
  exact pairwise_premiseNumbers p line

/-- The document of a well-formed proof is valid. -/
theorem WellFormedLines.validate_document (hp : WellFormedLines p) :
    p.document.validate = .ok () := by
  refine Document.validate_eq_ok_iff.2 ⟨rfl, hp.layout_document ▸ hp.valid, ?_⟩
  intro index record hrecord
  rw [getElem?_lines_document, Option.map_eq_some_iff] at hrecord
  obtain ⟨line, hline, rfl⟩ := hrecord
  constructor
  · intro hassumption
    have hpremises := hp.premises_eq_nil (List.mem_of_getElem? hline) hassumption
    simp [record, premiseNumbers, hpremises, Ascending.ofList]
  · intro cited hcited
    obtain ⟨id, hid, hposition⟩ := mem_premiseNumbers.1 hcited
    obtain ⟨premise, hpremise, haccessible⟩ := hp.premise_accessible index line hline id hid
    obtain rfl : cited = premise := by simpa [hposition] using hpremise
    rwa [hp.layout_document]

/-! ## Loading -/

theorem wellFormed_ofDocument (h : ofDocument document = .ok p) : WellFormed p :=
  .initial (.loaded h)

/-- A loaded line cites the lines that its record cites. -/
theorem premiseNumbers_ofRecord (h : ofDocument document = .ok p) {index : Nat}
    {record : LineRecord} (hrecord : document.lines[index]? = some record) :
    p.premiseNumbers (ofRecord index record) = Ascending.ofList record.premises := by
  have hp := wellFormed_ofDocument h
  obtain ⟨hvalid, hproof⟩ := ofDocument_eq_ok_iff.1 h
  obtain ⟨-, -, hrecords⟩ := Document.validate_eq_ok_iff.1 hvalid
  -- The line at position `n` has the identity `n + 1`.
  have hposition : ∀ premise ∈ record.premises, p.position? (premise + 1) = some premise := by
    intro premise hpremise
    have hlt := Layout.lt_of_isAccessible ((hrecords index record hrecord).2 premise hpremise)
    have hindex := (List.getElem?_eq_some_iff.1 hrecord).1
    rw [hp.position_iff, ← hproof]
    simp only [lineId?, List.getElem?_mapIdx,
      List.getElem?_eq_getElem (Nat.lt_trans hlt hindex)]
    rfl
  have hsorted := Ascending.pairwise_ofList record.premises
  refine (pairwise_premiseNumbers p _).eq_of_mem_iff hsorted fun cited => ?_
  rw [mem_premiseNumbers, Ascending.mem_ofList]
  simp only [ofRecord, Ascending.mem_ofList, List.mem_map]
  constructor
  · rintro ⟨_, ⟨premise, hpremise, rfl⟩, hcited⟩
    obtain rfl : premise = cited := by simpa [hposition premise hpremise] using hcited
    exact hpremise
  · intro hcited
    exact ⟨cited + 1, ⟨cited, hcited, rfl⟩, hposition cited hcited⟩

/-- A proof that was loaded from a document has this document, with premises in order. -/
theorem document_of_ofDocument (h : ofDocument document = .ok p) :
    p.document = document.sorted := by
  obtain ⟨hvalid, hproof⟩ := ofDocument_eq_ok_iff.1 h
  obtain ⟨hversion, -⟩ := Document.validate_eq_ok_iff.1 hvalid
  have hlines : p.lines.map p.record = document.lines.map LineRecord.sorted := by
    apply List.ext_getElem?
    intro index
    have hline : p.lines[index]? = (document.lines[index]?).map (ofRecord index) := by
      rw [← hproof, List.getElem?_mapIdx]
    rw [List.getElem?_map, hline, List.getElem?_map]
    cases hrecord : document.lines[index]? with
    | none => rfl
    | some record =>
      have hpremises := premiseNumbers_ofRecord h hrecord
      simp only [Option.map_some, Proof.record, hpremises]
      rfl
  have hgoals : p.goals.map Goal.text = document.goals := by
    apply List.ext_getElem?
    intro index
    rw [← hproof, List.getElem?_map, List.getElem?_mapIdx, Option.map_map]
    exact Option.map_id'
  have hrestriction : p.restriction = document.restriction := by rw [← hproof]
  rw [Proof.document, hlines, hgoals, hrestriction, ← hversion, Document.sorted]

/-- The document of a well-formed proof can be loaded, which gives a proof with the same
document. -/
theorem WellFormedLines.exists_ofDocument (hp : WellFormedLines p) :
    ∃ loaded, ofDocument p.document = .ok loaded ∧ loaded.document = p.document := by
  have hloaded := ofDocument_eq_ok_iff.2 ⟨hp.validate_document, rfl⟩
  refine ⟨_, hloaded, (document_of_ofDocument hloaded).trans ?_⟩
  exact Document.sorted_eq fun _ => ordered_of_mem_document

end Proof

end NaturalDeduction
