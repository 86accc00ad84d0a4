/-
  Saving and loading.

  What a proof is saved as is read back to its document, whatever its texts
  hold. The numbers in a document count lines, so they fit their words when the
  number of lines does; and its restriction is a set, as every operation that
  replaces it makes it one. Loading a document that anyone has written keeps
  everything in it but the order and the repeats of premises.
-/

import NaturalDeduction.Proof.View
import NaturalDeduction.Proofs.Document.Encoding
import NaturalDeduction.Proofs.Document.Stored
import NaturalDeduction.Proofs.Store.Identity

namespace NaturalDeduction.Proof

variable {setting : Setting} {p q : Proof} {events : List Event}

/-! ## The restriction of a proof -/

theorem restriction_eq_of_content_eq (h : q.content = p.content) :
    q.restriction = p.restriction := by
  have hrestriction := congrArg Proof.restriction h
  exact hrestriction

theorem restriction_rearranged (before : List (LineId × List LineId)) (rows : Layout) (p : Proof) :
    (p.rearranged before rows).1.restriction = p.restriction := by
  rw [restriction_eq_of_content_eq (content_rearranged before rows p)]
  rfl

/-- Every change leaves the restriction as it is, or puts a set of rules in its place. -/
theorem restriction_change (h : Change setting p q events) :
    q.restriction = p.restriction ∨ ∃ rules, q.restriction = Rule.setOf rules := by
  cases h with
  | verifyLine index => exact .inl (restriction_eq_of_content_eq (content_verifyLineAt _ _ _))
  | verifyGoal index => exact .inl (restriction_eq_of_content_eq (content_verifyGoalAt _ _ _))
  | insert index row hindex hvalid =>
    refine .inl ?_
    simp only [edited, proof_insertLine, restriction_rearranged]
  | remove index hindex hvalid =>
    refine .inl ?_
    simp only [edited, proof_cutLines, restriction_rearranged]
  | write index text line hline htext =>
    refine .inl ?_
    simp only [edited, writeLine]
    rw [restriction_eq_of_content_eq (content_resetGoals _),
      restriction_eq_of_content_eq (content_invalidateEach _ _)]
  | chooseRule index rule? line hline hrule =>
    refine .inl ?_
    simp only [edited, chooseRule]
    rw [restriction_eq_of_content_eq (content_verifyLineAt _ _ _),
      restriction_eq_of_content_eq (content_resetGoals _)]
  | toggle index premise line id hline hid hassumption haccessible =>
    refine .inl ?_
    simp only [edited, toggleCitation]
    rw [restriction_eq_of_content_eq (content_verifyLineAt _ _ _),
      restriction_eq_of_content_eq (content_resetGoals _)]
  | restrict rules => exact .inr ⟨rules, rfl⟩
  | addGoal index hindex => exact .inl rfl
  | removeGoal index hindex hcount => exact .inl rfl
  | writeGoal index text goal hgoal htext => exact .inl rfl
  | wait time => exact .inl rfl

/-- A restriction that is a set of rules stays one. -/
theorem setOf_restriction_run (setting : Setting) (operations : List Operation) {start : Proof}
    (hstart : WellFormed start) (h : Rule.setOf start.restriction = start.restriction) :
    Rule.setOf (start.run setting operations).1.restriction =
      (start.run setting operations).1.restriction := by
  refine (run_keep_proof (fun q => WellFormed q ∧ Rule.setOf q.restriction = q.restriction)
    (fun hq => ⟨hq.1.length_layout, hq.1.valid⟩) ?_ operations ⟨hstart, h⟩).2
  rintro p q events ⟨hp, hrestriction⟩ hchange
  refine ⟨hp.change hchange, ?_⟩
  rcases restriction_change hchange with heq | ⟨rules, heq⟩
  · rw [heq, hrestriction]
  · rw [heq, Rule.setOf_setOf]

/-! ## Loading what was saved -/

/-- A well-formed proof is loaded from what it is saved as. -/
theorem WellFormedLines.exists_ofText_toText (hp : WellFormedLines p)
    (hlength : p.lines.length < Word.limit 64)
    (hrestriction : Rule.setOf p.restriction = p.restriction) :
    ∃ loaded, ofText p.toText = .ok loaded ∧ loaded.document = p.document := by
  have hlines : p.document.lines.length = p.lines.length := List.length_map _
  have hvalid := hp.validate_document
  have hfits := Document.fits_of_validate hvalid (hlines ▸ hlength) hrestriction
  obtain ⟨loaded, hloaded, hdocument⟩ := hp.exists_ofDocument
  refine ⟨loaded, ?_, hdocument⟩
  rw [ofText, toText, Document.ofText_toText hfits hvalid]
  simp only [bind, Except.bind, hloaded, Except.mapError]

/-- Nothing is lost between a proof and its text. What a reachable proof is saved as can be
loaded, which gives a proof with the same document, and so the same text again. The text of any
valid document is read back to the document; and the proof loaded from a valid document has this
document, with the premises of each line in order and each once. The number of lines is that of a
list in memory, and a restriction is a set, listed in catalog order. -/
theorem saved_lossless :
    (∀ (setting : Setting) (start : Proof) (operations : List Operation), Initial start →
      Rule.setOf start.restriction = start.restriction →
      (start.run setting operations).1.lines.length < Word.limit 64 →
        ∃ loaded, ofText (start.run setting operations).1.toText = .ok loaded ∧
          loaded.document = (start.run setting operations).1.document ∧
          loaded.toText = (start.run setting operations).1.toText) ∧
    (∀ document : Document, document.validate = .ok () →
      document.lines.length < Word.limit 64 →
      Rule.setOf document.restriction = document.restriction →
        Document.ofText document.toText = .ok document) ∧
    ∀ document : Document, document.validate = .ok () →
      ∃ loaded, ofDocument document = .ok loaded ∧ loaded.document = document.sorted := by
  refine ⟨fun setting start operations hstart hrestriction hlength => ?_,
    fun document hvalid hlength hrestriction => ?_, fun document hvalid => ?_⟩
  · have hinitial := WellFormed.initial hstart
    have hp := (hinitial.run setting operations).1
    obtain ⟨loaded, hloaded, hdocument⟩ := hp.exists_ofText_toText hlength
      (setOf_restriction_run setting operations hinitial hrestriction)
    refine ⟨loaded, hloaded, hdocument, ?_⟩
    rw [toText, toText, hdocument]
  · exact Document.ofText_toText (Document.fits_of_validate hvalid hlength hrestriction) hvalid
  · have hloaded := ofDocument_eq_ok_iff.2 ⟨hvalid, rfl⟩
    exact ⟨_, hloaded, document_of_ofDocument hloaded⟩

/-- A line that cites another one twice, and whose text holds a quote, a control character and a
character beyond the first 65536. -/
def citedTwice : Document where
  version := 1
  restriction := [.reiteration]
  lines := [⟨"P", true, 0, [], none⟩, ⟨"\"\t😀", false, 0, [], none⟩,
    ⟨"P", false, 0, [1, 0, 1], some .reiteration⟩]
  goals := ["P"]

/-- A proof that was made by editing, and a document that lists premises out of order. -/
theorem saved_lossless_citedTwice :
    (∃ loaded, ofText ((Proof.new []).run {} [.addPremise, .setText 0 "\"\t😀"]).1.toText =
        .ok loaded ∧
      loaded.document = ((Proof.new []).run {} [.addPremise, .setText 0 "\"\t😀"]).1.document) ∧
    Document.ofText citedTwice.toText = .ok citedTwice ∧
    ∃ loaded, ofDocument citedTwice = .ok loaded ∧ loaded.document = citedTwice.sorted ∧
      citedTwice.sorted ≠ citedTwice := by
  obtain ⟨hreachable, hdocument, hloading⟩ := saved_lossless
  obtain ⟨loaded, hloaded, hsame, -⟩ := hreachable {} (.new [])
    [.addPremise, .setText 0 "\"\t😀"] (.new []) (by decide) (by decide)
  obtain ⟨other, hother, hsorted⟩ := hloading citedTwice (by decide)
  exact ⟨⟨loaded, hloaded, hsame⟩, hdocument citedTwice (by decide) (by decide) (by decide),
    other, hother, hsorted, by decide⟩

end NaturalDeduction.Proof
