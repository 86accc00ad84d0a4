/-
  Which documents are valid.

  `validate` answers with the first error. Here the documents without any are
  described line by line: the rows are well nested, and every line cites only
  what it may cite, an assumption nothing.
-/

import NaturalDeduction.Document.Basic
import NaturalDeduction.Proofs.Layout.Subproof

namespace NaturalDeduction.Document

theorem premiseError?_eq_none_iff {layout : Layout} {line : Nat} {record : LineRecord} :
    premiseError? layout line record = none ↔
      (record.assumption = true → record.premises = []) ∧
        ∀ premise ∈ record.premises, layout.isAccessible premise line = true := by
  unfold premiseError?
  split
  · rename_i h
    simp_all
  · rename_i h
    simp only [Option.map_eq_none_iff, List.find?_eq_none, Bool.not_eq_true', Bool.not_eq_false]
    simp_all

theorem firstPremiseError?_eq_none_iff (layout : Layout) (line : Nat)
    (records : List LineRecord) :
    firstPremiseError? layout line records = none ↔
      ∀ index record, records[index]? = some record →
        premiseError? layout (line + index) record = none := by
  induction records generalizing line with
  | nil => simp [firstPremiseError?]
  | cons first records ih =>
    rw [firstPremiseError?, Option.or_eq_none_iff, ih]
    constructor
    · rintro ⟨hfirst, hrest⟩ index record hrecord
      cases index with
      | zero =>
        obtain rfl : first = record := by simpa using hrecord
        exact hfirst
      | succ index =>
        have := hrest index record (by simpa using hrecord)
        rwa [Nat.add_assoc, Nat.add_comm 1] at this
    · intro h
      refine ⟨h 0 first rfl, fun index record hrecord => ?_⟩
      have := h (index + 1) record (by simpa using hrecord)
      rwa [Nat.add_comm index, ← Nat.add_assoc] at this

/-- The valid documents. -/
theorem validate_eq_ok_iff {document : Document} :
    document.validate = .ok () ↔
      document.version = currentVersion ∧ document.layout.validate = .ok () ∧
        ∀ index record, document.lines[index]? = some record →
          (record.assumption = true → record.premises = []) ∧
            ∀ premise ∈ record.premises, document.layout.isAccessible premise index = true := by
  have hpremises := firstPremiseError?_eq_none_iff document.layout 0 document.lines
  simp only [Nat.zero_add, premiseError?_eq_none_iff] at hpremises
  rw [← hpremises]
  unfold validate
  by_cases hversion : document.version = currentVersion
  · cases hlayout : document.layout.validate with
    | error reason =>
      simp [hversion, Except.mapError, bind, Except.bind]
    | ok u =>
      cases hfirst : firstPremiseError? document.layout 0 document.lines <;>
        simp [hversion, Except.mapError, bind, Except.bind]
  · simp [hversion, bind, Except.bind]

end NaturalDeduction.Document
