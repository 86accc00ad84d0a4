/-
  What was decoded.

  Numbers are read as words and the restriction is read as a set, so whatever is
  read from a text as a document can be written down again.
-/

import NaturalDeduction.Proofs.Document.Encoding

namespace NaturalDeduction

/-! ## Plain values and fields -/

theorem Json.lt_of_asNatural {limit n : Nat} {json : Json} (h : json.asNatural limit = .ok n) :
    n < limit := by
  unfold asNatural at h
  split at h
  · split at h
    · rename_i hlt
      cases h
      exact hlt
    · cases h
  · cases h

/-- Every element of a list that was read was read. -/
theorem Json.exists_of_asList {α : Type} {decode : Json → Decoded α} {json : Json} {as : List α}
    (h : asList decode json = .ok as) {a : α} (ha : a ∈ as) : ∃ item, decode item = .ok a := by
  unfold asList at h
  split at h
  · obtain ⟨item, -, hitem⟩ := exists_of_mem_of_forall₂ (Except.mapM_eq_ok.1 h) ha
    exact ⟨item, hitem⟩
  · cases h

/-- A field that may be left out was read, or has its default. -/
theorem Json.Fields.eq_or_exists_of_optional {α : Type} {fields : Fields} {name : String}
    {default value : α} {decode : Json → Decoded α}
    (h : fields.optional name default decode = .ok value) :
    value = default ∨ ∃ json, decode json = .ok value := by
  unfold optional at h
  split at h
  · exact .inr ⟨_, h⟩
  · exact .inl (Except.ok.inj h).symm

/-! ## Lines and documents -/

theorem LineRecord.fits_of_decode {json : Json} {record : LineRecord}
    (h : decode json = .ok record) : record.Fits := by
  obtain ⟨fields, -, h⟩ := Except.bind_eq_ok.1 h
  obtain ⟨text, -, h⟩ := Except.bind_eq_ok.1 h
  obtain ⟨assumption, -, h⟩ := Except.bind_eq_ok.1 h
  obtain ⟨depth, hdepth, h⟩ := Except.bind_eq_ok.1 h
  obtain ⟨premises, hpremises, h⟩ := Except.bind_eq_ok.1 h
  obtain ⟨rule?, -, h⟩ := Except.bind_eq_ok.1 h
  cases h
  constructor
  · rcases Json.Fields.eq_or_exists_of_optional hdepth with rfl | ⟨json, hjson⟩
    · exact Word.limit_pos 64
    · exact Json.lt_of_asNatural hjson
  · intro premise hpremise
    rcases Json.Fields.eq_or_exists_of_optional hpremises with rfl | ⟨json, hjson⟩
    · cases hpremise
    · obtain ⟨item, hitem⟩ := Json.exists_of_asList hjson hpremise
      exact Json.lt_of_asNatural hitem

namespace Document

/-- The numbers of a document that was read fit their words, and its restriction is a set. -/
theorem fits_of_decode {json : Json} {document : Document} (h : decode json = .ok document) :
    document.Fits := by
  obtain ⟨fields, -, h⟩ := Except.bind_eq_ok.1 h
  obtain ⟨version, hversion, h⟩ := Except.bind_eq_ok.1 h
  obtain ⟨restriction, -, h⟩ := Except.bind_eq_ok.1 h
  obtain ⟨lines, hlines, h⟩ := Except.bind_eq_ok.1 h
  obtain ⟨goals, -, h⟩ := Except.bind_eq_ok.1 h
  cases h
  refine ⟨?_, Rule.setOf_setOf _, fun record hrecord => ?_⟩
  · unfold Json.Fields.required at hversion
    split at hversion
    · exact Json.lt_of_asNatural hversion
    · cases hversion
  · rcases Json.Fields.eq_or_exists_of_optional hlines with rfl | ⟨json, hjson⟩
    · cases hrecord
    · obtain ⟨item, hitem⟩ := Json.exists_of_asList hjson hrecord
      exact LineRecord.fits_of_decode hitem

theorem fits_of_ofText {text : String} {document : Document} (h : ofText text = .ok document) :
    document.Fits := by
  obtain ⟨read, hread, h⟩ := Except.bind_eq_ok.1 h
  obtain ⟨_, -, h⟩ := Except.bind_eq_ok.1 h
  cases h
  unfold Json.decodeText at hread
  split at hread
  · exact fits_of_decode (Except.mapError_eq_ok.1 hread)
  · cases hread

end Document

end NaturalDeduction
