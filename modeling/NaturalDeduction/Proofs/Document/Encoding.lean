/-
  Decoding what was encoded.

  Every part of a document is read back from the value that it is written as: a
  list when its elements are, a record when its fields are. The restriction is
  read as a set and numbers are read as words, so a document comes back when its
  restriction is one and its numbers fit.
-/

import NaturalDeduction.Document.Encoding
import NaturalDeduction.Proofs.Document.Validity
import NaturalDeduction.Proofs.Json.RoundTrip
import NaturalDeduction.Proofs.Layout.Nesting
import NaturalDeduction.Proofs.Success

namespace NaturalDeduction

open Json

/-! ## Plain values -/

theorem Json.asNatural_natural {limit n : Nat} (h : n < limit) :
    (natural n).asNatural limit = .ok n := by
  simp [natural, asNatural, h]

/-- A list is read back when its elements are. -/
theorem Json.asList_map {α : Type} {encode : α → Json} {decode : Json → Decoded α} {as : List α}
    (h : ∀ a ∈ as, decode (encode a) = .ok a) :
    asList decode (.array (as.map encode)) = .ok as := by
  rw [asList, Except.mapM_eq_ok, List.forall₂_map_left_iff]
  exact List.forall₂_same.2 h

theorem Json.whole_natural {n : Nat} (h : n < Word.limit 64) : (natural n).whole = true :=
  decide_eq_true h

theorem Json.wholeItems_map {α : Type} {encode : α → Json} {as : List α}
    (h : ∀ a ∈ as, (encode a).whole = true) : wholeItems (as.map encode) = true := by
  induction as with
  | nil => rfl
  | cons a as ih =>
    rw [List.map_cons, wholeItems, h a List.mem_cons_self,
      ih fun other hother => h other (List.mem_cons_of_mem _ hother)]
    rfl

/-- The value of an optional part is read back when it is not written as `null`. -/
theorem Json.asOption_getD {α : Type} {encode : α → Json} {decode : Json → Decoded α}
    (hnull : ∀ a, encode a ≠ .null) (h : ∀ a, decode (encode a) = .ok a) (a? : Option α) :
    asOption decode ((a?.map encode).getD .null) = .ok a? := by
  cases a? with
  | none => rfl
  | some a =>
    have hsome : asOption decode (encode a) = some <$> decode (encode a) := by
      rw [asOption]
      exact fun h => hnull a h
    rw [Option.map_some, Option.getD_some, hsome, h]
    rfl

/-! ## Rules -/

namespace Rule

theorem ofIdentifier?_identifier (rule : Rule) : ofIdentifier? rule.identifier = some rule := by
  cases rule <;> rfl

theorem decode_encode (rule : Rule) : decode rule.encode = .ok rule := by
  rw [encode, decode, ofIdentifier, ofIdentifier?_identifier]

end Rule

/-! ## Lines -/

namespace LineRecord

/-- The numbers of the record fit 64 bits. -/
structure Fits (record : LineRecord) : Prop where
  depth_lt : record.depth < Word.limit 64
  premise_lt : ∀ premise ∈ record.premises, premise < Word.limit 64

theorem asRecord_encode (record : LineRecord) :
    record.encode.asRecord ["text", "assumption", "depth", "premises", "rule"] =
      .ok [("text", .string record.text), ("assumption", .bool record.assumption),
        ("depth", .natural record.depth), ("premises", .array (record.premises.map Json.natural)),
        ("rule", (record.rule?.map Rule.encode).getD .null)] := rfl

theorem decode_encode {record : LineRecord} (h : record.Fits) :
    decode record.encode = .ok record := by
  have hdepth := asNatural_natural h.depth_lt
  have hpremises : asList (asNatural (Word.limit 64)) (.array (record.premises.map Json.natural)) =
      .ok record.premises := asList_map fun n hn => asNatural_natural (h.premise_lt n hn)
  have hrule := asOption_getD (fun rule => Json.noConfusion) Rule.decode_encode record.rule?
  rw [decode, asRecord_encode]
  simp [Fields.required, Fields.optional, List.lookup_cons, bind, Except.bind, pure, Except.pure,
    asText, asBool, hdepth, hpremises, hrule]

theorem whole_encode {record : LineRecord} (h : record.Fits) : record.encode.whole = true := by
  have hdepth : whole (.natural record.depth) = true := whole_natural h.depth_lt
  have hpremises := wholeItems_map fun n hn => whole_natural (h.premise_lt n hn)
  have hrule : whole ((record.rule?.map Rule.encode).getD .null) = true := by
    cases record.rule? <;> rfl
  simp [encode, whole, wholeMembers, hdepth, hpremises, hrule]

end LineRecord

/-! ## Documents -/

namespace Document

/-- The document is one that can be written down: its numbers fit their words, and its restriction
is a set of rules. -/
structure Fits (document : Document) : Prop where
  version_lt : document.version < Word.limit 32
  setOf_restriction : Rule.setOf document.restriction = document.restriction
  lines : ∀ record ∈ document.lines, record.Fits

theorem asRecord_encode (document : Document) :
    document.encode.asRecord ["version", "restricted_rules", "lines", "goals"] =
      .ok [("version", .natural document.version),
        ("restricted_rules", .array (document.restriction.map Rule.encode)),
        ("lines", .array (document.lines.map LineRecord.encode)),
        ("goals", .array (document.goals.map Json.string))] := rfl

theorem decode_encode {document : Document} (h : document.Fits) :
    decode document.encode = .ok document := by
  have hversion := asNatural_natural h.version_lt
  have hrestriction : asList Rule.decode (.array (document.restriction.map Rule.encode)) =
      .ok document.restriction := asList_map fun rule _ => rule.decode_encode
  have hlines : asList LineRecord.decode (.array (document.lines.map LineRecord.encode)) =
      .ok document.lines :=
    asList_map fun record hrecord => LineRecord.decode_encode (h.lines record hrecord)
  have hgoals : asList asText (.array (document.goals.map Json.string)) = .ok document.goals :=
    asList_map fun _ _ => rfl
  rw [decode, asRecord_encode]
  simp [Fields.required, Fields.optional, List.lookup_cons, bind, Except.bind, pure, Except.pure,
    hversion, hrestriction, hlines, hgoals, h.setOf_restriction]

theorem whole_encode {document : Document} (h : document.Fits) :
    document.encode.whole = true := by
  have hlimit : Word.limit 32 ≤ Word.limit 64 := by decide
  have hversion := whole_natural (Nat.lt_of_lt_of_le h.version_lt hlimit)
  have hrestriction : wholeItems (document.restriction.map Rule.encode) = true :=
    wholeItems_map fun _ _ => rfl
  have hlines :=
    wholeItems_map fun record hrecord => LineRecord.whole_encode (h.lines record hrecord)
  have hgoals : wholeItems (document.goals.map Json.string) = true := wholeItems_map fun _ _ => rfl
  simp [encode, whole, wholeMembers, hversion, hrestriction, hlines, hgoals]

/-- The text of a document is decoded to the document, whatever white space follows. -/
theorem decodeText_toText_append {document : Document} (h : document.Fits) {after : String}
    (hafter : Blank after.toList) :
    decodeText decode (document.toText ++ after) = .ok document := by
  rw [decodeText, toText, read?_renderPretty_append (whole_encode h) hafter]
  exact decode_encode h

/-- A valid document is loaded from its text, whatever white space follows. -/
theorem ofText_toText_append {document : Document} (h : document.Fits)
    (hvalid : document.validate = .ok ()) {after : String} (hafter : Blank after.toList) :
    ofText (document.toText ++ after) = .ok document := by
  rw [ofText, decodeText_toText_append h hafter]
  simp only [Except.mapError, bind, Except.bind, hvalid]
  rfl

/-- A valid document is loaded from its text. -/
theorem ofText_toText {document : Document} (h : document.Fits)
    (hvalid : document.validate = .ok ()) : ofText document.toText = .ok document := by
  have hnone : Blank "".toList := fun _ hc => by cases hc
  have hread := ofText_toText_append h hvalid hnone
  rwa [String.append_empty] at hread

/-- The numbers of a valid document count its lines, so they fit when the number of lines does. -/
theorem fits_of_validate {document : Document} (hvalid : document.validate = .ok ())
    (hlength : document.lines.length < Word.limit 64)
    (hrestriction : Rule.setOf document.restriction = document.restriction) : document.Fits := by
  obtain ⟨hversion, hlayout, hrecords⟩ := validate_eq_ok_iff.1 hvalid
  refine ⟨hversion ▸ by decide, hrestriction, fun record hmem => ?_⟩
  obtain ⟨index, hrecord⟩ := List.mem_iff_getElem?.1 hmem
  have hindex := (List.getElem?_eq_some_iff.1 hrecord).1
  refine ⟨?_, fun premise hpremise => ?_⟩
  · have hlevel : document.layout.levelAt index = record.depth := by
      simp [layout, Layout.levelAt, hrecord]
    have hle := Layout.levelAt_le hlayout index
    omega
  · have hlt := Layout.lt_of_isAccessible ((hrecords index record hrecord).2 premise hpremise)
    omega

end Document

end NaturalDeduction
