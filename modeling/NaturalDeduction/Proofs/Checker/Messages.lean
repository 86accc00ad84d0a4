/-
  Messages that arrive.

  A message arrives in canonical form: its members are in the order of their
  keys, whatever the order was in which they were written. Fields are found by
  name, so every part of a message is read back from its canonical form. The
  parts are also ones that a frame can hold.
-/

import NaturalDeduction.Checker.Message
import NaturalDeduction.Proofs.Document.Encoding
import NaturalDeduction.Proofs.Json.Canonical

namespace NaturalDeduction

open Json

/-! ## Records in canonical form -/

namespace Json

variable {names : List String}

theorem firstRepeated?_eq_none (h : names.Nodup) : firstRepeated? names = none := by
  induction names with
  | nil => rfl
  | cons name names ih =>
    obtain ⟨hnot, hnodup⟩ := List.nodup_cons.1 h
    rw [firstRepeated?, if_neg (by simpa using hnot), ih hnodup]

theorem lookup_filter_of_mem {name : String} (h : name ∈ names) (members : List (String × Json)) :
    (members.filter fun (key, _) => names.contains key).lookup name = members.lookup name := by
  induction members with
  | nil => rfl
  | cons member members ih =>
    by_cases hkey : names.contains member.1
    · rw [List.filter_cons_of_pos (by exact hkey), lookup_cons_eq_ite, lookup_cons_eq_ite, ih]
    · have hne : name ≠ member.1 := by
        rintro rfl
        exact hkey (by simpa using h)
      rw [List.filter_cons_of_neg (by exact hkey), ih, lookup_cons_eq_ite, if_neg hne]

/-- A record is read from its canonical form, with the canonical forms of its fields. -/
theorem exists_asRecord_canonical (names : List String) (members : List (String × Json))
    (h : (members.map Prod.fst).Nodup) :
    ∃ fields : Fields, asRecord names (canonical (.object members)) = .ok fields ∧
      ∀ name ∈ names, fields.lookup name = (members.lookup name).map canonical := by
  let given := (canonicalMembers [] members).filter fun (key, _) => names.contains key
  have hnodup : (given.map Prod.fst).Nodup :=
    (sorted_canonicalMembers members).nodup_keys.sublist (List.filter_sublist.map _)
  refine ⟨given, ?_, fun name hname => ?_⟩
  · rw [canonical, asRecord, firstRepeated?_eq_none hnodup]
  · rw [lookup_filter_of_mem hname, lookup_canonicalMembers h, List.lookup_nil, Option.or_none]

theorem canonical_string (text : String) : canonical (.string text) = .string text := rfl

theorem canonical_bool (value : Bool) : canonical (.bool value) = .bool value := rfl

theorem canonical_natural (n : Nat) : canonical (.natural n) = .natural n := rfl

/-- A list is read from its canonical form when its elements are. -/
theorem asList_canonical {α : Type} {encode : α → Json} {decode : Json → Decoded α} {as : List α}
    (h : ∀ a ∈ as, decode (encode a).canonical = .ok a) :
    asList decode (canonical (.array (as.map encode))) = .ok as := by
  rw [canonical, canonicalItems_eq_map, List.map_map]
  exact asList_map h

/-- The items of a list are usable when the elements are. -/
theorem usableItems_map {α : Type} {depth : Nat} {encode : α → Json} {as : List α}
    (h : ∀ a ∈ as, (encode a).usable depth = true) : usableItems depth (as.map encode) = true :=
  usableItems_iff.2 (List.forall_mem_map.2 h)

end Json

/-! ## Lines -/

namespace LineRecord

theorem decode_canonical_encode {record : LineRecord} (h : record.Fits) :
    decode record.encode.canonical = .ok record := by
  obtain ⟨fields, hfields, hlookup⟩ := exists_asRecord_canonical
    ["text", "assumption", "depth", "premises", "rule"]
    [("text", .string record.text), ("assumption", .bool record.assumption),
      ("depth", .natural record.depth), ("premises", .array (record.premises.map Json.natural)),
      ("rule", (record.rule?.map Rule.encode).getD .null)] (by simp)
  have hdepth := asNatural_natural h.depth_lt
  have hpremises : asList (asNatural (Word.limit 64))
      (canonical (.array (record.premises.map Json.natural))) = .ok record.premises :=
    asList_canonical fun n hn => asNatural_natural (h.premise_lt n hn)
  have hrule : asOption Rule.decode (canonical ((record.rule?.map Rule.encode).getD .null)) =
      .ok record.rule? := by
    rw [← asOption_getD (fun rule => Json.noConfusion) Rule.decode_encode record.rule?]
    cases record.rule? <;> rfl
  rw [decode, encode, hfields]
  simp [Fields.required, Fields.optional, hlookup, List.lookup_cons, bind, Except.bind, pure,
    Except.pure, asText, asBool, canonical_string, canonical_bool, canonical_natural, hdepth,
    hpremises, hrule]

theorem usable_encode (record : LineRecord) (depth : Nat) :
    record.encode.usable (depth + 2) = true := by
  have hpremises : usableItems depth (record.premises.map Json.natural) = true :=
    usableItems_map fun _ _ => rfl
  have hrule : usable (depth + 1) ((record.rule?.map Rule.encode).getD .null) = true := by
    cases record.rule? <;> rfl
  simp [encode, usable, usableMembers, Json.natural, hpremises, hrule]

end LineRecord

/-! ## Documents -/

namespace Document

theorem decode_canonical_encode {document : Document} (h : document.Fits) :
    decode document.encode.canonical = .ok document := by
  obtain ⟨fields, hfields, hlookup⟩ := exists_asRecord_canonical
    ["version", "restricted_rules", "lines", "goals"]
    [("version", .natural document.version),
      ("restricted_rules", .array (document.restriction.map Rule.encode)),
      ("lines", .array (document.lines.map LineRecord.encode)),
      ("goals", .array (document.goals.map Json.string))] (by simp)
  have hversion := asNatural_natural h.version_lt
  have hrestriction : asList Rule.decode
      (canonical (.array (document.restriction.map Rule.encode))) = .ok document.restriction :=
    asList_canonical fun rule _ => rule.decode_encode
  have hlines : asList LineRecord.decode
      (canonical (.array (document.lines.map LineRecord.encode))) = .ok document.lines :=
    asList_canonical fun record hrecord =>
      LineRecord.decode_canonical_encode (h.lines record hrecord)
  have hgoals : asList asText (canonical (.array (document.goals.map Json.string))) =
      .ok document.goals := asList_canonical fun _ _ => rfl
  rw [decode, encode, hfields]
  simp [Fields.required, Fields.optional, hlookup, List.lookup_cons, bind, Except.bind, pure,
    Except.pure, canonical_natural, hversion, hrestriction, hlines, hgoals, h.setOf_restriction]

theorem usable_encode (document : Document) (depth : Nat) :
    document.encode.usable (depth + 4) = true := by
  have hrestriction : usableItems (depth + 2) (document.restriction.map Rule.encode) = true :=
    usableItems_map fun _ _ => rfl
  have hlines : usableItems (depth + 2) (document.lines.map LineRecord.encode) = true :=
    usableItems_map fun record _ => record.usable_encode depth
  have hgoals : usableItems (depth + 2) (document.goals.map Json.string) = true :=
    usableItems_map fun _ _ => rfl
  simp [encode, usable, usableMembers, Json.natural, hrestriction, hlines, hgoals]

end Document

/-! ## Requests -/

namespace Target

/-- The row that a target asks about. -/
def index : Target → Nat
  | line index => index
  | goal index => index

theorem decode_canonical_encode {target : Target} (h : target.index < Word.limit 64) :
    decode target.encode.canonical = .ok target := by
  cases target with
  | line index => exact congrArg (line <$> ·) (asNatural_natural h)
  | goal index => exact congrArg (goal <$> ·) (asNatural_natural h)

theorem whole_encode {target : Target} (h : target.index < Word.limit 64) :
    target.encode.whole = true := by
  cases target with
  | line index => exact Bool.and_eq_true_iff.2 ⟨whole_natural h, rfl⟩
  | goal index => exact Bool.and_eq_true_iff.2 ⟨whole_natural h, rfl⟩

theorem usable_encode (target : Target) (depth : Nat) :
    target.encode.usable (depth + 1) = true := by
  cases target <;> rfl

end Target

namespace CheckRequest

/-- The numbers of the request fit their words, and the restriction of its document is a set. -/
structure Fits (request : CheckRequest) : Prop where
  document : request.document.Fits
  index_lt : request.target.index < Word.limit 64

variable {request : CheckRequest}

theorem decode_canonical_encode (h : request.Fits) :
    decode request.encode.canonical = .ok request := by
  obtain ⟨fields, hfields, hlookup⟩ := exists_asRecord_canonical ["proof", "target"]
    [("proof", request.document.encode), ("target", request.target.encode)] (by simp)
  have hdocument := Document.decode_canonical_encode h.document
  have htarget := Target.decode_canonical_encode h.index_lt
  rw [decode, encode, hfields]
  simp [Fields.required, hlookup, List.lookup_cons, bind, Except.bind, pure, Except.pure,
    hdocument, htarget]

theorem whole_encode (h : request.Fits) : request.encode.whole = true := by
  simp [encode, whole, wholeMembers, Document.whole_encode h.document,
    Target.whole_encode h.index_lt]

theorem usable_encode (request : CheckRequest) (depth : Nat) :
    request.encode.usable (depth + 5) = true := by
  simp [encode, usable, usableMembers, request.document.usable_encode depth,
    request.target.usable_encode (depth + 3)]

end CheckRequest

/-! ## Calls -/

namespace Call

variable {id : Nat} {request : CheckRequest}

/-- A call arrives with its id, and with its parameters in canonical form. -/
theorem decode_canonical_encode (id : Nat) (request : CheckRequest) :
    decode (encode id request).canonical =
      .ok ⟨.natural id, checkMethod, request.encode.canonical⟩ := by
  obtain ⟨fields, hfields, hlookup⟩ := exists_asRecord_canonical ["id", "method", "params"]
    [("jsonrpc", .string protocolVersion), ("id", .natural id),
      ("method", .string checkMethod), ("params", request.encode)] (by simp)
  rw [decode, encode, hfields]
  simp [Fields.required, Fields.optional, hlookup, List.lookup_cons, bind, Except.bind, pure,
    Except.pure, asText, canonical_string, canonical_natural]

theorem whole_encode (hid : id < Word.limit 64) (h : request.Fits) :
    (encode id request).whole = true := by
  simp [encode, whole, wholeMembers, whole_natural hid, CheckRequest.whole_encode h]

theorem usable_encode (id : Nat) (request : CheckRequest) :
    (encode id request).usable maxDepth = true := by
  simp [encode, maxDepth, usable, usableMembers, Json.natural, request.usable_encode 121]

end Call

/-! ## Responses -/

namespace Response

/-- An optional part that is there is read as such. -/
theorem asOption_eq_some {α : Type} {decode : Json → Decoded α} {v : Json} {a : α}
    (hnull : v ≠ .null) (h : decode v = .ok a) : asOption decode v = .ok (some a) := by
  have hsome : asOption decode v = some <$> decode v := by
    rw [asOption]
    exact hnull
  rw [hsome, h]
  rfl

theorem decodeVerdict_canonical_encodeVerdict (verdict : Verdict) :
    decodeVerdict (encodeVerdict verdict).canonical = .ok verdict := by
  cases verdict with
  | valid => rfl
  | invalid message => rfl

/-- An error is read back when its code fits 64 bits. -/
theorem decodeError_canonical (code : Int) (message : String)
    (hlow : -(Word.limit 63 : Int) ≤ code) (hhigh : code < (Word.limit 63 : Int)) :
    decodeError (canonical (.object [("code", .integer code), ("message", .string message)])) =
      .ok (code, message) := by
  obtain ⟨fields, hfields, hlookup⟩ := exists_asRecord_canonical ["code", "message"]
    [("code", .integer code), ("message", .string message)] (by simp)
  have hcode : decodeCode (canonical (.integer code)) = .ok code := by
    cases code with
    | ofNat n => exact if_pos (Int.ofNat_lt.1 hhigh)
    | negSucc n => exact if_pos (by omega)
  rw [decodeError, hfields]
  simp [Fields.required, hlookup, List.lookup_cons, bind, Except.bind, pure, Except.pure, asText,
    canonical_string, hcode]

variable (id : Json)

theorem asOption_protocolVersion :
    asOption asText (.string protocolVersion) = .ok (some protocolVersion) := rfl

/-- A result arrives as such. -/
theorem decodeParts_result (verdict : Verdict) :
    decodeParts (encode ⟨id, .result verdict⟩).canonical =
      .ok (id.canonical, some verdict, none) := by
  obtain ⟨fields, hfields, hlookup⟩ := exists_asRecord_canonical
    ["jsonrpc", "id", "result", "error"]
    [("jsonrpc", .string protocolVersion), ("id", id),
      ("result", encodeVerdict verdict)] (by simp)
  have hresult : asOption decodeVerdict (encodeVerdict verdict).canonical = .ok (some verdict) :=
    asOption_eq_some (by cases verdict <;> exact Json.noConfusion)
      (decodeVerdict_canonical_encodeVerdict verdict)
  rw [decodeParts, encode, hfields]
  simp [Fields.optional, hlookup, List.lookup_cons, bind, Except.bind, pure, Except.pure,
    canonical_string, asOption_protocolVersion, hresult]

/-- An error arrives as such. -/
theorem decodeParts_error (code : Int) (message : String)
    (hlow : -(Word.limit 63 : Int) ≤ code) (hhigh : code < (Word.limit 63 : Int)) :
    decodeParts (encode ⟨id, .error code message⟩).canonical =
      .ok (id.canonical, none, some (code, message)) := by
  obtain ⟨fields, hfields, hlookup⟩ := exists_asRecord_canonical
    ["jsonrpc", "id", "result", "error"]
    [("jsonrpc", .string protocolVersion), ("id", id),
      ("error", .object [("code", .integer code), ("message", .string message)])] (by simp)
  have herror : asOption decodeError
      (canonical (.object [("code", .integer code), ("message", .string message)])) =
        .ok (some (code, message)) :=
    asOption_eq_some Json.noConfusion (decodeError_canonical code message hlow hhigh)
  rw [decodeParts, encode, hfields]
  simp [Fields.optional, hlookup, List.lookup_cons, bind, Except.bind, pure, Except.pure,
    canonical_string, asOption_protocolVersion, herror]

/-- An error is written with a whole number when its code fits 64 bits. -/
theorem whole_integer {code : Int} (hlow : -(Word.limit 63 : Int) ≤ code)
    (hhigh : code < (Word.limit 63 : Int)) : (Json.integer code).whole = true := by
  have hlimit : Word.limit 63 ≤ Word.limit 64 := by decide
  cases code with
  | ofNat n => exact whole_natural (Nat.lt_of_lt_of_le (Int.ofNat_lt.1 hhigh) hlimit)
  | negSucc n =>
    have hle : n + 1 ≤ Word.limit 63 := by omega
    exact Bool.and_eq_true_iff.2 ⟨decide_eq_true n.succ_pos, decide_eq_true hle⟩

theorem whole_encode_result {id : Json} (hid : id.whole = true) (verdict : Verdict) :
    (encode ⟨id, .result verdict⟩).whole = true := by
  cases verdict <;> simp [encode, encodeVerdict, whole, wholeMembers, hid]

theorem whole_encode_error {id : Json} (hid : id.whole = true) {code : Int} (message : String)
    (hlow : -(Word.limit 63 : Int) ≤ code) (hhigh : code < (Word.limit 63 : Int)) :
    (encode ⟨id, .error code message⟩).whole = true := by
  simp [encode, whole, wholeMembers, hid, whole_integer hlow hhigh]

theorem usable_encode {response : Response} (depth : Nat)
    (hid : response.id.usable (depth + 1) = true) :
    response.encode.usable (depth + 2) = true := by
  obtain ⟨id, body⟩ := response
  rcases body with (_ | message) | ⟨_ | n, message⟩ <;>
    simp_all [encode, encodeVerdict, usable, usableMembers, Json.integer, Json.natural]

end Response

end NaturalDeduction
