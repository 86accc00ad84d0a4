/-
  Loading a document on machine words.

  Whatever numbers a document holds, checking it does not trap, and neither
  does loading it when it is valid: levels are compared with the row before,
  premises with the number of lines, and only what passed is looked up. The
  outcome is the proof of the document and the table of its rows, or the error
  that the document is refused with.
-/

import NaturalDeduction.Checker.Machine
import NaturalDeduction.Proofs.Document.Validity
import NaturalDeduction.Proofs.Layout.BlockTable
import NaturalDeduction.Proofs.Store.Tables

namespace NaturalDeduction.Machine

open Trapping

variable {document : Document}

/-! ## Checking a document -/

/-- The table of the rows, or the row that breaks the nesting. -/
theorem tableOf_eq_ok {layout : Layout} (h : layout.length < Word.limit 64) :
    tableOf layout =
      .ok ((layout.validate.mapError .structural).map fun _ => layout.blockTable) := by
  have hscan : BlockTable.firstMisplaced? 0 true 0 layout =
      .ok (Layout.firstMisplaced? 0 true 0 layout) :=
    BlockTable.firstMisplaced?_eq_ok (by omega)
  have hvalid : layout.validate = .ok () → BlockTable.ofRows layout = .ok layout.blockTable :=
    Layout.ofRows_eq_ok
  rw [tableOf, hscan]
  unfold Layout.validate at hvalid ⊢
  cases hmisplaced : Layout.firstMisplaced? 0 true 0 layout with
  | some index => rfl
  | none =>
    rw [hmisplaced] at hvalid
    simp only [bind, Except.bind, hvalid]
    rfl

theorem premiseError?_eq_ok (layout : Layout) (line : Nat) (record : LineRecord) :
    premiseError? layout.blockTable line record =
      .ok (Document.premiseError? layout line record) := by
  have hrefused : find? (fun premise => do return !(← layout.blockTable.isAccessible premise line))
      record.premises =
        .ok (record.premises.find? fun premise => !layout.isAccessible premise line) :=
    find?_eq_ok fun premise _ => by rw [Layout.isAccessible_eq_ok]; rfl
  rw [premiseError?, Document.premiseError?, hrefused]
  split <;> rfl

theorem firstPremiseError?_eq_ok (layout : Layout) (line : Nat) (records : List LineRecord) :
    firstPremiseError? layout.blockTable line records =
      .ok (Document.firstPremiseError? layout line records) := by
  induction records generalizing line with
  | nil => rfl
  | cons record records ih =>
    rw [firstPremiseError?, Document.firstPremiseError?, premiseError?_eq_ok]
    cases Document.premiseError? layout line record with
    | none => exact ih (line + 1)
    | some error => rfl

theorem length_layout (document : Document) : document.layout.length = document.lines.length :=
  List.length_map _

/-- Checking a document does not trap, whatever it holds. -/
theorem validate_eq_ok (h : document.lines.length < Word.limit 64) :
    validate document = .ok (document.validate.map fun _ => document.layout.blockTable) := by
  rw [validate, Document.validate, tableOf_eq_ok (by rwa [length_layout])]
  by_cases hversion : document.version = Document.currentVersion
  · rw [if_neg (not_not.2 hversion), if_neg (not_not.2 hversion)]
    cases document.layout.validate with
    | error reason => rfl
    | ok u =>
      simp only [bind, Except.bind, Except.mapError, Except.map, pure, Except.pure,
        firstPremiseError?_eq_ok]
      cases Document.firstPremiseError? document.layout 0 document.lines <;> rfl
  · rw [if_pos hversion, if_pos hversion]
    rfl

/-! ## Loading a valid document -/

/-- Identities are issued in order. -/
theorem issue_eq_ok {count next : Nat} (h : next + count < Word.limit 64) :
    issue count next = .ok (List.range' next count, next + count) := by
  induction count generalizing next with
  | zero => rfl
  | succ count ih =>
    rw [issue, sum_eq_ok (by omega)]
    simp only [bind, Except.bind]
    rw [ih (by omega), List.range'_succ, Nat.add_right_comm]
    rfl

/-- The identity of the line at a position, of so many lines. -/
theorem getElem?_range'_one {count index : Nat} (h : index < count) :
    (List.range' 1 count)[index]? = some (index + 1) := by
  rw [List.getElem?_range' h, Nat.one_mul, Nat.add_comm]

/-- The position of a line is found by its identity. -/
theorem lookup_mapIdx_range' {count index : Nat} (h : index < count) :
    ((List.range' 1 count).mapIdx fun index id => (id, index)).lookup (index + 1) =
      some index := by
  have hkeys : ((List.range' 1 count).mapIdx fun index id => (id, index)).map Prod.fst =
      List.range' 1 count := by
    apply List.ext_getElem?
    intro i
    cases hid : (List.range' 1 count)[i]? <;> simp [hid]
  rw [lookup_eq_some_iff_mem (by rw [hkeys]; exact List.nodup_range'), List.mem_iff_getElem?]
  exact ⟨index, by rw [List.getElem?_mapIdx, getElem?_range'_one h]; rfl⟩

/-- A record whose premises may be cited becomes its line. -/
theorem placeRecord_eq_ok {layout : Layout} {index : Nat} {record : LineRecord}
    (hindex : index < layout.length)
    (h : ∀ premise ∈ record.premises, layout.isAccessible premise index = true) :
    placeRecord layout.blockTable (List.range' 1 layout.length) index record =
      .ok (Proof.ofRecord index record) := by
  have hlt : ∀ premise ∈ record.premises, premise < layout.length := fun premise hpremise =>
    Nat.lt_trans (Layout.lt_of_isAccessible (h premise hpremise)) hindex
  have hcited : record.premises.mapM (lookUp (List.range' 1 layout.length)) =
      .ok (record.premises.map (· + 1)) :=
    mapM_eq_ok fun premise hpremise => lookUp_eq_ok (getElem?_range'_one (hlt premise hpremise))
  -- What a valid document cites is found and allowed, so nothing is dropped.
  have hkept : filter (mayCite layout.blockTable
      ((List.range' 1 layout.length).mapIdx fun index id => (id, index)) index)
        (record.premises.map (· + 1)) =
          .ok ((record.premises.map (· + 1)).filter fun _ => true) := by
    refine filter_eq_ok fun id hid => ?_
    obtain ⟨premise, hpremise, rfl⟩ := List.mem_map.1 hid
    rw [mayCite, lookup_mapIdx_range' (hlt premise hpremise), ← h premise hpremise]
    exact Layout.isAccessible_eq_ok premise index
  rw [List.filter_true] at hkept
  rw [placeRecord, lookUp_eq_ok (getElem?_range'_one hindex), hcited]
  simp only [bind, Except.bind, hkept]
  rfl

theorem placeRecords_eq_ok {layout : Layout} {index : Nat} {records : List LineRecord}
    (hlength : index + records.length ≤ layout.length)
    (h : ∀ offset record, records[offset]? = some record → ∀ premise ∈ record.premises,
      layout.isAccessible premise (index + offset) = true) :
    placeRecords layout.blockTable (List.range' 1 layout.length) index records =
      .ok (records.mapIdx fun offset record => Proof.ofRecord (index + offset) record) := by
  induction records generalizing index with
  | nil => rfl
  | cons record records ih =>
    rw [List.length_cons] at hlength
    have hfirst : placeRecord layout.blockTable (List.range' 1 layout.length) index record =
        .ok (Proof.ofRecord index record) :=
      placeRecord_eq_ok (by omega) (h 0 record rfl)
    rw [placeRecords, hfirst, ih (by omega) fun offset other hother => by
      rw [Nat.add_assoc, Nat.add_comm 1]
      exact h (offset + 1) other (by simpa using hother)]
    simp only [List.mapIdx_cons, Nat.add_assoc, Nat.add_comm 1]
    rfl

/-- Goals are numbered with their identities. -/
theorem zipWith_range'_eq (texts : List String) :
    (List.range' 1 texts.length).zipWith
        (fun id (entry : Nat × String) => { Goal.new id entry.1 with text := entry.2 })
        (texts.mapIdx fun number text => (number, text)) =
      texts.mapIdx Proof.goalOfText := by
  apply List.ext_getElem?
  intro index
  rw [List.getElem?_zipWith, List.getElem?_mapIdx, List.getElem?_mapIdx]
  cases htext : texts[index]? with
  | none => simp
  | some text =>
    rw [getElem?_range'_one (List.getElem?_eq_some_iff.1 htext).1]
    rfl

/-- Loading a document does not trap, whatever it holds. -/
theorem load_eq_ok (hlines : document.lines.length + 1 < Word.limit 64)
    (hgoals : document.goals.length + 1 < Word.limit 64) :
    load document =
      .ok ((Proof.ofDocument document).map fun proof => (proof, proof.layout.blockTable)) := by
  rw [load, Proof.ofDocument, validate_eq_ok (by omega)]
  cases hvalid : document.validate with
  | error error => rfl
  | ok u =>
    obtain ⟨-, -, hrecords⟩ := Document.validate_eq_ok_iff.1 hvalid
    have hplaced : placeRecords document.layout.blockTable
        (List.range' 1 document.layout.length) 0 document.lines = .ok
          (document.lines.mapIdx fun index record => Proof.ofRecord (0 + index) record) :=
      placeRecords_eq_ok (by rw [length_layout]; omega) fun index record hrecord => by
        rw [Nat.zero_add]
        exact (hrecords index record hrecord).2
    simp only [Nat.zero_add, length_layout] at hplaced
    simp only [bind, Except.bind, Except.map, issue_eq_ok (Nat.add_comm 1 _ ▸ hlines),
      issue_eq_ok (Nat.add_comm 1 _ ▸ hgoals), hplaced, zipWith_range'_eq, Nat.add_comm 1]
    rfl

end NaturalDeduction.Machine
