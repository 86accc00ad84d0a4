/-
  Every valid document can be made by editing.

  The rows come first, as blank lines from the top to the bottom, then the
  text, the rule and the citations of one line after the other, and the goals
  at last. While the lines are filled in the rows do not change, so each
  citation is allowed when it is made. Conversely, nothing that editing leads
  to is invalid.
-/

import Mathlib.Data.List.Induction
import NaturalDeduction.Proofs.Document.Edits
import NaturalDeduction.Proofs.Store.Identity

namespace NaturalDeduction

/-- The place of the line in the subproof structure. -/
def LineRecord.row (record : LineRecord) : Row :=
  ⟨record.depth, record.assumption⟩

/-- Whether an operation edits the proof, rather than verifying something or waiting. -/
def Operation.isEdit : Operation → Bool
  | .verifyLine _ | .verifyGoal _ | .verifyAll | .advance _ => false
  | _ => true

namespace Proof

variable {setting : Setting} {start : Proof}

theorem run_append (setting : Setting) (p : Proof) (first more : List Operation) :
    (p.run setting (first ++ more)).1 = ((p.run setting first).1.run setting more).1 := by
  induction first generalizing p with
  | nil => rfl
  | cons operation first ih => exact ih _

theorem run_concat (setting : Setting) (start : Proof) (operations : List Operation)
    (operation : Operation) : (start.run setting (operations ++ [operation])).1 =
      ((start.run setting operations).1.attempt setting operation).1 := by
  rw [run_append]
  rfl

/-! ## Moments of a session -/

/-- The proof after the first `n` operations of a session. -/
def moment (setting : Setting) (start : Proof) (operations : List Operation) (n : Nat) : Proof :=
  (start.run setting (operations.take n)).1

theorem moment_length (setting : Setting) (start : Proof) (operations : List Operation) :
    moment setting start operations operations.length = (start.run setting operations).1 := by
  rw [moment, List.take_length]

theorem moment_append {operations : List Operation} {operation : Operation} {n : Nat}
    (h : n ≤ operations.length) :
    moment setting start (operations ++ [operation]) n = moment setting start operations n := by
  rw [moment, List.take_append_of_le_length h, moment]

/-! ## Documents that editing leads to -/

/-- Editing leads from a proof to one with the document. -/
def Builds (setting : Setting) (start : Proof) (document : Document) : Prop :=
  ∃ operations, (∀ operation ∈ operations, operation.isEdit = true) ∧
    (start.run setting operations).1.document = document

namespace Builds

variable {document result : Document}

theorem none (setting : Setting) (start : Proof) : Builds setting start start.document :=
  ⟨[], by simp, rfl⟩

/-- One edit more. -/
theorem edit (h : Builds setting start document) (hstart : WellFormed start)
    (operation : Operation) (hedit : operation.isEdit = true)
    (hresult : ∀ p, WellFormed p → p.document = document →
      (p.attempt setting operation).1.document = result) : Builds setting start result := by
  obtain ⟨operations, hedits, hdocument⟩ := h
  refine ⟨operations ++ [operation], ?_, ?_⟩
  · intro other hother
    rcases List.mem_append.1 hother with hother | hother
    · exact hedits other hother
    · rwa [List.mem_singleton.1 hother]
  · rw [run_append]
    exact hresult _ (hstart.run setting operations).1 hdocument

/-! ### The rows -/

/-- A blank line more, while there are only blank lines. -/
theorem line (h : Builds setting start document) (hstart : WellFormed start)
    (huncited : ∀ record ∈ document.lines, record.premises = []) {row : Row}
    (hvalid : Layout.validate (document.layout ++ [row]) = .ok ()) :
    Builds setting start { document with lines := document.lines ++ [blankRecord row] } := by
  refine h.edit hstart (.addLine document.lines.length row) rfl fun p hp hdocument => ?_
  subst hdocument
  exact document_addLine hp.toWellFormedLines huncited hvalid

/-- Well nested rows can be made one after the other. -/
theorem blankLines (document : Document)
    (h : Builds setting start { document with lines := [] }) (hstart : WellFormed start)
    {rows : Layout} (hvalid : rows.validate = .ok ()) :
    Builds setting start { document with lines := rows.map blankRecord } := by
  induction rows using List.reverseRecOn with
  | nil => exact h
  | append_singleton rows row ih =>
    have huncited : ∀ record ∈ rows.map blankRecord, record.premises = [] := by
      intro record hrecord
      obtain ⟨_, -, rfl⟩ := List.mem_map.1 hrecord
      rfl
    have hlayout : ({ document with lines := rows.map blankRecord } : Document).layout = rows := by
      rw [Document.layout, List.map_map]
      exact List.map_id rows
    rw [List.map_append]
    refine (ih (Layout.validate_of_append hvalid)).line hstart huncited ?_
    rw [hlayout]
    exact hvalid

/-! ### One line -/

variable {before after : List LineRecord} {record : LineRecord}

theorem modify_append_length {α : Type} (change : α → α) (before after : List α) (a : α) :
    (before ++ a :: after).modify before.length change = before ++ change a :: after := by
  induction before with
  | nil => rfl
  | cons b before ih => rw [List.cons_append, List.length_cons, List.modify_succ_cons, ih]; rfl

theorem text (h : Builds setting start { document with lines := before ++ record :: after })
    (hstart : WellFormed start) (text : String) :
    Builds setting start
      { document with lines := before ++ { record with text } :: after } := by
  refine h.edit hstart (.setText before.length text) rfl fun p hp hdocument => ?_
  rw [document_setText, hdocument, modify_append_length]

theorem rule (h : Builds setting start { document with lines := before ++ record :: after })
    (hstart : WellFormed start) (rule? : Option Rule) :
    Builds setting start
      { document with lines := before ++ { record with rule? } :: after } := by
  refine h.edit hstart (.setRule before.length rule?) rfl fun p hp hdocument => ?_
  rw [document_setRule, hdocument, modify_append_length]

/-- The layout does not depend on what lines say. -/
theorem layout_eq (document : Document) (before after : List LineRecord) (record : LineRecord) :
    ({ document with lines := before ++ record :: after } : Document).layout =
      before.map LineRecord.row ++ record.row :: after.map LineRecord.row := by
  rw [Document.layout, List.map_append]
  rfl

theorem insert_eq_cons {n : Nat} {ms : List Nat} (h : ∀ m ∈ ms, n < m) :
    Ascending.insert n ms = n :: ms := by
  cases ms with
  | nil => rfl
  | cons m ms => rw [Ascending.insert, if_pos (h m (.head _))]

/-- Premises are cited from the last to the first, so that each new one stands at the front. -/
theorem premises (h : Builds setting start
      { document with lines := before ++ { record with premises := [] } :: after })
    (hstart : WellFormed start) {premises : List Nat} (hordered : premises.Pairwise (· < ·))
    (haccessible : ∀ premise ∈ premises, Layout.isAccessible
      (before.map LineRecord.row ++ record.row :: after.map LineRecord.row)
      premise before.length = true) :
    Builds setting start
      { document with lines := before ++ { record with premises } :: after } := by
  induction premises with
  | nil => exact h
  | cons premise premises ih =>
    obtain ⟨hfirst, hordered⟩ := List.pairwise_cons.1 hordered
    obtain ⟨haccessible, hothers⟩ := List.forall_mem_cons.1 haccessible
    refine (ih hordered hothers).edit hstart (.togglePremise before.length premise) rfl
      fun p hp hdocument => ?_
    have hrecord : p.document.lines[before.length]? = some { record with premises } := by
      simp [hdocument]
    have hnew : premise ∉ premises := fun hmem => Nat.lt_irrefl _ (hfirst premise hmem)
    rw [document_togglePremise hp.toWellFormedLines hrecord hnew, hdocument,
      modify_append_length]
    · rw [insert_eq_cons hfirst]
    · rw [hdocument, layout_eq]
      exact haccessible

/-- A blank line is filled in. -/
theorem fill (h : Builds setting start
      { document with lines := before ++ blankRecord record.row :: after })
    (hstart : WellFormed start) (hordered : record.Ordered)
    (haccessible : ∀ premise ∈ record.premises, Layout.isAccessible
      (before.map LineRecord.row ++ record.row :: after.map LineRecord.row)
      premise before.length = true) :
    Builds setting start { document with lines := before ++ record :: after } :=
  ((h.text hstart record.text).rule hstart record.rule?).premises hstart hordered haccessible

/-- Blank lines are filled in from the top to the bottom. -/
theorem fillAll (document : Document) (before : List LineRecord) {after : List LineRecord}
    (h : Builds setting start { document with
      lines := before ++ after.map fun record => blankRecord record.row })
    (hstart : WellFormed start) (hordered : ∀ record ∈ after, record.Ordered)
    (haccessible : ∀ index record, after[index]? = some record → ∀ premise ∈ record.premises,
      Layout.isAccessible ((before ++ after).map LineRecord.row) premise (before.length + index) =
        true) :
    Builds setting start { document with lines := before ++ after } := by
  induction after generalizing before with
  | nil => exact h
  | cons first after ih =>
    obtain ⟨hfirst, hordered⟩ := List.forall_mem_cons.1 hordered
    -- The rows below are the same, blank or not.
    have hrows : (after.map fun record => blankRecord record.row).map LineRecord.row =
        after.map LineRecord.row := by
      rw [List.map_map]
      rfl
    have hfilled : Builds setting start { document with
        lines := before ++ first :: after.map fun record => blankRecord record.row } := by
      refine fill h hstart hfirst fun premise hpremise => ?_
      have := haccessible 0 first rfl premise hpremise
      rw [hrows]
      rwa [List.map_append] at this
    rw [List.append_cons] at hfilled ⊢
    refine ih _ hfilled hordered fun index record hrecord premise hpremise => ?_
    have := haccessible (index + 1) record (by simpa using hrecord) premise hpremise
    rw [← List.append_cons, List.length_append, List.length_singleton, Nat.add_assoc,
      Nat.add_comm 1]
    exact this

/-! ### The goals -/

/-- The last goal is filled in, and the next one is added behind it. -/
theorem goals (document : Document) (done : List String) {texts : List String}
    (h : Builds setting start { document with goals := done ++ [""] }) (hstart : WellFormed start)
    (hsome : texts ≠ []) : Builds setting start { document with goals := done ++ texts } := by
  induction texts generalizing done with
  | nil => exact absurd rfl hsome
  | cons text texts ih =>
    have hfilled : Builds setting start { document with goals := done ++ [text] } := by
      refine h.edit hstart (.setGoalText done.length text) rfl fun p hp hdocument => ?_
      rw [document_setGoalText, hdocument, modify_append_length]
    cases texts with
    | nil => exact hfilled
    | cons next texts =>
      have hadded : Builds setting start { document with goals := (done ++ [text]) ++ [""] } := by
        refine hfilled.edit hstart (.addGoal (done ++ [text]).length) rfl fun p hp hdocument => ?_
        rw [document_addGoal p (by rw [hdocument]), hdocument, List.insertIdx_length_self]
      rw [List.append_cons]
      exact ih _ hadded (List.cons_ne_nil _ _)

end Builds

/-! ## Every valid document -/

/-- Every valid document with a goal can be made by editing an empty proof. -/
theorem builds_of_validate {restriction : List Rule} {document : Document}
    (hgoals : document.goals ≠ [])
    (hrestriction : Rule.setOf document.restriction = document.restriction)
    (hordered : ∀ record ∈ document.lines, record.Ordered)
    (hvalid : document.validate = .ok ()) : Builds setting (.new restriction) document := by
  have hstart := wellFormed_new restriction
  obtain ⟨hversion, hlayout, hrecords⟩ := Document.validate_eq_ok_iff.1 hvalid
  have hrestricted : Builds setting (.new restriction)
      { document with lines := [], goals := [""] } := by
    refine (Builds.none setting _).edit hstart (.restrict document.restriction) rfl
      fun p hp hdocument => ?_
    rw [document_restrict, hdocument, hrestriction, hversion]
    rfl
  have hblank := Builds.blankLines { document with goals := [""] } hrestricted hstart hlayout
  have hfilled : Builds setting (.new restriction) { document with goals := [""] } := by
    refine Builds.fillAll { document with goals := [""] } [] ?_ hstart hordered ?_
    · rwa [Document.layout, List.map_map] at hblank
    · intro index record hrecord
      rw [List.length_nil, Nat.zero_add]
      exact (hrecords index record hrecord).2
  exact Builds.goals document [] hfilled hstart hgoals

/-- The valid documents are the documents of the proofs that editing leads to. -/
theorem validate_iff_exists_edits (setting : Setting) (restriction : List Rule)
    {document : Document} (hgoals : document.goals ≠ [])
    (hrestriction : Rule.setOf document.restriction = document.restriction)
    (hordered : ∀ record ∈ document.lines, record.Ordered) :
    document.validate = .ok () ↔ ∃ operations : List Operation,
      (∀ operation ∈ operations, operation.isEdit = true) ∧
        ((Proof.new restriction).run setting operations).1.document = document := by
  constructor
  · exact builds_of_validate hgoals hrestriction hordered
  · rintro ⟨operations, -, rfl⟩
    exact ((wellFormed_new restriction).run setting operations).1.validate_document

/-- A document with a conditional proof can be made by editing. -/
theorem validate_iff_exists_edits_conditionalProof :
    ∃ operations : List Operation, (∀ operation ∈ operations, operation.isEdit = true) ∧
      ((Proof.new []).run {} operations).1.document =
        { version := 1
          restriction := [.reiteration, .conditionalProof]
          lines := [⟨"P", true, 0, [], none⟩, ⟨"Q", true, 1, [], none⟩,
            ⟨"P", false, 1, [0], some .reiteration⟩,
            ⟨"Q → P", false, 0, [1], some .conditionalProof⟩]
          goals := ["Q → P"] } :=
  (validate_iff_exists_edits {} [] (by decide) (by decide) (by decide)).1 (by decide)

end Proof

end NaturalDeduction
