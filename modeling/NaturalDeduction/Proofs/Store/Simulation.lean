/-
  The store does what the proof does.

  An operation on a store that represents a well-formed proof stops nowhere. It
  is refused for the reason for which the proof refuses it, or it gives the same
  answer and announces the same, and then the store represents the proof that
  the operation leads to. So it goes on with every operation after it.
-/

import NaturalDeduction.Proofs.Store.Performed
import NaturalDeduction.Proofs.Store.Represented
import NaturalDeduction.Proofs.Store.Structure

namespace NaturalDeduction.Store

open Trapping

variable {α β : Type} {setting : Setting} {store : Store} {p q : Proof} {index : Nat}

/-! ## Operations that come to the same -/

/-- What comes of an operation on a store is what comes of one on a proof. -/
inductive Follows : Trapping (Attempt α) → Proof.Attempt (NaturalDeduction.Outcome α) → Prop where
  | refused (reason : StructureError) : Follows (.ok (.error reason)) (.error reason)
  | done (outcome : NaturalDeduction.Outcome α) {after : Store}
      (h : after.Represents outcome.proof) :
    Follows (.ok (.ok ⟨outcome.answer, after, outcome.events⟩)) (.ok outcome)

theorem Follows.map {attempt : Trapping (Attempt α)}
    {other : Proof.Attempt (NaturalDeduction.Outcome α)} (f : α → β) (h : Follows attempt other) :
    Follows (do return (← attempt).map (Outcome.map f)) (do return (← other).map f) := by
  cases h with
  | refused reason => exact .refused reason
  | done outcome h => exact .done (outcome.map f) h

theorem Represents.edited (h : store.Represents p) :
    Represents { store with edits := store.edits + 1 } { p with edits := p.edits + 1 } := by
  cases h with
  | intro lines h => exact .intro lines h

theorem Represents.checkLine_eq (h : store.Represents p) (index : Nat) :
    store.checkLine index = p.checkLine index := by
  rw [checkLine, Proof.checkLine, h.length_order]

/-! ## Lines added -/

/-- The identity of the new line is a new one, so it stands apart in order and arena. -/
theorem Represents.withLine (h : store.Represents p) (hp : p.WellFormedLines) (row : Row)
    (hindex : index ≤ p.lines.length) :
    Represents
      { store with
        order := store.order.insertIdx index store.nextLine
        arena := store.arena.hold store.nextLine (Line.new store.nextLine index row)
        nextLine := store.nextLine + 1 }
      (p.withLine index row) := by
  have hnew := hp.nextLine_not_mem
  cases h with
  | intro lines h =>
    have hplace : index ≤ store.order.length := h.length_eq ▸ hindex
    have hnew' : (Line.new store.nextLine index row).id ∉ store.order := h.ids_eq ▸ hnew
    exact .intro _ (h.insertIdx hplace hnew')

/-- A line is added where its row fits, with the identity that is issued next. -/
theorem insertValid_eq_ok (h : store.Represents p) (hp : p.WellFormedLines) (row : Row)
    (hindex : index ≤ p.lines.length) :
    ∃ after, store.insertValid index (p.layout.insertIdx index row) =
        .ok ⟨(p.insertLine index row).answer, after, (p.insertLine index row).events⟩ ∧
      after.Represents (p.insertLine index row).proof := by
  have hlayout : index ≤ p.layout.length := hp.length_layout ▸ hindex
  have hrow : lookUp (p.layout.insertIdx index row) index = .ok row :=
    lookUp_eq_ok (by rw [List.getElem?_insertIdx_self, if_pos hlayout])
  have horder := insertAt_eq_ok store.nextLine (h.length_order ▸ hindex)
  have hbefore := subproofs_eq_ok h hp.length_layout
  have hnext : store.nextLine = p.nextLine := congrArg Proof.nextLine h.around_eq
  have hrows : (p.layout.insertIdx index row).length = (p.withLine index row).lines.length := by
    rw [Proof.withLine, List.length_insertIdx_of_le_length hlayout,
      List.length_insertIdx_of_le_length hindex, hp.length_layout]
  obtain ⟨after, hsettled, hafter⟩ :=
    rearranged_eq_ok p.subproofs (h.withLine hp row hindex) hrows
  rw [Proof.insertLine_eq]
  generalize (p.withLine index row).rearranged p.subproofs (p.layout.insertIdx index row) = settled
    at hsettled hafter ⊢
  refine ⟨after, ?_, hafter⟩
  simp only [insertValid, hbefore, hrow, horder, bind, Except.bind, hsettled, ← hnext]
  rfl

theorem insert_follows (h : store.Represents p) (hp : p.WellFormedLines) (index : Nat)
    (row : Row) : Follows (store.insert index row) (p.addLine index row) := by
  rw [insert, Proof.addLine, Proof.tryInsert, h.length_order, h.layout_eq]
  by_cases hindex : p.lines.length < index
  · simp only [if_pos hindex]
    exact .refused (.indexOutOfBounds index p.lines.length)
  · have hle : index ≤ p.lines.length := Nat.le_of_not_lt hindex
    simp only [if_neg hindex, bind, Except.bind, insertAt_eq_ok row (hp.length_layout ▸ hle)]
    cases Layout.validate (p.layout.insertIdx index row) with
    | error reason => exact .refused reason
    | ok _ =>
      obtain ⟨after, hinsert, hafter⟩ := insertValid_eq_ok h hp row hle
      simp only [hinsert]
      generalize p.insertLine index row = outcome at hafter ⊢
      exact .done (Proof.edited outcome) hafter.edited

/-- Where a premise is added there is always room for one. -/
theorem addPremise_eq_ok (h : store.Represents p) (hp : p.WellFormedLines) :
    ∃ after, store.addPremise = .ok ⟨p.addPremise.answer, after, p.addPremise.events⟩ ∧
      after.Represents p.addPremise.proof := by
  have hle : p.layout.premiseCount ≤ p.layout.length := Layout.premiseCount_le_length _
  have hvalid : (Layout.validate (p.layout.insertIdx p.layout.premiseCount ⟨0, true⟩)).isOk :=
    congrArg Except.isOk (Layout.validate_insertIdx_premiseCount hp.valid)
  obtain ⟨after, hinsert, hafter⟩ := insertValid_eq_ok h hp ⟨0, true⟩ (hp.length_layout ▸ hle)
  rw [addPremise, h.layout_eq, Proof.addPremise]
  simp only [bind, Except.bind, insertAt_eq_ok _ hle, require_eq_ok hvalid, hinsert]
  generalize p.insertLine p.layout.premiseCount ⟨0, true⟩ = outcome at hafter ⊢
  exact ⟨_, rfl, hafter.edited⟩

theorem startSubproof_follows (h : store.Represents p) (hp : p.WellFormedLines) (index : Nat) :
    Follows (store.startSubproof index) (p.startSubproof index) := by
  rw [startSubproof, Proof.startSubproof, h.checkLine_eq, h.layout_eq]
  cases hcheck : p.checkLine index with
  | error reason => exact .refused reason
  | ok _ =>
    obtain ⟨row, hrow, -, hlevel, -⟩ :=
      Layout.lookUp_rows (hp.length_layout ▸ Proof.checkLine_eq_ok.1 hcheck)
    simp only [hrow, hlevel, bind, Except.bind]
    exact insert_follows h hp _ _

/-- A line in a subproof has a level above it. -/
theorem endSubproof_follows (h : store.Represents p) (hp : p.WellFormedLines) (index : Nat) :
    Follows (store.endSubproof index) (p.endSubproof index) := by
  rw [endSubproof, Proof.endSubproof, h.checkLine_eq, h.layout_eq]
  cases hcheck : p.checkLine index with
  | error reason => exact .refused reason
  | ok _ =>
    cases hend : p.layout.enclosingEnd index with
    | error reason =>
      simp only [bind, Except.bind]
      exact .refused reason
    | ok position =>
      obtain ⟨row, hrow, -, hlevel, -⟩ :=
        Layout.lookUp_rows (hp.length_layout ▸ Proof.checkLine_eq_ok.1 hcheck)
      have hpos : 1 ≤ row.level := by
        refine Nat.one_le_iff_ne_zero.2 fun hzero => ?_
        rw [Layout.enclosingEnd, Layout.home?_eq_none_of_levelAt (hlevel.trans hzero)] at hend
        cases hend
      simp only [hrow, difference_eq_ok hpos, hlevel, bind, Except.bind]
      exact insert_follows h hp _ _

/-! ## Lines removed -/

/-- The identities of the lines taken out are drained from the order. -/
theorem Represents.drain_order (h : store.Represents p)
    (hstop : index + (p.layout.subproofRange index).length ≤ p.lines.length) :
    drain store.order index (index + (p.layout.subproofRange index).length) =
      .ok (p.deleted index, store.order.take index ++
        store.order.drop (index + (p.layout.subproofRange index).length)) := by
  rw [drain_eq_ok (Nat.le_add_right _ _) (h.length_order ▸ hstop), Proof.deleted_eq,
    List.drop_take, Nat.add_sub_cancel_left]
  cases h with
  | intro lines h => rw [← h.ids_eq, ← List.map_drop, ← List.map_take]; rfl

/-- The lines that are left after the others were taken out of order and arena. -/
theorem Represents.withoutLines (h : store.Represents p) (index : Nat) (citations : Citations) :
    Represents
      { store with
        order := store.order.take index ++
          store.order.drop (index + (p.layout.subproofRange index).length)
        arena := store.arena.releaseAll (p.deleted index)
        citations }
      { p.withoutLines index with citations } := by
  rw [Proof.deleted_eq]
  cases h with
  | intro lines h =>
    -- The lines in three parts, the middle one of which is taken out.
    have hparts : store.arena.Holds store.order (lines.take index ++
        (lines.drop index).take (store.layout.subproofRange index).length ++
        lines.drop (index + (store.layout.subproofRange index).length)) := by
      rwa [Proof.take_append_drop_append]
    have hleft := hparts.releaseAll
    refine .intro _ ?_
    simp only [← h.ids_eq, List.map_take, List.map_drop] at hleft ⊢
    exact hleft

/-- What is noted of citations makes no difference when lines are put into place. -/
theorem rearranged_with_citations (before : List (LineId × List LineId)) (rows : Layout) (p : Proof)
    (citations : Citations) :
    Proof.rearranged before rows { p with citations } = p.rearranged before rows := by
  have hplaced : Proof.placeAll rows { p with citations } = p.placeAll rows := rfl
  rw [Proof.rearranged, hplaced, Proof.rearranged]

theorem delete_follows (h : store.Represents p) (hp : p.WellFormedLines) (index : Nat) :
    Follows (store.delete index) (p.delete index) := by
  rw [delete, Proof.delete, Proof.removeLines, h.checkLine_eq, h.layout_eq]
  cases hcheck : p.checkLine index with
  | error reason => exact .refused reason
  | ok _ =>
    have hindex := Proof.checkLine_eq_ok.1 hcheck
    have hstop := Layout.add_length_subproofRange_le (hp.length_layout ▸ hindex)
    simp only [bind, Except.bind, drain_eq_ok (Nat.le_add_right index _) hstop,
      h.drain_order (hp.length_layout ▸ hstop), subproofs_eq_ok h hp.length_layout]
    have hcut : p.rowsWithout index = p.layout.take index ++
        p.layout.drop (index + (p.layout.subproofRange index).length) := rfl
    rw [← hcut]
    cases Layout.validate (p.rowsWithout index) with
    | error reason => exact .refused reason
    | ok _ =>
      have hrows : (p.rowsWithout index).length = (p.withoutLines index).lines.length := by
        rw [hcut, hp.layout_eq, ← List.map_take, ← List.map_drop, ← List.map_append,
          List.length_map, Proof.withoutLines, hp.layout_eq]
      obtain ⟨after, hsettled, hafter⟩ := rearranged_eq_ok p.subproofs
        (h.withoutLines index
          (store.citations.filter fun entry => !(p.deleted index).contains entry.1)) hrows
      -- What was cited by the lines taken out is let go of, and then noted afresh all the same.
      rw [rearranged_with_citations] at hsettled hafter
      rw [h.layout_eq] at hsettled
      simp only [hsettled, Proof.cutLines_eq]
      generalize (p.withoutLines index).rearranged p.subproofs (p.rowsWithout index) = settled
        at hafter ⊢
      exact .done (Proof.edited ⟨p.deleted index, settled.1, _⟩) hafter.edited

/-! ## Lines changed where they are -/

theorem Represents.putBack (h : store.Represents p)
    (hids : q.lines.map Line.id = p.lines.map Line.id) : (store.putBack q).Represents q := by
  cases h with
  | intro lines h =>
    have hput : (store.putBack q).Represents ((store.putBack q).around q.lines) :=
      .intro q.lines (h.holdAll (hids.trans h.ids_eq))
    exact hput

theorem perform_eq_inPlace {operation : Operation} (hkeeps : operation.rearranges = false) :
    store.perform setting operation =
      store.inPlace fun proof => proof.perform setting operation := by
  cases operation <;> first | rfl | cases hkeeps

/-- An operation that leaves lines where they are puts them back under their identities. -/
theorem perform_follows_inPlace (h : store.Represents p) {operation : Operation}
    (hkeeps : operation.rearranges = false) :
    Follows (store.perform setting operation) (p.perform setting operation) := by
  rw [perform_eq_inPlace hkeeps, inPlace, h.proof_eq]
  simp only [bind, Except.bind]
  cases hperform : p.perform setting operation with
  | error reason => exact .refused reason
  | ok outcome =>
    have hids := (Proof.Performed.of_perform hperform).ids_eq hkeeps
    exact .done outcome (h.putBack hids)

/-! ## Every operation -/

theorem perform_follows (h : store.Represents p) (hp : p.WellFormedLines) (setting : Setting)
    (operation : Operation) :
    Follows (store.perform setting operation) (p.perform setting operation) := by
  -- Five operations work on order and arena by themselves; all others change lines in place.
  cases operation with
  | addPremise =>
    obtain ⟨after, hadded, hafter⟩ := addPremise_eq_ok h hp
    rw [perform, hadded, Proof.perform]
    generalize p.addPremise = outcome at hafter ⊢
    exact .done (outcome.map Reply.line) hafter
  | addLine index row => exact (insert_follows h hp index row).map Reply.line
  | startSubproof index => exact (startSubproof_follows h hp index).map Reply.line
  | endSubproof index => exact (endSubproof_follows h hp index).map Reply.line
  | delete index => exact (delete_follows h hp index).map Reply.removed
  | _ => exact perform_follows_inPlace h rfl

theorem attempt_eq_ok (h : store.Represents p) (hp : p.WellFormedLines) (setting : Setting)
    (operation : Operation) :
    ∃ after, store.attempt setting operation = .ok (after, (p.attempt setting operation).2) ∧
      after.Represents (p.attempt setting operation).1 := by
  have hfollows := perform_follows h hp setting operation
  rw [attempt, Proof.attempt]
  generalize store.perform setting operation = attempt at hfollows
  generalize p.perform setting operation = other at hfollows
  cases hfollows with
  | refused reason => exact ⟨store, rfl, h⟩
  | done outcome h => exact ⟨_, rfl, h⟩

/-- Operations one after the other stop nowhere, and the store goes on representing the proof. -/
theorem run_eq_ok (h : store.Represents p) (hp : p.WellFormed) (setting : Setting)
    (operations : List Operation) :
    ∃ after, store.run setting operations = .ok (after, (p.run setting operations).2) ∧
      after.Represents (p.run setting operations).1 := by
  -- Look-ups go through because the proof is well-formed, which is therefore carried along.
  induction operations generalizing store p with
  | nil => exact ⟨store, rfl, h⟩
  | cons operation operations ih =>
    have hnext : (p.attempt setting operation).1.WellFormed := (hp.run setting [operation]).1
    obtain ⟨next, hattempt, hrepresents⟩ := attempt_eq_ok h hp.toWellFormedLines setting operation
    obtain ⟨last, hrun, hlast⟩ := ih hrepresents hnext
    refine ⟨last, ?_, hlast⟩
    rw [run, hattempt]
    simp only [bind, Except.bind, hrun]
    rfl

end NaturalDeduction.Store
