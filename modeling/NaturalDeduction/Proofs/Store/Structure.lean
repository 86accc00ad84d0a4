/-
  What structural edits do.

  Each edit puts a line in, or takes lines out, where they are sealed, so it
  carries all other lines over. An edit is refused only where its index is out
  of range or, for the end of a subproof, where there is none: the rows that it
  leads to are always well nested.
-/

import NaturalDeduction.Proofs.Store.Carried
import NaturalDeduction.Proofs.Store.Identity

namespace NaturalDeduction.Proof

open Layout

variable {p : Proof} {index : Nat} {row : Row}

/-! ## Lines with some put in between -/

section

variable {whole rest : Proof} {before extra after : List Line}
  (hwhole : whole.lines = before ++ extra ++ after) (hrest : rest.lines = before ++ after)
include hwhole hrest

theorem lineId?_shifted (i : Nat) :
    whole.lineId? (shifted before.length extra.length i) = rest.lineId? i := by
  rw [lineId?, lineId?, hwhole, hrest, getElem?_shifted]

theorem eq_shifted_of_lineId? (hids : (whole.lines.map Line.id).Nodup) {i k : Nat} {id : LineId}
    (hi : rest.lineId? i = some id) (hk : whole.lineId? k = some id) :
    shifted before.length extra.length i = k := by
  have hat := (lineId?_shifted hwhole hrest i).trans hi
  have hmap : ∀ {n : Nat}, whole.lineId? n = (whole.lines.map Line.id)[n]? :=
    List.getElem?_map.symm
  rw [hmap] at hat hk
  have hlt := (List.getElem?_eq_some_iff.1 hat).1
  exact (List.getElem?_inj hlt hids).1 (hat.trans hk.symm)

theorem lineId?_bind_shifted (opener? : Option Nat) :
    (opener?.map (shifted before.length extra.length)).bind whole.lineId? =
      opener?.bind rest.lineId? := by
  cases opener? with
  | none => rfl
  | some opener => exact lineId?_shifted hwhole hrest opener

end

/-! ## A line put in -/

/-- The lines with a new blank one put in, before anything is put into place. -/
def withLine (p : Proof) (index : Nat) (row : Row) : Proof :=
  { p with
    lines := p.lines.insertIdx index (Line.new p.nextLine index row)
    nextLine := p.nextLine + 1 }

theorem insertLine_eq (p : Proof) (index : Nat) (row : Row) : p.insertLine index row =
    ⟨p.nextLine,
      ((p.withLine index row).rearranged p.subproofs (p.layout.insertIdx index row)).1,
      .lineAdded p.nextLine index row.level row.assumption ::
        ((p.withLine index row).rearranged p.subproofs (p.layout.insertIdx index row)).2⟩ := by
  rw [insertLine, withLine]

theorem content_insertLine (p : Proof) (index : Nat) (row : Row) :
    (p.insertLine index row).proof.content =
      ((p.withLine index row).placeAll (p.layout.insertIdx index row)).1.content := by
  rw [proof_insertLine]
  exact content_rearranged _ _ _

theorem lines_withLine (row : Row) (hindex : index ≤ p.lines.length) :
    (p.withLine index row).lines = p.lines.take index ++ [Line.new p.nextLine index row] ++
      p.lines.drop index :=
  insertIdx_eq_append hindex _

theorem nodup_withLine (row : Row) (hp : WellFormedLines p) (hindex : index ≤ p.lines.length) :
    ((p.withLine index row).lines.map Line.id).Nodup := by
  rw [withLine, List.map_insertIdx,
    (List.perm_insertIdx _ _ (by simpa using hindex)).nodup_iff, List.nodup_cons]
  exact ⟨hp.nextLine_not_mem, hp.ids_nodup⟩

/-- A line may be put in where it is sealed. -/
theorem settles_withLine (hp : WellFormedLines p) (hindex : index ≤ p.lines.length)
    (hsealed : Sealed [row] (p.layout.drop index)) :
    Settles p (p.withLine index row) (p.layout.insertIdx index row) [] [p.nextLine] := by
  have hwhole := lines_withLine row hindex
  have hrest : p.lines = p.lines.take index ++ p.lines.drop index :=
    (List.take_append_drop index p.lines).symm
  have hids := nodup_withLine row hp hindex
  have hnew : ∀ line ∈ p.lines, line.id ≠ p.nextLine := fun line hmem =>
    Nat.ne_of_lt (hp.id_lt line hmem)
  let s : Splice := ⟨p.layout.take index, [row], p.layout.drop index, hsealed⟩
  have hlayout : index ≤ p.layout.length := by rwa [hp.length_layout]
  have hs_whole : s.whole = p.layout.insertIdx index row := (insertIdx_eq_append hlayout row).symm
  have hs_rest : s.rest = p.layout := List.take_append_drop index p.layout
  -- A line of the proof stands where the splice places its row.
  have hplace : s.place = shifted (p.lines.take index).length 1 := by
    have hlength : (p.layout.take index).length = (p.lines.take index).length := by
      rw [List.length_take, List.length_take, hp.length_layout]
    funext i
    exact congrArg (shifted · 1 i) hlength
  have hmatch : ∀ {i i'}, Matches p (p.withLine index row) i i' → s.place i = i' := by
    rintro i i' ⟨id, hi, hi'⟩
    rw [hplace]
    exact eq_shifted_of_lineId? hwhole hrest hids hi hi'
  refine ⟨?_, ?_, fun _ h => absurd h List.not_mem_nil, ?_, fun hi hj => ?_, fun hi => ?_⟩
  · have hkept : ∀ lines : List Line, (∀ line ∈ lines, line ∈ p.lines) →
        lines.filter (·.id ∉ [p.nextLine]) = lines := fun lines hlines =>
      List.filter_eq_self.2 fun line hmem => by simpa using hnew line (hlines line hmem)
    rw [hwhole, List.filter_append, List.filter_append,
      hkept _ fun line => List.mem_of_mem_take, hkept _ fun line => List.mem_of_mem_drop]
    simp [Line.new]
  · intro line hmem
    rcases List.eq_or_mem_of_mem_insertIdx hmem with rfl | hold
    · exact .inr rfl
    · exact .inl hold
  · intro id hid
    obtain rfl : id = p.nextLine := by simpa using hid
    exact hp.nextLine_not_mem
  · rw [← hmatch hi, ← hmatch hj, ← hs_whole, s.isAccessible_place, hs_rest]
  · rw [← hmatch hi, ← hs_whole, s.enclosing?_place, hs_rest, hplace]
    exact lineId?_bind_shifted hwhole hrest _

/-- Putting a line in where it is sealed carries all lines over. -/
theorem carries_insertLine (hp : WellFormedLines p) (hindex : index ≤ p.lines.length)
    (hsealed : Sealed [row] (p.layout.drop index)) :
    Carries p (edited (p.insertLine index row)).proof [] [p.nextLine] :=
  (settles_withLine hp hindex hsealed).carries hp (nodup_withLine row hp hindex)
    ((content_edited _).trans (content_insertLine p index row))

/-! ## Lines taken out -/

theorem take_append_drop_append {α : Type} (as : List α) (index count : Nat) :
    as.take index ++ (as.drop index).take count ++ as.drop (index + count) = as := by
  rw [List.append_assoc, ← List.drop_drop, List.take_append_drop, List.take_append_drop]

theorem filterMap_range' {α : Type} (as : List α) (index count : Nat) :
    (List.range' index count).filterMap (fun i => as[i]?) = (as.drop index).take count := by
  induction count generalizing index with
  | zero => rfl
  | succ count ih =>
    rw [List.range'_succ, List.filterMap_cons, ih]
    cases hat : as[index]? with
    | none =>
      have hlength := List.getElem?_eq_none_iff.1 hat
      rw [List.drop_eq_nil_of_le hlength, List.drop_eq_nil_of_le (Nat.le_succ_of_le hlength),
        List.take_nil, List.take_nil]
    | some a =>
      obtain ⟨hlt, rfl⟩ := List.getElem?_eq_some_iff.1 hat
      rw [List.drop_eq_getElem_cons hlt, List.take_succ_cons]

/-- The lines that deleting a line takes out. -/
def deleted (p : Proof) (index : Nat) : List LineId :=
  (p.layout.subproofRange index).filterMap p.lineId?

/-- The lines without those that deleting a line takes out, before anything is put into place. -/
def withoutLines (p : Proof) (index : Nat) : Proof :=
  { p with
    lines := p.lines.take index ++
      p.lines.drop (index + (p.layout.subproofRange index).length) }

theorem cutLines_eq (p : Proof) (index : Nat) : p.cutLines index =
    ⟨p.deleted index,
      ((p.withoutLines index).rearranged p.subproofs (p.rowsWithout index)).1,
      (p.deleted index).map .lineRemoved ++
        ((p.withoutLines index).rearranged p.subproofs (p.rowsWithout index)).2⟩ := by
  rw [cutLines, deleted, withoutLines]

theorem answer_cutLines (p : Proof) (index : Nat) :
    (edited (p.cutLines index)).answer = p.deleted index := by
  simp only [edited, cutLines, deleted]

theorem content_cutLines (p : Proof) (index : Nat) :
    (p.cutLines index).proof.content =
      ((p.withoutLines index).placeAll (p.layout.cut index)).1.content := by
  rw [proof_cutLines]
  exact content_rearranged _ _ _

theorem mem_subproofRange_iff {j : Nat} : j ∈ p.layout.subproofRange index ↔
    index ≤ j ∧ j < index + (p.layout.subproofRange index).length := by
  unfold subproofRange
  split
  · rw [List.length_range', List.mem_range'_1]
  · rw [List.mem_singleton, List.length_singleton]
    omega

theorem deleted_eq (p : Proof) (index : Nat) : p.deleted index =
    ((p.lines.drop index).take (p.layout.subproofRange index).length).map Line.id := by
  have hrange : p.layout.subproofRange index =
      List.range' index (p.layout.subproofRange index).length := by
    unfold subproofRange
    split
    · rw [List.length_range']
    · rfl
  rw [deleted]
  conv_lhs => rw [hrange]
  rw [← filterMap_range', List.map_filterMap]
  rfl

theorem mem_deleted {id : LineId} : id ∈ p.deleted index ↔
    ∃ j, p.lineId? j = some id ∧ index ≤ j ∧
      j < index + (p.layout.subproofRange index).length := by
  rw [deleted, List.mem_filterMap]
  simp only [mem_subproofRange_iff]
  exact ⟨fun ⟨j, hj, hid⟩ => ⟨j, hid, hj⟩, fun ⟨j, hid, hj⟩ => ⟨j, hj, hid⟩⟩

/-- The lines taken out are those whose positions are. -/
theorem id_mem_deleted_iff (hp : WellFormedLines p) {j : Nat} {line : Line}
    (hline : p.lines[j]? = some line) : line.id ∈ p.deleted index ↔
      index ≤ j ∧ j < index + (p.layout.subproofRange index).length := by
  have hat : p.lineId? j = some line.id := by rw [lineId?, hline]; rfl
  rw [mem_deleted]
  constructor
  · rintro ⟨k, hk, hrange⟩
    rwa [hp.eq_of_lineId? hat hk]
  · exact fun hrange => ⟨j, hat, hrange⟩

/-- What is left are the lines that are not taken out. -/
theorem filter_deleted (hp : WellFormedLines p) (index : Nat) :
    p.lines.filter (·.id ∉ p.deleted index) = (p.withoutLines index).lines := by
  have hfirst : ∀ line ∈ p.lines.take index, line.id ∉ p.deleted index := by
    intro line hmem hdeleted
    obtain ⟨j, hlt, hj⟩ := exists_getElem?_of_mem_take hmem
    have := ((id_mem_deleted_iff hp hj).1 hdeleted).1
    omega
  have hmiddle : ∀ line ∈ (p.lines.drop index).take (p.layout.subproofRange index).length,
      line.id ∈ p.deleted index := by
    intro line hmem
    obtain ⟨j, hlt, hj⟩ := exists_getElem?_of_mem_take_drop hmem
    exact (id_mem_deleted_iff hp hj).2 ⟨Nat.le_add_right _ _, by omega⟩
  have hlast : ∀ line ∈ p.lines.drop (index + (p.layout.subproofRange index).length),
      line.id ∉ p.deleted index := by
    intro line hmem hdeleted
    obtain ⟨j, hj⟩ := List.mem_iff_getElem?.1 hmem
    rw [List.getElem?_drop] at hj
    have := ((id_mem_deleted_iff hp hj).1 hdeleted).2
    omega
  conv_lhs => rw [← take_append_drop_append p.lines index (p.layout.subproofRange index).length]
  rw [List.filter_append, List.filter_append,
    List.filter_eq_self.2 fun line hmem => by simpa using hfirst line hmem,
    List.filter_eq_nil_iff.2 fun line hmem => by simpa using hmiddle line hmem,
    List.filter_eq_self.2 fun line hmem => by simpa using hlast line hmem, List.append_nil,
    withoutLines]

/-- A line, or a whole subproof, may be taken out. -/
theorem settles_withoutLines (hp : WellFormedLines p) (hindex : index < p.lines.length) :
    Settles p (p.withoutLines index) (p.layout.cut index) (p.deleted index) [] := by
  have hlayout : index < p.layout.length := by rwa [hp.length_layout]
  have hwhole := (take_append_drop_append p.lines index (p.layout.subproofRange index).length).symm
  let s : Splice := ⟨p.layout.take index,
    (p.layout.drop index).take (p.layout.subproofRange index).length,
    p.layout.drop (index + (p.layout.subproofRange index).length),
    sealed_subproofRange hp.valid hlayout⟩
  have hs_whole : s.whole = p.layout := take_append_drop_append _ _ _
  have hs_rest : s.rest = p.layout.cut index := rfl
  -- A line that is left stands where the splice places its row.
  have hplace : s.place = shifted (p.lines.take index).length
      ((p.lines.drop index).take (p.layout.subproofRange index).length).length := by
    have hbefore : s.before.length = (p.lines.take index).length := by
      rw [List.length_take, List.length_take, hp.length_layout]
    have hextra : s.extra.length =
        ((p.lines.drop index).take (p.layout.subproofRange index).length).length := by
      rw [List.length_take, List.length_take, List.length_drop, List.length_drop, hp.length_layout]
    funext i
    rw [← hbefore, ← hextra]
    rfl
  have hmatch : ∀ {i i'}, Matches p (p.withoutLines index) i i' → s.place i' = i := by
    rintro i i' ⟨id, hi, hi'⟩
    rw [hplace]
    exact eq_shifted_of_lineId? hwhole rfl hp.ids_nodup hi' hi
  refine ⟨?_, fun line hmem => .inl ?_, ?_, fun _ h => absurd h List.not_mem_nil,
    fun hi hj => ?_, fun hi => ?_⟩
  · rw [filter_deleted hp]
    exact List.filter_eq_self.2 fun _ _ => by simp
  · exact (sublist_cut p.lines index _).subset hmem
  · intro id hid hleft
    obtain ⟨line, hmem, rfl⟩ := List.mem_map.1 hleft
    rw [← filter_deleted hp] at hmem
    simpa [hid] using (List.mem_filter.1 hmem).2
  · rw [← hmatch hi, ← hmatch hj, ← hs_rest, ← s.isAccessible_place, hs_whole]
  · have hplaced := s.enclosing?_place
    rw [hs_whole] at hplaced
    rw [← hmatch hi, hplaced, hs_rest, hplace]
    exact (lineId?_bind_shifted hwhole rfl _).symm

/-- Deleting lines carries all others over. -/
theorem carries_cutLines (hp : WellFormedLines p) (hindex : index < p.lines.length) :
    Carries p (edited (p.cutLines index)).proof (p.deleted index) [] := by
  have hids : ((p.withoutLines index).lines.map Line.id).Nodup :=
    hp.ids_nodup.sublist ((sublist_cut p.lines index _).map _)
  exact (settles_withoutLines hp hindex).carries hp hids
    ((content_edited _).trans (content_cutLines p index))

/-! ## Where a new line stands -/

section

variable (hp : WellFormed p) (hindex : index ≤ p.lines.length)

theorem answer_insertLine (p : Proof) (index : Nat) (row : Row) :
    (edited (p.insertLine index row)).answer = p.nextLine := by
  simp only [edited, insertLine]

theorem layout_insertLine (p : Proof) (index : Nat) (row : Row) :
    (edited (p.insertLine index row)).proof.layout = p.layout.insertIdx index row := by
  rw [layout_eq_of_content_eq ((content_edited _).trans (content_insertLine p index row))]
  rfl

theorem lineId?_insertLine (p : Proof) (index : Nat) (row : Row) (j : Nat) :
    (edited (p.insertLine index row)).proof.lineId? j = (p.withLine index row).lineId? j := by
  rw [lineId?_eq_of_content_eq ((content_edited _).trans (content_insertLine p index row)), lineId?,
    getElem?_lines_placeAll, Option.map_map, lineId?]
  simp only [Function.comp_def, id_place]

theorem lineId?_insertLine_of_lt {j : Nat} (hj : j < index) :
    (edited (p.insertLine index row)).proof.lineId? j = p.lineId? j := by
  rw [lineId?_insertLine, lineId?, lineId?, withLine, List.getElem?_insertIdx_of_lt hj]

include hindex in
theorem lineId?_insertLine_self :
    (edited (p.insertLine index row)).proof.lineId? index = some p.nextLine := by
  rw [lineId?_insertLine, lineId?, withLine, List.getElem?_insertIdx_self, if_pos hindex]
  rfl

include hp hindex in
/-- The subproof around a new line, when it is opened before the line. -/
theorem opener?_insertLine (hvalid : Layout.validate (p.layout.insertIdx index row) = .ok ())
    {around? : Option Nat} (haround : ∀ b ∈ around?, b < index)
    (henclosing : enclosing? (p.layout.insertIdx index row) index = around?) :
    (edited (p.insertLine index row)).proof.opener? p.nextLine = around?.bind p.lineId? := by
  have hq : WellFormed (edited (p.insertLine index row)).proof :=
    (wellFormed_insertLine hp hindex hvalid).congr (outline_eq_of_content_eq (content_edited _))
  have hself : (edited (p.insertLine index row)).proof.lineId? index = some p.nextLine :=
    lineId?_insertLine_self hindex
  have hposition := (hq.position_iff _ _).2 hself
  rw [opener?, hposition, layout_insertLine]
  show (enclosing? _ index).bind _ = _
  rw [henclosing]
  exact Option.bind_congr fun b hb => lineId?_insertLine_of_lt (haround b hb)

end

/-! ## The operations -/

/-- A subproof was opened at a line: the new line opens a subproof that holds nothing else, inside
the innermost subproof of the line. -/
structure Opened (p q : Proof) (index : Nat) (id : LineId) : Prop where
  alone : ∃ k, q.lineId? k = some id ∧ q.layout.opens k = true ∧ q.layout.subproofRange k = [k]
  opener?_eq : q.opener? id = (p.layout.home? index).bind p.lineId?

/-- The innermost subproof of a line was ended: the new line stands right where that subproof ends,
directly in the subproof around it. -/
structure Ended (p q : Proof) (index : Nat) (id : LineId) : Prop where
  behind : ∃ b, p.layout.home? index = some b ∧ q.lineId? b = p.lineId? b ∧
    q.lineId? (q.layout.subproofEnd b) = some id ∧
    q.layout.isAssumption (q.layout.subproofEnd b) = false
  opener?_eq : q.opener? id = ((p.layout.home? index).bind p.layout.enclosing?).bind p.lineId?

theorem edited_eq_ok {α : Type} {attempt : Attempt (Outcome α)} {outcome : Outcome α}
    (h : attempt = .ok outcome) : (do return edited (← attempt)) = Except.ok (edited outcome) := by
  rw [h]
  rfl

section

variable (hp : WellFormed p)
include hp

theorem addLine_premiseCount : p.addLine p.layout.premiseCount ⟨0, true⟩ = .ok p.addPremise := by
  have hindex : p.layout.premiseCount ≤ p.lines.length :=
    hp.length_layout ▸ p.layout.premiseCount_le_length
  have hinsert := tryInsert_eq_ok.2 ⟨hindex, validate_insertIdx_premiseCount hp.valid, rfl⟩
  exact edited_eq_ok hinsert

/-- A line that opens no subproof carries all lines over, wherever it may be added. -/
theorem carries_addLine {outcome : Outcome LineId} (h : p.addLine index row = .ok outcome)
    (hplain : row.opensSubproof = false) : Carries p outcome.proof [] [outcome.answer] := by
  obtain ⟨inserted, hinsert, hdone⟩ := Except.bind_eq_ok.1 h
  obtain ⟨hindex, hvalid, rfl⟩ := tryInsert_eq_ok.1 hinsert
  obtain rfl := Except.ok.inj hdone
  rw [answer_insertLine]
  have hlength : index ≤ p.layout.length := by rwa [hp.length_layout]
  exact carries_insertLine hp.toWellFormedLines hindex
    (sealed_of_plain hplain (fits_drop_of_insertIdx hlength hvalid))

theorem startSubproof_of_lt (hindex : index < p.lines.length) : p.startSubproof index =
    .ok (edited (p.insertLine (p.layout.startIndex index) (p.layout.startRow index))) := by
  have hlength : index < p.layout.length := by rwa [hp.length_layout]
  have hstart : p.layout.startIndex index ≤ p.lines.length :=
    hp.length_layout ▸ startIndex_le_length hlength
  have hinsert := tryInsert_eq_ok.2 ⟨hstart, validate_start hp.valid hlength, rfl⟩
  exact Except.bind_eq_ok.2 ⟨(), checkLine_eq_ok.2 hindex, edited_eq_ok hinsert⟩

/-- A subproof can be opened at every line. -/
theorem exists_startSubproof_iff :
    (∃ outcome, p.startSubproof index = .ok outcome) ↔ index < p.lines.length := by
  constructor
  · rintro ⟨outcome, h⟩
    obtain ⟨_, hcheck, -⟩ := Except.bind_eq_ok.1 h
    exact checkLine_eq_ok.1 hcheck
  · exact fun hindex => ⟨_, startSubproof_of_lt hp hindex⟩

theorem carries_startSubproof {outcome : Outcome LineId}
    (h : p.startSubproof index = .ok outcome) :
    Carries p outcome.proof [] [outcome.answer] ∧ Opened p outcome.proof index outcome.answer := by
  have hindex := (exists_startSubproof_iff hp).1 ⟨outcome, h⟩
  have hlength : index < p.layout.length := by rwa [hp.length_layout]
  have hstart : p.layout.startIndex index ≤ p.lines.length :=
    hp.length_layout ▸ startIndex_le_length hlength
  rw [startSubproof_of_lt hp hindex] at h
  obtain rfl := Except.ok.inj h
  rw [answer_insertLine]
  refine ⟨carries_insertLine hp.toWellFormedLines hstart (sealed_start hp.valid index),
    ⟨p.layout.startIndex index, lineId?_insertLine_self hstart, ?_, ?_⟩, ?_⟩
  · rw [layout_insertLine]
    exact opens_start hlength
  · rw [layout_insertLine]
    exact subproofRange_start hp.valid hlength
  · refine opener?_insertLine hp hstart (validate_start hp.valid hlength) (fun b hb => ?_)
      (enclosing?_start hp.valid hlength)
    have hle := (home?_eq_some_iff.1 hb).1.le
    exact Nat.lt_of_le_of_lt hle (Nat.lt_of_lt_of_le (Nat.lt_succ_self _) (Nat.le_max_left _ _))

theorem endSubproof_of_home? {b : Nat} (hindex : index < p.lines.length)
    (hhome : p.layout.home? index = some b) : p.endSubproof index =
      .ok (edited (p.insertLine (p.layout.subproofEnd b) (p.layout.endRow b))) := by
  have hopens := (home?_eq_some_iff.1 hhome).1.opens
  have hend : p.layout.subproofEnd b ≤ p.lines.length :=
    hp.length_layout ▸ subproofEnd_le_length hopens
  have hinsert := tryInsert_eq_ok.2 ⟨hend, validate_end hp.valid hopens, rfl⟩
  have henclosing : p.layout.enclosingEnd index = .ok (p.layout.subproofEnd b) := by
    rw [enclosingEnd, hhome]
  refine Except.bind_eq_ok.2 ⟨(), checkLine_eq_ok.2 hindex, ?_⟩
  refine Except.bind_eq_ok.2 ⟨_, henclosing, ?_⟩
  rw [← levelAt_home? hp.valid hhome]
  exact edited_eq_ok hinsert

omit hp in
theorem exists_home?_of_endSubproof {outcome : Outcome LineId}
    (h : p.endSubproof index = .ok outcome) :
    index < p.lines.length ∧ ∃ b, p.layout.home? index = some b := by
  obtain ⟨_, hcheck, hrest⟩ := Except.bind_eq_ok.1 h
  obtain ⟨position, hend, -⟩ := Except.bind_eq_ok.1 hrest
  refine ⟨checkLine_eq_ok.1 hcheck, ?_⟩
  unfold enclosingEnd at hend
  split at hend
  · exact ⟨_, ‹_›⟩
  · cases hend

/-- A subproof can be ended at every line in one. -/
theorem exists_endSubproof_iff : (∃ outcome, p.endSubproof index = .ok outcome) ↔
    ∃ line, p.lines[index]? = some line ∧ 1 ≤ line.level := by
  constructor
  · rintro ⟨outcome, h⟩
    obtain ⟨hindex, b, hhome⟩ := exists_home?_of_endSubproof h
    have hline := List.getElem?_eq_getElem hindex
    have hlevel := levelAt_home? hp.valid hhome
    have hpos := (opens_iff.1 (home?_eq_some_iff.1 hhome).1.opens).2
    rw [hp.levelAt_eq hline] at hlevel
    exact ⟨_, hline, by omega⟩
  · rintro ⟨line, hline, hlevel⟩
    have hindex := (List.getElem?_eq_some_iff.1 hline).1
    have hlength : index < p.layout.length := by rwa [hp.length_layout]
    cases hhome : p.layout.home? index with
    | none =>
      have hzero := (home?_eq_none_iff_levelAt hp.valid hlength).1 hhome
      rw [hp.levelAt_eq hline] at hzero
      omega
    | some b => exact ⟨_, endSubproof_of_home? hp hindex hhome⟩

theorem carries_endSubproof {outcome : Outcome LineId} (h : p.endSubproof index = .ok outcome) :
    Carries p outcome.proof [] [outcome.answer] ∧ Ended p outcome.proof index outcome.answer := by
  obtain ⟨hindex, b, hhome⟩ := exists_home?_of_endSubproof h
  have hopens := (home?_eq_some_iff.1 hhome).1.opens
  have hend : p.layout.subproofEnd b ≤ p.lines.length :=
    hp.length_layout ▸ subproofEnd_le_length hopens
  have hlength : p.layout.subproofEnd b ≤ p.layout.length := subproofEnd_le_length hopens
  rw [endSubproof_of_home? hp hindex hhome] at h
  obtain rfl := Except.ok.inj h
  rw [answer_insertLine]
  refine ⟨carries_insertLine hp.toWellFormedLines hend (sealed_end hopens),
    ⟨b, hhome, lineId?_insertLine_of_lt lt_subproofEnd_self, ?_, ?_⟩, ?_⟩
  · rw [layout_insertLine, subproofEnd_end hopens]
    exact lineId?_insertLine_self hend
  · rw [layout_insertLine, subproofEnd_end hopens, isAssumption, getElem?_insertIdx_self hlength]
    rfl
  · rw [hhome]
    refine opener?_insertLine hp hend (validate_end hp.valid hopens) (fun c hc => ?_)
      (enclosing?_end hopens)
    exact Nat.lt_trans (enclosing?_eq_some_iff.1 hc).1 lt_subproofEnd_self

theorem delete_of_lt (hindex : index < p.lines.length) :
    p.delete index = .ok (edited (p.cutLines index)) := by
  have hlength : index < p.layout.length := by rwa [hp.length_layout]
  have hvalid : (p.rowsWithout index).validate = .ok () :=
    validate_cut_subproofRange hp.valid hlength
  have hremove : p.removeLines index = .ok (p.cutLines index) := by
    refine Except.bind_eq_ok.2 ⟨(), checkLine_eq_ok.2 hindex, ?_⟩
    exact Except.bind_eq_ok.2 ⟨(), hvalid, rfl⟩
  exact edited_eq_ok hremove

/-- Every line can be deleted. -/
theorem exists_delete_iff :
    (∃ outcome, p.delete index = .ok outcome) ↔ index < p.lines.length := by
  constructor
  · rintro ⟨outcome, h⟩
    obtain ⟨cut, hcut, -⟩ := Except.bind_eq_ok.1 h
    obtain ⟨_, hcheck, -⟩ := Except.bind_eq_ok.1 hcut
    exact checkLine_eq_ok.1 hcheck
  · exact fun hindex => ⟨_, delete_of_lt hp hindex⟩

theorem carries_delete {outcome : Outcome (List LineId)} (h : p.delete index = .ok outcome) :
    Carries p outcome.proof outcome.answer [] ∧
      ∀ id, id ∈ outcome.answer ↔
        ∃ j, p.lineId? j = some id ∧ (j = index ∨ p.layout.Contains index j) := by
  have hindex := (exists_delete_iff hp).1 ⟨outcome, h⟩
  rw [delete_of_lt hp hindex] at h
  obtain rfl := Except.ok.inj h
  rw [answer_cutLines]
  refine ⟨carries_cutLines hp.toWellFormedLines hindex, fun id => ?_⟩
  rw [deleted, List.mem_filterMap]
  have hrange : ∀ j, j ∈ p.layout.subproofRange index ↔ j = index ∨ p.layout.Contains index j := by
    intro j
    cases hopens : p.layout.opens index with
    | true =>
      rw [mem_subproofRange hopens]
      refine ⟨.inr, ?_⟩
      rintro (rfl | hj)
      · exact .self hopens
      · exact hj
    | false =>
      have hnot : ¬ p.layout.Contains index j := fun hj => by
        rw [hj.opens] at hopens
        cases hopens
      rw [subproofRange, hopens]
      simp [hnot]
  simp only [hrange]
  exact exists_congr fun j => and_comm

end

/-! ## Every reachable proof -/

/-- Structural edits apply wherever they make sense, and lose no citation. A premise can always be
added, a subproof opened at every line and ended at every line in one, and every line deleted, with
its whole subproof if it opens one. After any of these, and after adding a line that opens no
subproof, all other lines are carried over; and the new line stands where the edit says. -/
theorem carries_of_structural_edit (setting : Setting) {p : Proof}
    (hreachable : Reachable setting p) :
    (p.addLine p.layout.premiseCount ⟨0, true⟩ = .ok p.addPremise ∧
      Carries p p.addPremise.proof [] [p.addPremise.answer]) ∧
    (∀ index row outcome, p.addLine index row = .ok outcome →
      row.assumption = false ∨ row.level = 0 → Carries p outcome.proof [] [outcome.answer]) ∧
    (∀ index, ((∃ outcome, p.startSubproof index = .ok outcome) ↔ index < p.lines.length) ∧
      ∀ outcome, p.startSubproof index = .ok outcome →
        Carries p outcome.proof [] [outcome.answer] ∧
          Opened p outcome.proof index outcome.answer) ∧
    (∀ index, ((∃ outcome, p.endSubproof index = .ok outcome) ↔
        ∃ line, p.lines[index]? = some line ∧ 1 ≤ line.level) ∧
      ∀ outcome, p.endSubproof index = .ok outcome →
        Carries p outcome.proof [] [outcome.answer] ∧
          Ended p outcome.proof index outcome.answer) ∧
    ∀ index, ((∃ outcome, p.delete index = .ok outcome) ↔ index < p.lines.length) ∧
      ∀ outcome, p.delete index = .ok outcome →
        Carries p outcome.proof outcome.answer [] ∧
          ∀ id, id ∈ outcome.answer ↔
            ∃ j, p.lineId? j = some id ∧ (j = index ∨ p.layout.Contains index j) := by
  obtain ⟨start, operations, hstart, rfl⟩ := hreachable
  have hp := ((WellFormed.initial hstart).run setting operations).1
  have hpremise := addLine_premiseCount hp
  refine ⟨⟨hpremise, carries_addLine hp hpremise rfl⟩, fun index row outcome h hrow => ?_,
    fun index => ⟨exists_startSubproof_iff hp, fun _ => carries_startSubproof hp⟩,
    fun index => ⟨exists_endSubproof_iff hp, fun _ => carries_endSubproof hp⟩,
    fun index => ⟨exists_delete_iff hp, fun _ => carries_delete hp⟩⟩
  refine carries_addLine hp h ?_
  rcases hrow with hplain | hzero
  · simp [Row.opensSubproof, hplain]
  · simp [Row.opensSubproof, hzero]

/-- A line in a subproof cites a premise and the assumption; ending the subproof and deleting it
both succeed. -/
theorem carries_of_structural_edit_subproof :
    ∃ p, Reachable {} p ∧ (∃ outcome, p.endSubproof 2 = .ok outcome) ∧
      ∃ outcome, p.delete 1 = .ok outcome ∧ Carries p outcome.proof outcome.answer [] := by
  let p := ((Proof.new []).run {} [.addPremise, .startSubproof 0, .addLine 2 ⟨1, false⟩,
    .togglePremise 2 0, .togglePremise 2 1]).1
  have hreachable : Reachable {} p := ⟨_, _, .new [], rfl⟩
  obtain ⟨-, -, -, hend, hdelete⟩ := carries_of_structural_edit {} hreachable
  obtain ⟨outcome, houtcome⟩ := (hdelete 1).1.2 (by decide +kernel)
  have hdeep : p.lines[2]?.any (1 ≤ ·.level) = true := by decide +kernel
  exact ⟨p, hreachable, (hend 2).1.2 (by simpa using (Option.any_eq_true _ _).1 hdeep), outcome,
    houtcome, ((hdelete 1).2 outcome houtcome).1⟩

end NaturalDeduction.Proof
