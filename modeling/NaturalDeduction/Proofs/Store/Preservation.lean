/-
  Changes keep a proof well-formed.

  Most changes leave the outline as it was. What is left are those that add or
  remove lines, which are put into place afterwards, the citation that is
  added or taken back, which changes one entry of one table, and the goals.
-/

import Mathlib.Data.List.InsertIdx
import Mathlib.Data.List.Perm.Basic
import NaturalDeduction.Proofs.Document.Validity
import NaturalDeduction.Proofs.Store.Placing

namespace NaturalDeduction

@[simp] theorem Line.outline_setText (text : String) (line : Line) :
    (line.setText text).1.outline = line.outline := by
  unfold setText
  split <;> rfl

@[simp] theorem Line.outline_setRule (rule? : Option Rule) (line : Line) :
    (line.setRule rule?).1.outline = line.outline := by
  unfold setRule
  split <;> rfl

@[simp] theorem Goal.outline_setText (text : String) (goal : Goal) :
    (goal.setText text).1.outline = goal.outline := by
  unfold setText
  split <;> rfl

@[simp] theorem Goal.setNumber_fst (number : Nat) (goal : Goal) :
    (goal.setNumber number).1 = { goal with number } := by
  unfold setNumber
  split
  · rename_i h
    rw [← h]
  · rfl

namespace Proof

variable {setting : Setting} {p q : Proof} {index premise : Nat}

/-! ## Changes that keep the outline -/

@[simp] theorem content_edited {α : Type} (outcome : Outcome α) :
    (edited outcome).proof.content = outcome.proof.content := rfl

/-- Changing lines within their outlines keeps the outline of the proof. -/
theorem outline_with_lines {lines : List Line}
    (h : lines.map Line.outline = p.lines.map Line.outline) :
    ({ p with lines } : Proof).outline = p.outline := by
  simp only [outline, content, h]

theorem outline_writeLine (setting : Setting) (p : Proof) (index : Nat) (text : String) :
    (writeLine setting p index text).1.outline = p.outline := by
  simp only [writeLine, notingAt_fst]
  rw [outline_eq_of_content_eq (content_resetGoals _),
    outline_eq_of_content_eq (content_invalidateEach _ _)]
  refine outline_with_lines (map_modify_eq (fun line => ?_) _ _)
  exact Line.outline_setText text line

theorem outline_chooseRule (setting : Setting) (p : Proof) (index : Nat) (rule? : Option Rule) :
    (chooseRule setting p index rule?).proof.outline = p.outline := by
  simp only [chooseRule, notingAt_fst]
  rw [outline_eq_of_content_eq (content_verifyLineAt _ _ _),
    outline_eq_of_content_eq (content_resetGoals _)]
  exact outline_with_lines (map_modify_eq (Line.outline_setRule rule?) _ _)

theorem outline_restrict (p : Proof) (rules : List Rule) :
    (p.restrict rules).proof.outline = p.outline := by
  have hlines : (p.lines.map fun line => line.invalidate.1).map Line.outline =
      p.lines.map Line.outline := by
    rw [List.map_map]
    rfl
  simp only [restrict, noting_fst]
  rw [outline_eq_of_content_eq (content_edited _)]
  simp only
  rw [outline_eq_of_content_eq (content_resetGoals _)]
  exact outline_with_lines hlines

theorem outline_writeGoal (p : Proof) (index : Nat) (text : String) :
    (p.writeGoal index text).proof.outline = p.outline := by
  have hgoals := map_modify_eq (Goal.outline_setText text) p.goals index
  simp only [writeGoal, notingAt_fst, outline, content, hgoals]

/-! ## Lines added and removed -/

theorem wellFormed_insertLine (hp : WellFormed p) {row : Row} (hindex : index ≤ p.lines.length)
    (hvalid : Layout.validate (p.layout.insertIdx index row) = .ok ()) :
    WellFormed (p.insertLine index row).proof := by
  rw [proof_insertLine]
  refine wellFormed_rearranged ?_ ?_ ?_ hvalid ?_
    (WellFormedGoals.congr (p := p) rfl rfl hp.toWellFormedGoals)
  · rw [List.map_insertIdx, (List.perm_insertIdx _ _ (by simpa using hindex)).nodup_iff,
      List.nodup_cons]
    exact ⟨hp.nextLine_not_mem, hp.ids_nodup⟩
  · intro line hline
    rcases List.eq_or_mem_of_mem_insertIdx hline with rfl | hline
    · exact Nat.lt_succ_self _
    · exact Nat.lt_succ_of_lt (hp.id_lt line hline)
  · rw [List.map_insertIdx, hp.layout_eq]
    rfl
  · intro line hline
    rcases List.eq_or_mem_of_mem_insertIdx hline with rfl | hline
    · exact List.Pairwise.nil
    · exact hp.premises_ascending line hline

theorem sublist_cut (lines : List Line) (index count : Nat) :
    (lines.take index ++ lines.drop (index + count)).Sublist lines := by
  conv_rhs => rw [← List.take_append_drop index lines]
  refine List.Sublist.append (List.Sublist.refl _) ?_
  rw [← List.drop_drop]
  exact List.drop_sublist _ _

theorem wellFormed_cutLines (hp : WellFormed p)
    (hvalid : (p.rowsWithout index).validate = .ok ()) :
    WellFormed (p.cutLines index).proof := by
  have hsub := sublist_cut p.lines index (p.layout.subproofRange index).length
  rw [proof_cutLines]
  refine wellFormed_rearranged ?_ ?_ ?_ hvalid ?_
    (WellFormedGoals.congr (p := p) rfl rfl hp.toWellFormedGoals)
  · exact hp.ids_nodup.sublist (hsub.map _)
  · exact fun line hline => hp.id_lt line (hsub.subset hline)
  · rw [rowsWithout, hp.layout_eq, List.map_append, List.map_take, List.map_drop]
  · exact fun line hline => hp.premises_ascending line (hsub.subset hline)

/-! ## Citations added and taken back -/

theorem mem_toggled {premises : List LineId} {id k : LineId} :
    k ∈ toggled premises id ↔
      (k ∈ premises ∧ (id ∈ premises → k ≠ id)) ∨ (k = id ∧ id ∉ premises) := by
  unfold toggled
  by_cases h : id ∈ premises
  · simp [h]
  · simp [h, Ascending.mem_insert]
    tauto

theorem pairwise_toggled {premises : List LineId} (h : premises.Pairwise (· < ·)) (id : LineId) :
    (toggled premises id).Pairwise (· < ·) := by
  unfold toggled
  split
  · exact h.filter _
  · exact Ascending.pairwise_insert h

/-- A line takes part in a citation of its own only where its premises are changed. -/
theorem exists_mem_modify_premises (hp : WellFormedLines p) {line : Line}
    (hline : p.lines[index]? = some line) {premises : List LineId} {id citer : LineId} :
    (∃ other ∈ p.lines.modify index fun line => { line with premises },
      other.id = citer ∧ id ∈ other.premises) ↔
      (citer = line.id ∧ id ∈ premises) ∨ (citer ≠ line.id ∧ citer ∈ p.citing id) := by
  have hid : p.lineId? index = some line.id := by simp [lineId?, hline]
  constructor
  · rintro ⟨other, hmem, rfl, hpremise⟩
    obtain ⟨j, hj⟩ := List.mem_iff_getElem?.1 hmem
    -- The changed line cites what it is given; any other line cites what it did.
    by_cases hji : index = j
    · subst hji
      obtain rfl : { line with premises } = other := by simpa [hline] using hj
      exact .inl ⟨rfl, hpremise⟩
    · have hother : p.lines[j]? = some other := by simpa [hji] using hj
      refine .inr ⟨fun heq => hji (hp.eq_of_lineId? hid ?_), ?_⟩
      · simp [lineId?, hother, heq]
      · exact (hp.mem_citing _ _).2 ⟨other, List.mem_of_getElem? hother, rfl, hpremise⟩
  · rintro (⟨rfl, hpremise⟩ | ⟨hne, hciting⟩)
    · refine ⟨{ line with premises }, List.mem_iff_getElem?.2 ⟨index, ?_⟩, rfl, hpremise⟩
      simp [hline]
    · obtain ⟨other, hmem, rfl, hpremise⟩ := (hp.mem_citing _ _).1 hciting
      obtain ⟨j, hj⟩ := List.mem_iff_getElem?.1 hmem
      have hji : index ≠ j := by
        rintro rfl
        obtain rfl : line = other := by simpa [hline] using hj
        exact hne rfl
      refine ⟨other, List.mem_iff_getElem?.2 ⟨j, ?_⟩, rfl, hpremise⟩
      simp [hji, hj]

/-- A line may be given any allowed citations, if the table of citations says the same. -/
theorem wellFormedLines_with_premises (hp : WellFormedLines p) {line : Line}
    (hline : p.lines[index]? = some line) {premises : List LineId} {citations : Citations}
    (hpremises : ∀ id ∈ premises, ∃ premise, p.position? id = some premise ∧
      p.layout.isAccessible premise index = true)
    (hascending : premises.Pairwise (· < ·))
    (hciting : ∀ id citer, citer ∈ citations.citing id ↔
      (citer = line.id ∧ id ∈ premises) ∨ (citer ≠ line.id ∧ citer ∈ p.citing id))
    (hcitingAscending : ∀ id, (citations.citing id).Pairwise (· < ·)) :
    WellFormedLines
      { p with lines := p.lines.modify index fun line => { line with premises }, citations } := by
  -- At each position stands the changed line, or the line that stood there.
  have hat : ∀ {j : Nat} {changed : Line},
      (p.lines.modify index fun line => { line with premises })[j]? = some changed →
      (j = index ∧ changed = { line with premises }) ∨ p.lines[j]? = some changed := by
    intro j changed hj
    by_cases hji : index = j
    · subst hji
      exact .inl ⟨rfl, by simpa [hline, eq_comm] using hj⟩
    · exact .inr (by simpa [hji] using hj)
  have hmem : ∀ {changed : Line},
      changed ∈ p.lines.modify index (fun line => { line with premises }) →
      changed = { line with premises } ∨ changed ∈ p.lines := by
    intro changed hchanged
    obtain ⟨j, hj⟩ := List.mem_iff_getElem?.1 hchanged
    exact (hat hj).imp And.right List.mem_of_getElem?
  have hids : (p.lines.modify index fun line => { line with premises }).map Line.id =
      p.lines.map Line.id := by
    apply map_modify_eq
    exact fun _ => rfl
  have hrows : (p.lines.modify index fun line => { line with premises }).map Line.row =
      p.lines.map Line.row := by
    apply map_modify_eq
    exact fun _ => rfl
  refine ⟨?_, ?_, ?_, ?_, ?_, hp.valid, ?_, ?_, ?_, hcitingAscending⟩
  · have hnodup := hp.ids_nodup
    rwa [← hids] at hnodup
  · intro changed hchanged
    rcases hmem hchanged with rfl | hchanged
    · exact hp.id_lt line (List.mem_of_getElem? hline)
    · exact hp.id_lt changed hchanged
  · intro id j
    have hposition := hp.position_iff id j
    rw [lineId?, ← List.getElem?_map, ← hids, List.getElem?_map] at hposition
    exact hposition
  · intro j changed hj
    rcases hat hj with ⟨rfl, rfl⟩ | hj
    · exact hp.number_eq _ line hline
    · exact hp.number_eq j changed hj
  · have hlayout := hp.layout_eq
    rwa [← hrows] at hlayout
  · intro j changed hj id hid
    rcases hat hj with ⟨rfl, rfl⟩ | hj
    · exact hpremises id hid
    · exact hp.premise_accessible j changed hj id hid
  · intro changed hchanged
    rcases hmem hchanged with rfl | hchanged
    · exact hascending
    · exact hp.premises_ascending changed hchanged
  · intro id citer
    exact (hciting id citer).trans (exists_mem_modify_premises hp hline).symm

theorem wellFormed_toggleCitation (hp : WellFormed p) {line : Line} {id : LineId}
    (hline : p.lines[index]? = some line) (hid : p.lineId? premise = some id)
    (haccessible : id ∈ line.premises ∨ p.layout.isAccessible premise index = true) :
    WellFormed (toggleCitation setting p index line id).proof := by
  simp only [toggleCitation, notingAt_fst, Line.setPremises_fst]
  -- Verifying the line and resetting the goals change no outline.
  refine WellFormed.congr (outline_eq_of_content_eq (content_verifyLineAt _ _ _)) ?_
  refine WellFormed.congr (outline_eq_of_content_eq (content_resetGoals _)) ?_
  refine ⟨wellFormedLines_with_premises hp.toWellFormedLines hline ?_
    (pairwise_toggled (hp.premises_ascending line (List.mem_of_getElem? hline)) id) ?_ ?_,
    WellFormedGoals.congr (p := p) rfl rfl hp.toWellFormedGoals⟩
  · intro k hk
    rcases mem_toggled.1 hk with ⟨hk, -⟩ | ⟨rfl, hnot⟩
    · exact hp.premise_accessible index line hline k hk
    · exact ⟨premise, (hp.position_iff k premise).2 hid, haccessible.resolve_left hnot⟩
  · intro k citer
    have hciting := hp.id_mem_citing (List.mem_of_getElem? hline) k
    -- The table loses the entry where the citation is taken back, and gains it otherwise.
    split
    · rename_i hcited
      have hcited : id ∈ line.premises := by simpa using hcited
      rw [Citations.mem_citing_remove, mem_toggled]
      by_cases heq : citer = line.id
      · subst heq
        simp only [citing] at hciting
        simp only [hciting, hcited]
        tauto
      · simp [heq, citing]
    · rename_i hcited
      have hcited : id ∉ line.premises := by simpa using hcited
      rw [Citations.mem_citing_add, mem_toggled]
      by_cases heq : citer = line.id
      · subst heq
        simp only [citing] at hciting
        simp only [hciting, hcited]
        tauto
      · simp [heq, citing]
  · intro k
    split
    · exact Citations.pairwise_citing_remove hp.citing_ascending _ _ k
    · exact Citations.pairwise_citing_add hp.citing_ascending _ _ k

/-! ## Goals added and removed -/

theorem goals_renumberGoals (p : Proof) :
    p.renumberGoals.1.goals = p.goals.mapIdx fun index goal => { goal with number := index } := by
  simp only [renumberGoals, noting_fst, List.map_map, List.mapIdx_eq_zipIdx_map]
  exact List.map_congr_left fun _ _ => Goal.setNumber_fst _ _

theorem wellFormed_renumberGoals (hp : WellFormedLines p) (hids : (p.goals.map Goal.id).Nodup)
    (hlt : ∀ goal ∈ p.goals, goal.id < p.nextGoal) : WellFormed p.renumberGoals.1 := by
  have hsame : p.renumberGoals.1.goals.map Goal.id = p.goals.map Goal.id := by
    rw [goals_renumberGoals]
    apply List.ext_getElem?
    intro j
    cases hj : p.goals[j]? <;> simp [hj]
  refine ⟨WellFormedLines.congr (p := p) rfl rfl rfl rfl rfl hp, ?_, ?_, ?_⟩
  · rw [hsame]
    exact hids
  · intro goal hgoal
    have hid : goal.id ∈ p.goals.map Goal.id := hsame ▸ List.mem_map_of_mem hgoal
    obtain ⟨other, hother, heq⟩ := List.mem_map.1 hid
    rw [← heq]
    exact hlt other hother
  · intro index goal hgoal
    rw [goals_renumberGoals, List.getElem?_mapIdx, Option.map_eq_some_iff] at hgoal
    obtain ⟨other, -, rfl⟩ := hgoal
    rfl

theorem wellFormed_insertGoal (hp : WellFormed p) (hindex : index ≤ p.goals.length) :
    WellFormed (p.insertGoal index).proof := by
  have hfresh : p.nextGoal ∉ p.goals.map Goal.id := by
    intro hmem
    obtain ⟨goal, hgoal, hid⟩ := List.mem_map.1 hmem
    exact Nat.lt_irrefl _ (hid ▸ hp.goalId_lt goal hgoal)
  refine wellFormed_renumberGoals
    (WellFormedLines.congr (p := p) rfl rfl rfl rfl rfl hp.toWellFormedLines) ?_ ?_
  · rw [List.map_insertIdx, (List.perm_insertIdx _ _ (by simpa using hindex)).nodup_iff,
      List.nodup_cons]
    exact ⟨hfresh, hp.goalIds_nodup⟩
  · intro goal hgoal
    rcases List.eq_or_mem_of_mem_insertIdx hgoal with rfl | hgoal
    · exact Nat.lt_succ_self _
    · exact Nat.lt_succ_of_lt (hp.goalId_lt goal hgoal)

theorem wellFormed_cutGoal (hp : WellFormed p) (index : Nat) :
    WellFormed (p.cutGoal index).proof := by
  have hsub := List.eraseIdx_sublist p.goals index
  refine wellFormed_renumberGoals
    (WellFormedLines.congr (p := p) rfl rfl rfl rfl rfl hp.toWellFormedLines) ?_ ?_
  · exact hp.goalIds_nodup.sublist (hsub.map _)
  · exact fun goal hgoal => hp.goalId_lt goal (hsub.subset hgoal)

/-! ## Every change -/

/-- A change of a well-formed proof gives a well-formed proof. -/
theorem WellFormed.change (hp : WellFormed p) {events : List Event}
    (h : Change setting p q events) : WellFormed q := by
  have hedited : ∀ {α : Type} {outcome : Outcome α}, WellFormed outcome.proof →
      WellFormed (edited outcome).proof :=
    fun houtcome => houtcome.congr (outline_eq_of_content_eq (content_edited _))
  cases h with
  | verifyLine index => exact hp.congr (outline_eq_of_content_eq (content_verifyLineAt _ _ _))
  | verifyGoal index => exact hp.congr (outline_eq_of_content_eq (content_verifyGoalAt _ _ _))
  | insert index row hindex hvalid => exact hedited (wellFormed_insertLine hp hindex hvalid)
  | remove index hindex hvalid => exact hedited (wellFormed_cutLines hp hvalid)
  | write index text line hline htext => exact hedited (hp.congr (outline_writeLine _ _ _ _))
  | chooseRule index rule? line hline hrule =>
    exact hedited (hp.congr (outline_chooseRule _ _ _ _))
  | toggle index premise line id hline hid hassumption haccessible =>
    exact hedited (wellFormed_toggleCitation hp hline hid haccessible)
  | restrict rules => exact hp.congr (outline_restrict _ _)
  | addGoal index hindex => exact hedited (wellFormed_insertGoal hp hindex)
  | removeGoal index hindex hcount => exact hedited (wellFormed_cutGoal hp index)
  | writeGoal index text goal hgoal htext => exact hedited (hp.congr (outline_writeGoal _ _ _))
  | wait time => exact WellFormed.congr (p := p) rfl hp

/-! ## Where work begins -/

theorem wellFormed_new (restriction : List Rule) : WellFormed (.new restriction) := by
  refine ⟨⟨List.nodup_nil, ?_, ?_, ?_, rfl, rfl, ?_, ?_, ?_, ?_⟩, ?_, ?_, ?_⟩
  all_goals simp [new, position?, lineId?, citing, Citations.citing, Goal.new]
  intro index goal hgoal
  obtain ⟨rfl, rfl⟩ : index = 0 ∧ Goal.mk 1 0 "" .blank = goal := by
    cases index <;> simp_all
  rfl

/-- Loading succeeds on the valid documents, and gives the lines and goals that they describe. -/
theorem ofDocument_eq_ok_iff {document : Document} :
    ofDocument document = .ok p ↔ document.validate = .ok () ∧
      { lines := document.lines.mapIdx ofRecord
        layout := document.layout
        positions := .ofLines (document.lines.mapIdx ofRecord)
        citations := .ofLines (document.lines.mapIdx ofRecord)
        goals := document.goals.mapIdx goalOfText
        restriction := document.restriction
        nextLine := document.lines.length + 1
        nextGoal := document.goals.length + 1
        edits := 0
        consulted := []
        now := 0 } = p := by
  unfold ofDocument
  rw [Except.bind_eq_ok]
  constructor
  · rintro ⟨_, hvalidate, hproof⟩
    cases hproof
    exact ⟨hvalidate, rfl⟩
  · rintro ⟨hvalidate, rfl⟩
    exact ⟨(), hvalidate, rfl⟩

theorem map_mapIdx_eq_range' {α β : Type} (f : Nat → α → β) (id : β → Nat)
    (h : ∀ index a, id (f index a) = index + 1) (as : List α) :
    (as.mapIdx f).map id = List.range' 1 as.length := by
  apply List.ext_getElem
  · rw [List.length_map, List.length_mapIdx, List.length_range']
  · intro index hleft hright
    rw [List.getElem_map, List.getElem_mapIdx, List.getElem_range', h]
    omega

/-- Identities that count from 1 are distinct. -/
theorem nodup_map_mapIdx {α β : Type} (f : Nat → α → β) (id : β → Nat)
    (h : ∀ index a, id (f index a) = index + 1) (as : List α) :
    ((as.mapIdx f).map id).Nodup := by
  rw [map_mapIdx_eq_range' f id h]
  exact List.nodup_range'

theorem exists_of_getElem?_mapIdx {α β : Type} {f : Nat → α → β} {as : List α} {b : β}
    (h : (as.mapIdx f)[index]? = some b) : ∃ a, as[index]? = some a ∧ f index a = b := by
  rwa [List.getElem?_mapIdx, Option.map_eq_some_iff] at h

theorem wellFormedLines_ofDocument {document : Document} (h : ofDocument document = .ok p) :
    WellFormedLines p := by
  obtain ⟨hvalidate, rfl⟩ := ofDocument_eq_ok_iff.1 h
  obtain ⟨-, hlayout, hrecords⟩ := Document.validate_eq_ok_iff.1 hvalidate
  have hids : ((document.lines.mapIdx ofRecord).map Line.id).Nodup :=
    nodup_map_mapIdx ofRecord Line.id (fun _ _ => rfl) document.lines
  refine ⟨hids, ?_, ?_, ?_, ?_, hlayout, ?_, ?_, ?_, ?_⟩
  · intro line hmem
    obtain ⟨index, hat⟩ := List.mem_iff_getElem?.1 hmem
    obtain ⟨record, hrecord, rfl⟩ := exists_of_getElem?_mapIdx hat
    exact Nat.succ_lt_succ (List.getElem?_eq_some_iff.1 hrecord).1
  · exact fun id index => Positions.lookup_ofLines hids
  · intro index line hat
    obtain ⟨record, -, rfl⟩ := exists_of_getElem?_mapIdx hat
    rfl
  · apply List.ext_getElem?
    intro index
    simp only [Document.layout, List.getElem?_map, List.getElem?_mapIdx, Option.map_map]
    rfl
  · intro index line hat id hid
    obtain ⟨record, hrecord, rfl⟩ := exists_of_getElem?_mapIdx hat
    -- The line at position `n` has the identity `n + 1`.
    obtain ⟨premise, hpremise, rfl⟩ := List.mem_map.1 (Ascending.mem_ofList.1 hid)
    have haccessible := (hrecords index record hrecord).2 premise hpremise
    refine ⟨premise, (Positions.lookup_ofLines hids).2 ?_, haccessible⟩
    have hlt := Layout.lt_of_isAccessible haccessible
    have hindex := (List.getElem?_eq_some_iff.1 hrecord).1
    rw [List.getElem?_mapIdx, List.getElem?_eq_getElem (Nat.lt_trans hlt hindex)]
    rfl
  · intro line hmem
    obtain ⟨index, hat⟩ := List.mem_iff_getElem?.1 hmem
    obtain ⟨record, -, rfl⟩ := exists_of_getElem?_mapIdx hat
    exact Ascending.pairwise_ofList _
  · exact fun id citer => Citations.mem_citing_ofLines
  · exact fun id => Citations.pairwise_citing_ofLines _ id

theorem wellFormedGoals_ofDocument {document : Document} (h : ofDocument document = .ok p) :
    WellFormedGoals p := by
  obtain ⟨-, rfl⟩ := ofDocument_eq_ok_iff.1 h
  refine ⟨nodup_map_mapIdx goalOfText Goal.id (fun _ _ => rfl) document.goals, ?_, ?_⟩
  · intro goal hmem
    obtain ⟨index, hat⟩ := List.mem_iff_getElem?.1 hmem
    obtain ⟨text, htext, rfl⟩ := exists_of_getElem?_mapIdx hat
    exact Nat.succ_lt_succ (List.getElem?_eq_some_iff.1 htext).1
  · intro index goal hat
    obtain ⟨text, -, rfl⟩ := exists_of_getElem?_mapIdx hat
    rfl

/-- The proofs that work begins with are well-formed. -/
theorem WellFormed.initial (h : Initial p) : WellFormed p := by
  cases h with
  | new restriction => exact wellFormed_new restriction
  | loaded h => exact ⟨wellFormedLines_ofDocument h, wellFormedGoals_ofDocument h⟩

end Proof

end NaturalDeduction
