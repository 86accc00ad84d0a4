/-
  What holds of every proof.

  A proof keeps its lines in order, and beside them their positions, their rows
  and the citations between them. `WellFormed` says that these agree with each
  other, that the rows are well nested and that lines cite only what they may
  cite. That order and arena of a store agree as well is shown with the store.
  All of this speaks of the outline alone, so verification and the editing of
  texts and rules cannot touch it; every other change keeps it as well.
-/

import NaturalDeduction.Proofs.Store.Change
import NaturalDeduction.Proofs.Store.Tables

namespace NaturalDeduction.Proof

/-- The tables of a proof agree with its lines, whose rows are well nested and whose citations are
allowed. -/
structure WellFormedLines (p : Proof) : Prop where
  ids_nodup : (p.lines.map Line.id).Nodup
  id_lt : ∀ line ∈ p.lines, line.id < p.nextLine
  position_iff : ∀ id index, p.position? id = some index ↔ p.lineId? index = some id
  number_eq : ∀ index (line : Line), p.lines[index]? = some line → line.number = index
  layout_eq : p.layout = p.lines.map Line.row
  valid : p.layout.validate = .ok ()
  premise_accessible : ∀ index (line : Line), p.lines[index]? = some line → ∀ id ∈ line.premises,
    ∃ premise, p.position? id = some premise ∧ p.layout.isAccessible premise index = true
  premises_ascending : ∀ line ∈ p.lines, line.premises.Pairwise (· < ·)
  mem_citing : ∀ id citer, citer ∈ p.citing id ↔
    ∃ line ∈ p.lines, line.id = citer ∧ id ∈ line.premises
  citing_ascending : ∀ id, (p.citing id).Pairwise (· < ·)

/-- The goals of a proof are numbered in order, and no two share an identity. -/
structure WellFormedGoals (p : Proof) : Prop where
  goalIds_nodup : (p.goals.map Goal.id).Nodup
  goalId_lt : ∀ goal ∈ p.goals, goal.id < p.nextGoal
  goalNumber_eq : ∀ index (goal : Goal), p.goals[index]? = some goal → goal.number = index

/-- A proof whose parts agree with each other. -/
structure WellFormed (p : Proof) : Prop extends WellFormedLines p, WellFormedGoals p

variable {p q : Proof}

/-! ## Only the outline matters -/

theorem WellFormedLines.congr (hlines : q.lines.map Line.outline = p.lines.map Line.outline)
    (hlayout : q.layout = p.layout) (hpositions : q.positions = p.positions)
    (hcitations : q.citations = p.citations) (hnext : q.nextLine = p.nextLine)
    (hp : WellFormedLines p) : WellFormedLines q := by
  -- Each line has a counterpart with the same outline, and each table is the same.
  have hids : q.lines.map Line.id = p.lines.map Line.id := by
    have hmap := congrArg (List.map Line.id) hlines
    rwa [List.map_map, List.map_map] at hmap
  have hrows : q.lines.map Line.row = p.lines.map Line.row := by
    have hmap := congrArg (List.map Line.row) hlines
    rwa [List.map_map, List.map_map] at hmap
  have hid : ∀ index, q.lineId? index = p.lineId? index := fun index => by
    simpa [lineId?] using congrArg (·[index]?) hids
  have hline : ∀ {index : Nat} {line : Line}, q.lines[index]? = some line →
      ∃ other : Line, p.lines[index]? = some other ∧ other.outline = line.outline := by
    intro index line hline
    have hat := congrArg (·[index]?) hlines
    simpa [hline] using hat.symm
  have hmem : ∀ {line : Line}, line ∈ q.lines →
      ∃ other ∈ p.lines, other.outline = line.outline := by
    intro line hmem
    have houtline : line.outline ∈ q.lines.map Line.outline := List.mem_map_of_mem hmem
    rw [hlines] at houtline
    exact List.mem_map.1 houtline
  have hciting : q.citing = p.citing := funext fun id => by rw [citing, citing, hcitations]
  have hposition : q.position? = p.position? := funext fun id => by
    rw [position?, position?, hpositions]
  refine ⟨hids ▸ hp.ids_nodup, ?_, ?_, ?_, ?_, hlayout ▸ hp.valid, ?_, ?_, ?_, ?_⟩
  · intro line hmem'
    obtain ⟨other, hother, heq⟩ := hmem hmem'
    have hid := congrArg Line.id heq
    rw [hnext, show line.id = other.id from hid.symm]
    exact hp.id_lt other hother
  · intro id index
    rw [hposition, hid]
    exact hp.position_iff id index
  · intro index line hline'
    obtain ⟨other, hother, heq⟩ := hline hline'
    have hnumber := congrArg Line.number heq
    rw [show line.number = other.number from hnumber.symm]
    exact hp.number_eq index other hother
  · rw [hlayout, hrows]
    exact hp.layout_eq
  · intro index line hline' id hid'
    obtain ⟨other, hother, heq⟩ := hline hline'
    have hpremises := congrArg Line.premises heq
    rw [show line.premises = other.premises from hpremises.symm] at hid'
    rw [hposition, hlayout]
    exact hp.premise_accessible index other hother id hid'
  · intro line hmem'
    obtain ⟨other, hother, heq⟩ := hmem hmem'
    have hpremises := congrArg Line.premises heq
    rw [show line.premises = other.premises from hpremises.symm]
    exact hp.premises_ascending other hother
  · intro id citer
    rw [hciting, hp.mem_citing]
    have hcites : ∀ lines : List Line, (∃ line ∈ lines, line.id = citer ∧ id ∈ line.premises) ↔
        ∃ line ∈ lines.map Line.outline, line.id = citer ∧ id ∈ line.premises := by
      intro lines
      simp only [List.mem_map, exists_exists_and_eq_and]
      rfl
    rw [hcites p.lines, hcites q.lines, hlines]
  · intro id
    rw [hciting]
    exact hp.citing_ascending id

theorem WellFormedGoals.congr (hgoals : q.goals.map Goal.outline = p.goals.map Goal.outline)
    (hnext : q.nextGoal = p.nextGoal) (hp : WellFormedGoals p) : WellFormedGoals q := by
  have hids : q.goals.map Goal.id = p.goals.map Goal.id := by
    have hmap := congrArg (List.map Goal.id) hgoals
    rwa [List.map_map, List.map_map] at hmap
  refine ⟨hids ▸ hp.goalIds_nodup, ?_, ?_⟩
  · intro goal hmem
    have hid : goal.id ∈ p.goals.map Goal.id := hids ▸ List.mem_map_of_mem hmem
    obtain ⟨other, hother, heq⟩ := List.mem_map.1 hid
    rw [hnext, ← heq]
    exact hp.goalId_lt other hother
  · intro index goal hgoal
    have hat := congrArg (·[index]?) hgoals
    obtain ⟨other, hother, heq⟩ : ∃ other : Goal, p.goals[index]? = some other ∧
        other.outline = goal.outline := by
      simpa [hgoal] using hat.symm
    have hnumber := congrArg Goal.number heq
    rw [show goal.number = other.number from hnumber.symm]
    exact hp.goalNumber_eq index other hother

/-- The same for the outline as a whole. -/
theorem WellFormedLines.congr_outline (h : q.outline = p.outline) (hp : WellFormedLines p) :
    WellFormedLines q := by
  have hlines := congrArg Proof.lines h
  have hlayout := congrArg Proof.layout h
  have hpositions := congrArg Proof.positions h
  have hcitations := congrArg Proof.citations h
  have hnext := congrArg Proof.nextLine h
  exact hp.congr hlines hlayout hpositions hcitations hnext

/-- A proof with the outline of a well-formed one is well-formed. -/
theorem WellFormed.congr (h : q.outline = p.outline) (hp : WellFormed p) : WellFormed q := by
  have hgoals := congrArg Proof.goals h
  have hnext := congrArg Proof.nextGoal h
  exact ⟨hp.toWellFormedLines.congr_outline h, hp.toWellFormedGoals.congr hgoals hnext⟩

/-! ## Consequences -/

theorem mem_premiseNumbers {cited : Nat} {line : Line} :
    cited ∈ p.premiseNumbers line ↔ ∃ id ∈ line.premises, p.position? id = some cited := by
  rw [premiseNumbers, Ascending.mem_ofList, List.mem_filterMap]

namespace WellFormedLines

theorem length_layout (hp : WellFormedLines p) : p.layout.length = p.lines.length := by
  rw [hp.layout_eq, List.length_map]

theorem isAssumption_eq (hp : WellFormedLines p) {index : Nat} {line : Line}
    (hline : p.lines[index]? = some line) : p.layout.isAssumption index = line.assumption := by
  simp [Layout.isAssumption, hp.layout_eq, hline, Line.row]

theorem levelAt_eq (hp : WellFormedLines p) {index : Nat} {line : Line}
    (hline : p.lines[index]? = some line) : p.layout.levelAt index = line.level := by
  simp [Layout.levelAt, hp.layout_eq, hline, Line.row]

/-- The identity that is issued next belongs to no line. -/
theorem nextLine_not_mem (hp : WellFormedLines p) : p.nextLine ∉ p.lines.map Line.id := by
  intro hmem
  obtain ⟨line, hline, hid⟩ := List.mem_map.1 hmem
  exact Nat.lt_irrefl _ (hid ▸ hp.id_lt line hline)

/-- Assumptions cite nothing. -/
theorem premises_eq_nil (hp : WellFormedLines p) {line : Line} (hmem : line ∈ p.lines)
    (hassumption : line.assumption = true) : line.premises = [] := by
  obtain ⟨index, hline⟩ := List.mem_iff_getElem?.1 hmem
  refine List.eq_nil_iff_forall_not_mem.2 fun id hid => ?_
  obtain ⟨premise, -, haccessible⟩ := hp.premise_accessible index line hline id hid
  have hnot := (Layout.isAccessible_iff.1 haccessible).2.2.1
  rw [hp.isAssumption_eq hline, hassumption] at hnot
  cases hnot

theorem eq_of_lineId? (hp : WellFormedLines p) {i j : Nat} {id : LineId}
    (hi : p.lineId? i = some id) (hj : p.lineId? j = some id) : i = j := by
  rw [← hp.position_iff] at hi hj
  simpa [hi] using hj

/-- Whether a line is recorded as citing another one is up to its own premises. -/
theorem id_mem_citing (hp : WellFormedLines p) {line : Line} (hmem : line ∈ p.lines)
    (id : LineId) : line.id ∈ p.citing id ↔ id ∈ line.premises := by
  rw [hp.mem_citing]
  refine ⟨fun ⟨other, hother, heq, hid⟩ => ?_, fun hid => ⟨line, hmem, rfl, hid⟩⟩
  obtain rfl := List.inj_on_of_nodup_map hp.ids_nodup hother hmem heq
  exact hid

end WellFormedLines

end NaturalDeduction.Proof
