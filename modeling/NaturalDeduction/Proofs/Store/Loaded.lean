/-
  The stores that work begins with.

  A document is stored in four passes: its lines are put into order and arena,
  then they are made to cite each other by identity, then they are settled, and
  at last the goals follow. No pass stops, and the store represents the proof
  that the document describes: in a valid document every line may cite what it
  cites, so settling leaves it as it is.
-/

import NaturalDeduction.Proofs.Checker.Loading
import NaturalDeduction.Proofs.Store.Preservation
import NaturalDeduction.Proofs.Store.Represented

namespace NaturalDeduction

open Trapping

/-! ## Setting texts -/

@[simp] theorem Line.setText_new (id : LineId) (number : Nat) (row : Row) (text : String) :
    ((Line.new id number row).setText text).1 = { Line.new id number row with text } := by
  unfold setText
  split
  · rename_i h
    rw [← h]
  · rfl

@[simp] theorem Line.setRule_fst (rule? : Option Rule) (line : Line) :
    (line.setRule rule?).1 = { line with rule? } := by
  unfold setRule
  split
  · rename_i h
    rw [← h]
  · rfl

@[simp] theorem Goal.setText_new (id : GoalId) (number : Nat) (text : String) :
    ((Goal.new id number).setText text).1 = { Goal.new id number with text } := by
  unfold setText
  split
  · rename_i h
    rw [← h]
  · rfl

namespace Store

variable {store : Store} {p : Proof} {document : Document} {front records : List LineRecord}

/-! ## Lines -/

/-- The line of a record before it cites anything. -/
def unciting (number : Nat) (record : LineRecord) : Line :=
  { Proof.ofRecord number record with premises := [] }

/-- Lines are appended with the identities that come next. -/
theorem appendEach_represents (records : List LineRecord)
    (h : store.arena.Holds store.order (front.mapIdx unciting))
    (hnext : store.nextLine = front.length + 1) :
    (appendEach records store).Represents
      { store.around ((front ++ records).mapIdx unciting) with
        nextLine := (front ++ records).length + 1 } := by
  induction records generalizing store front with
  | nil =>
    rw [List.append_nil, ← hnext]
    exact .intro _ h
  | cons record records ih =>
    have hlength : store.order.length = front.length := by
      rw [← h.length_eq, List.length_mapIdx]
    have hline : (Line.setRule record.rule? (Line.setText record.text (Line.new store.nextLine
        store.order.length ⟨record.depth, record.assumption⟩)).1).1 =
          unciting front.length record := by
      rw [Line.setText_new, Line.setRule_fst, hnext, hlength]
      rfl
    have hnew : (unciting front.length record).id ∉ store.order := by
      rw [← h.ids_eq]
      intro hmem
      obtain ⟨line, hline, hid⟩ := List.mem_map.1 hmem
      obtain ⟨index, hindex⟩ := List.mem_iff_getElem?.1 hline
      obtain ⟨other, hother, rfl⟩ := Proof.exists_of_getElem?_mapIdx hindex
      have hlt := (List.getElem?_eq_some_iff.1 hother).1
      exact absurd (Nat.succ.inj hid) (Nat.ne_of_lt hlt)
    have hheld := h.insertIdx (Nat.le_refl store.order.length) hnew
    rw [List.insertIdx_length_self, ← h.length_eq, List.insertIdx_length_self,
      ← List.mapIdx_concat] at hheld
    rw [List.append_cons]
    simp only [appendEach, hline]
    refine ih ?_ ?_
    · rw [hnext]
      exact hheld
    · rw [hnext, List.length_append]
      rfl

/-! ## Citations -/

/-- Every line is found, and so is every line that it is to cite. -/
theorem citeEach_eq_ok (h : store.arena.Holds store.order (front.mapIdx Proof.ofRecord ++
      records.mapIdx fun offset => unciting (offset + front.length)))
    (hids : store.order = List.range' 1 store.order.length)
    (hpremises : ∀ record ∈ records, ∀ premise ∈ record.premises, premise < store.order.length) :
    ∃ after, citeEach front.length records store = .ok after ∧
      after.Represents (store.around ((front ++ records).mapIdx Proof.ofRecord)) := by
  induction records generalizing store front with
  | nil =>
    refine ⟨store, rfl, ?_⟩
    rw [List.mapIdx_nil, List.append_nil] at h
    rw [List.append_nil]
    exact .intro _ h
  | cons record records ih =>
    obtain ⟨hfirst, hothers⟩ := List.forall_mem_cons.1 hpremises
    have hlook : ∀ index < store.order.length, lookUp store.order index = .ok (index + 1) := by
      intro index hindex
      rw [hids]
      exact lookUp_eq_ok (Machine.getElem?_range'_one hindex)
    have hcited : record.premises.mapM (lookUp store.order) =
        .ok (record.premises.map (· + 1)) :=
      mapM_eq_ok fun premise hpremise => hlook premise (hfirst premise hpremise)
    have hlength : front.length < store.order.length := by
      rw [← h.length_eq]
      simp
    rw [List.mapIdx_cons, Nat.zero_add] at h
    have hdone : (front.mapIdx Proof.ofRecord).length = front.length := List.length_mapIdx
    have hline : (front.mapIdx Proof.ofRecord ++ unciting front.length record ::
        records.mapIdx fun offset => unciting (offset + 1 + front.length))[front.length]? =
          some (unciting front.length record) := by
      rw [List.getElem?_append_right (Nat.le_of_eq hdone), hdone, Nat.sub_self]
      rfl
    have hfetch : store.arena.fetch (front.length + 1) = .ok (unciting front.length record) :=
      h.fetch_eq_ok hline
    have hciting : ((unciting front.length record).setPremises
        (Ascending.ofList (record.premises.map (· + 1)))).1 =
          Proof.ofRecord front.length record := by
      rw [Line.setPremises_fst]
      rfl
    have hid : (Proof.ofRecord front.length record).id = (unciting front.length record).id := rfl
    have hheld := h.hold hline hid
    rw [List.set_append_right _ _ (Nat.le_of_eq hdone), hdone, Nat.sub_self, List.set_cons_zero,
      List.append_cons, ← List.mapIdx_concat] at hheld
    rw [citeEach, hcited, hlook _ hlength]
    simp only [bind, Except.bind, hfetch, hciting]
    rw [List.append_cons, show front.length + 1 = (front ++ [record]).length by simp]
    refine ih ?_ hids hothers
    simp only [List.length_append, List.length_singleton, Nat.add_assoc, Nat.add_comm 1] at hheld ⊢
    exact hheld

/-! ## Settling -/

/-- Lines that may cite what they cite stay as they are when they are settled in their rows. -/
theorem placeAll_eq_self (hp : p.WellFormedLines) (hpositions : p.positions = .ofLines p.lines)
    (hcitations : p.citations = .ofLines p.lines) : (p.placeAll p.layout).1 = p := by
  have hlines : (p.placeAll p.layout).1.lines = p.lines := by
    apply List.ext_getElem?
    intro index
    rw [Proof.getElem?_lines_placeAll]
    cases hline : p.lines[index]? with
    | none => rfl
    | some line =>
      have hindexed : p.indexed p.layout = p := by
        rw [Proof.indexed, ← hpositions]
      have hkept : p.keptPremises index line = line.premises :=
        List.filter_eq_self.2 fun id hid => by
          obtain ⟨premise, hpremise, haccessible⟩ := hp.premise_accessible index line hline id hid
          rw [hpremise]
          exact haccessible
      rw [Option.map_some, hindexed, Proof.place_fst, if_pos hkept, ← hp.number_eq index line hline]
  have hplaced : (p.placeAll p.layout).1 =
      { p with
        positions := .ofLines p.lines
        lines := (p.placeAll p.layout).1.lines
        citations := .ofLines (p.placeAll p.layout).1.lines } := rfl
  rw [hplaced, hlines, ← hpositions, ← hcitations]

/-! ## Goals -/

theorem appendGoals_eq (texts : List String) {former : List String}
    (hgoals : store.goals = former.mapIdx Proof.goalOfText)
    (hnext : store.nextGoal = former.length + 1) :
    appendGoals texts store =
      { store with
        goals := (former ++ texts).mapIdx Proof.goalOfText
        nextGoal := (former ++ texts).length + 1 } := by
  induction texts generalizing store former with
  | nil => rw [List.append_nil, ← hgoals, ← hnext, appendGoals]
  | cons text texts ih =>
    have hcount : store.goals.length = former.length :=
      (congrArg List.length hgoals).trans List.length_mapIdx
    have hgoals' : store.goals ++ [{ Goal.new store.nextGoal store.goals.length with text }] =
        (former ++ [text]).mapIdx Proof.goalOfText := by
      rw [List.mapIdx_concat, ← hgoals, hcount, hnext]
      rfl
    have hnext' : store.nextGoal + 1 = (former ++ [text]).length + 1 := by
      rw [hnext, List.length_append, List.length_singleton]
    rw [List.append_cons]
    simp only [appendGoals, Goal.setText_new]
    rw [ih hgoals' hnext']

theorem appendGoals_represents (h : store.Represents p) (texts : List String)
    (hgoals : p.goals = []) (hnext : p.nextGoal = 1) :
    (appendGoals texts store).Represents
      { p with goals := texts.mapIdx Proof.goalOfText, nextGoal := texts.length + 1 } := by
  cases h with
  | intro lines h =>
    have hempty : store.goals = List.mapIdx Proof.goalOfText [] := hgoals
    rw [appendGoals_eq texts hempty hnext]
    exact .intro lines h

/-! ## Documents -/

theorem wellFormedLines_withoutGoals (hp : p.WellFormedLines) :
    Proof.WellFormedLines { p with goals := [], nextGoal := 1 } :=
  Proof.WellFormedLines.congr (p := p) rfl rfl rfl rfl rfl hp

/-- The lines of a valid document are put in order and made to cite each other. -/
theorem exists_citeEach_eq_ok (h : document.validate = .ok ()) :
    ∃ cited, citeEach 0 document.lines
        (appendEach document.lines (empty document.restriction)) = .ok cited ∧
      cited.Represents
        { (empty document.restriction).around (document.lines.mapIdx Proof.ofRecord) with
          nextLine := document.lines.length + 1 } := by
  obtain ⟨-, -, hrecords⟩ := Document.validate_eq_ok_iff.1 h
  have hempty : (empty document.restriction).arena.Holds (empty document.restriction).order
      (List.mapIdx unciting []) := .empty
  have happended := appendEach_represents document.lines hempty rfl
  generalize appendEach document.lines (empty document.restriction) = appended at happended ⊢
  have hids : appended.order = List.range' 1 document.lines.length := by
    rw [← happended.holds.ids_eq]
    exact Proof.map_mapIdx_eq_range' unciting Line.id (fun _ _ => rfl) document.lines
  have hcount : appended.order.length = document.lines.length := by
    rw [hids, List.length_range']
  have hpremises : ∀ record ∈ document.lines, ∀ premise ∈ record.premises,
      premise < appended.order.length := by
    intro record hmem premise hpremise
    obtain ⟨index, hrecord⟩ := List.mem_iff_getElem?.1 hmem
    have hlt := Layout.lt_of_isAccessible ((hrecords index record hrecord).2 premise hpremise)
    exact hcount ▸ Nat.lt_trans hlt (List.getElem?_eq_some_iff.1 hrecord).1
  have hunciting : appended.arena.Holds appended.order (List.mapIdx Proof.ofRecord [] ++
      document.lines.mapIdx fun offset => unciting (offset + 0)) := happended.holds
  obtain ⟨cited, hcite, hcited⟩ := citeEach_eq_ok hunciting (hcount.symm ▸ hids) hpremises
  refine ⟨cited, hcite, ?_⟩
  -- Citing leaves all but the lines as they were appended.
  have hfields := congrArg
    (fun p : Proof => { p with lines := document.lines.mapIdx Proof.ofRecord }) happended.around_eq
  exact hfields ▸ hcited

/-- A valid document is stored, as the proof that it describes. -/
theorem ofDocument_eq_ok (h : Proof.ofDocument document = .ok p) :
    ∃ store, ofDocument document = .ok (.ok store) ∧ store.Represents p := by
  have hp := Proof.wellFormedLines_ofDocument h
  obtain ⟨hvalidate, rfl⟩ := Proof.ofDocument_eq_ok_iff.1 h
  obtain ⟨cited, hcite, hcited⟩ := exists_citeEach_eq_ok hvalidate
  have hrows : document.layout.length = (document.lines.mapIdx Proof.ofRecord).length := by
    rw [List.length_mapIdx, Machine.length_layout]
  obtain ⟨laid, hlay, hlaid⟩ := relayout_eq_ok hcited hrows
  -- Rows and tables are those of the document, so nothing moves and nothing is dropped.
  have hplaced := placeAll_eq_self (wellFormedLines_withoutGoals hp) rfl rfl
  rw [ofDocument, hvalidate]
  simp only [bind, Except.bind, hcite, hlay]
  exact ⟨_, rfl, appendGoals_represents (hplaced ▸ hlaid) document.goals rfl rfl⟩

end Store

end NaturalDeduction
