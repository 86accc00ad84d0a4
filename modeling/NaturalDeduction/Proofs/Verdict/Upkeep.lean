/-
  Every edit keeps every condition.

  Every change of a proof drops the marks that it may have made stale. A text
  that is edited concerns the lines that cite it and those that cite the
  subproof it concludes; a rule or a citation concerns its own line alone, which
  is verified at once; lines that come and go concern the lines that lost a
  citation and those that cite a subproof whose lines changed. Every edit
  concerns the goals. So what every verification establishes holds throughout.
-/

import NaturalDeduction.Proofs.Store.Performed
import NaturalDeduction.Proofs.Verdict.Rearranged
import NaturalDeduction.Proofs.Verdict.Visits

namespace NaturalDeduction.Proof

variable {setting : Setting} {p q : Proof} {index : Nat} {line : Line}

/-! ## Lines that stay where they are -/

/-- Every cited position holds a line that is cited. -/
theorem exists_of_mem_premiseNumbers (hp : WellFormedLines p) {cited : Nat}
    (h : cited ∈ p.premiseNumbers line) : ∃ id ∈ line.premises, p.lineId? cited = some id := by
  obtain ⟨id, hid, hposition⟩ := mem_premiseNumbers.1 h
  exact ⟨id, hid, (hp.position_iff id cited).1 hposition⟩

/-- Where lines stay, premises change only with the sentences that they hold. -/
theorem premisesById_congr (hids : q.lines.map Line.id = p.lines.map Line.id)
    (hlayout : q.layout = p.layout) (hpositions : q.positions = p.positions)
    (hcited : ∀ cited ∈ p.premiseNumbers line, q.sentenceAt? cited = p.sentenceAt? cited)
    (hconclusions : ∀ cited ∈ p.premiseNumbers line,
      p.layout.isSubproofPremise cited index = true →
      ∀ position ∈ p.layout.subproofConclusions cited,
        q.sentenceAt? position = p.sentenceAt? position) :
    q.premisesById index line = p.premisesById index line := by
  have hsentence : ∀ {position}, q.sentenceAt? position = p.sentenceAt? position →
      q.sentenceAt position = p.sentenceAt position := fun h => by rw [sentenceAt, sentenceAt, h]
  have hnumbers : q.premiseNumbers line = p.premiseNumbers line := by
    have hposition : q.position? = p.position? := funext fun id => by
      rw [position?, position?, hpositions]
    rw [premiseNumbers, premiseNumbers, hposition]
  rw [premisesById, premisesById, premisesOf, premisesOf, hnumbers, lineId?_congr hids]
  congr 1
  have hsame : List.Forall₂ (fun a b => a = b ∧ a ∈ p.premiseNumbers line)
      (p.premiseNumbers line) (p.premiseNumbers line) :=
    List.forall₂_same.2 fun _ hmem => ⟨rfl, hmem⟩
  refine Except.mapM_congr_forall₂ hsame ?_
  rintro cited _ ⟨rfl, hmem⟩
  rw [premiseAt, premiseAt, hlayout, hsentence (hcited cited hmem)]
  cases hcase : p.layout.isSubproofPremise cited index with
  | false => rfl
  | true =>
    have hposition : List.Forall₂ (fun a b => a = b ∧ q.sentenceAt b = p.sentenceAt a)
        (p.layout.subproofConclusions cited) (p.layout.subproofConclusions cited) :=
      List.forall₂_same.2 fun position hposition =>
        ⟨rfl, hsentence (hconclusions cited hmem hcase position hposition)⟩
    rw [Except.mapM_congr_forall₂ hposition And.right]

/-! ## Editing a text -/

theorem mem_dependentsAt {id : LineId} : id ∈ p.dependentsAt index ↔
    (∃ cited, p.lineId? index = some cited ∧ id ∈ p.citing cited) ∨
      ∃ opener cited, p.layout.concludedSubproof? index = some opener ∧
        p.lineId? opener = some cited ∧ id ∈ p.citing cited := by
  -- The lines that cite the line at an optional position.
  have hciting : ∀ position? : Option Nat,
      id ∈ ((position?.bind p.lineId?).map p.citing).getD [] ↔
        ∃ position cited, position? = some position ∧ p.lineId? position = some cited ∧
          id ∈ p.citing cited := by
    intro position?
    cases position? with
    | none => simp
    | some position => cases hid : p.lineId? position <;> simp [hid]
  simp only [dependentsAt, Ascending.mem_foldr_insert, hciting, Option.some.injEq, exists_and_left,
    exists_eq_left']
  exact or_comm

/-- A line that does not depend on an edited one has the same premises as before. -/
theorem premisesById_of_not_mem_dependentsAt (hp : WellFormedLines p) {i : Nat}
    (hline : p.lines[i]? = some line) (hnot : line.id ∉ p.dependentsAt index)
    (hids : q.lines.map Line.id = p.lines.map Line.id) (hlayout : q.layout = p.layout)
    (hpositions : q.positions = p.positions)
    (hsentence : ∀ j, j ≠ index → q.sentenceAt? j = p.sentenceAt? j) :
    q.premisesById i line = p.premisesById i line := by
  have hciting := hp.id_mem_citing (List.mem_of_getElem? hline)
  refine premisesById_congr hids hlayout hpositions (fun cited hcited => ?_)
    (fun cited hcited hcase position hposition => ?_)
  -- The edited line is not cited.
  · obtain ⟨id, hid, hat⟩ := exists_of_mem_premiseNumbers hp hcited
    refine hsentence cited ?_
    rintro rfl
    exact hnot (mem_dependentsAt.2 (.inl ⟨id, hat, (hciting id).2 hid⟩))
  -- Nor is it a conclusion of a cited subproof.
  · obtain ⟨id, hid, hat⟩ := exists_of_mem_premiseNumbers hp hcited
    refine hsentence position ?_
    rintro rfl
    have hopens := Layout.opens_of_isSubproofPremise hcase
    have hconcluded := Layout.concludedSubproof?_eq_some hp.valid hopens hposition
    exact hnot (mem_dependentsAt.2 (.inr ⟨cited, id, hconcluded, hat, (hciting id).2 hid⟩))

/-! ## Choosing a rule or a citation -/

/-- Where a line changes without its text, the premises of the lines stay. -/
theorem premisesById_modify (p : Proof) {change : Line → Line}
    (hid : ∀ line, (change line).id = line.id) (htext : ∀ line, (change line).text = line.text)
    (citations : Citations) (i : Nat) (line : Line) :
    ({ p with lines := p.lines.modify index change, citations } : Proof).premisesById i line =
      p.premisesById i line := by
  have hsentence : ∀ j, ({ p with lines := p.lines.modify index change, citations } :
      Proof).sentenceAt? j = p.sentenceAt? j := by
    intro j
    rw [sentenceAt?, sentenceAt?, List.getElem?_modify]
    cases p.lines[j]? with
    | none => rfl
    | some line =>
      by_cases hj : index = j
      · simp [hj, Line.sentence?, htext]
      · simp [hj]
  exact premisesById_congr (map_modify_eq hid p.lines index) rfl rfl
    (fun cited _ => hsentence cited) fun _ _ _ position _ => hsentence position

/-! ## Conditions are kept -/

namespace Condition

variable {c : Condition}

/-! ### Verifications one after the other -/

/-- A proof with the lines of another one, in the same order, in which the condition holds. -/
structure Beside (c : Condition) (p q : Proof) : Prop where
  holds : c.Holds q
  ids_eq : q.lines.map Line.id = p.lines.map Line.id

theorem Beside.verifyLineAt (hq : Beside c p q) (h : c.Established setting p) (index : Nat) :
    Beside c p (verifyLineAt setting q index).proof where
  holds := hq.holds.verifyLineAt (h.congr hq.ids_eq) index
  ids_eq := (ids_eq_of_content_eq (content_verifyLineAt ..)).trans hq.ids_eq

theorem Beside.verifyGoalAt (hq : Beside c p q) (h : c.Established setting p) (index : Nat) :
    Beside c p (verifyGoalAt setting q index).proof where
  holds := hq.holds.verifyGoalAt (h.congr hq.ids_eq) index
  ids_eq := (ids_eq_of_content_eq (content_verifyGoalAt ..)).trans hq.ids_eq

namespace Holds

/-! ### Editing a text -/

/-- When a line is blanked with another text, blanking the lines that depend on it is enough. -/
theorem change_text (hp : c.Holds p) (hwell : WellFormedLines p) {change : Line → Line}
    (houtline : ∀ line, (change line).outline = line.outline)
    (hblank : ∀ line, p.lines[index]? = some line →
      (change line).mark = .blank ∧ (change line).claim? = none) :
    c.Holds (({ p with lines := p.lines.modify index change } : Proof).invalidateEach
      (p.dependentsAt index)).1.resetGoals.1 := by
  have houtlines := outline_with_lines (map_modify_eq houtline p.lines index)
  have hwell' := hwell.congr_outline houtlines
  refine .of_invalidateEach hwell' fun i other hother hnot => ?_
  by_cases hi : index = i
  · subst hi
    rw [List.getElem?_modify_eq] at hother
    obtain ⟨line, hline, hchanged⟩ := Option.map_eq_some_iff.1 hother
    obtain ⟨hmark, hclaim⟩ := hblank line hline
    exact c.line_blank _ index (hchanged ▸ hmark) (hchanged ▸ hclaim)
  · rw [List.getElem?_modify_ne _ _ hi] at hother
    have hsentence : ∀ j, j ≠ index → ({ p with lines := p.lines.modify index change } :
        Proof).sentenceAt? j = p.sentenceAt? j := by
      intro j hj
      rw [sentenceAt?, sentenceAt?, List.getElem?_modify_ne _ _ (Ne.symm hj)]
    refine c.congr_line (hp.line i other id hother) rfl rfl rfl ?_
    exact premisesById_of_not_mem_dependentsAt hwell hother hnot (ids_eq_of_outline_eq houtlines)
      rfl rfl hsentence

theorem writeLine (hp : c.Holds p) (hwell : WellFormedLines p)
    (hline : p.lines[index]? = some line) {text : String} (htext : line.text ≠ text)
    (setting : Setting) : c.Holds (writeLine setting p index text).1 := by
  simp only [Proof.writeLine, notingAt_fst]
  refine hp.change_text hwell (fun line => Line.outline_setText text line) fun other hother => ?_
  rw [hline] at hother
  cases hother
  simp only [Line.setText, if_neg htext]
  exact ⟨rfl, rfl⟩

/-! ### Choosing a rule or a citation -/

/-- A line that gets another rule or other citations is verified at once. -/
theorem change_line (hp : c.Holds p) (h : c.Established setting p) {change : Line → Line}
    (hid : ∀ line, (change line).id = line.id) (htext : ∀ line, (change line).text = line.text)
    (citations : Citations) :
    c.Holds (Proof.verifyLineAt setting ({ p with
      lines := p.lines.modify index change, citations } : Proof).resetGoals.1 index).proof := by
  refine HoldsExcept.verifyLineAt ⟨fun i other hi hother => ?_,
    fun goal hgoal => onGoal_of_mem_resetGoals hgoal⟩ (h.congr (map_modify_eq hid p.lines index))
  have hsame : p.lines[i]? = some other := by
    have hat : (p.lines.modify index change)[i]? = some other := hother
    rwa [List.getElem?_modify_ne _ _ (Ne.symm hi)] at hat
  refine c.congr_line (hp.line i other id hsame) rfl rfl rfl ?_
  exact premisesById_modify p hid htext citations i other

theorem chooseRule (hp : c.Holds p) (h : c.Established setting p) (index : Nat)
    (rule? : Option Rule) : c.Holds (chooseRule setting p index rule?).proof := by
  simp only [Proof.chooseRule, notingAt_fst]
  refine hp.change_line h (fun line => ?_) (fun line => ?_) p.citations <;>
    unfold Line.setRule <;> split <;> rfl

theorem toggleCitation (hp : c.Holds p) (h : c.Established setting p) (index : Nat)
    (line : Line) (id : LineId) : c.Holds (toggleCitation setting p index line id).proof := by
  simp only [Proof.toggleCitation, notingAt_fst]
  exact hp.change_line h (fun line => by rw [Line.setPremises_fst])
    (fun line => by rw [Line.setPremises_fst]) _

/-! ### Changing the restriction -/

theorem restrict (c : Condition) (p : Proof) (rules : List Rule) :
    c.Holds (p.restrict rules).proof := by
  refine ⟨fun index line _ hline => ?_, fun goal hgoal => onGoal_of_mem_resetGoals hgoal⟩
  simp only [Proof.restrict, edited, resetGoals, noting_fst, List.getElem?_map,
    Option.map_eq_some_iff] at hline
  obtain ⟨before, -, rfl⟩ := hline
  exact c.invalidate _ index before

/-! ### Goals -/

/-- Where goals are added, removed or edited, lines are not concerned. -/
theorem change_goals (hp : c.Holds p) (h : q.visible = p.visible) (hlines : q.lines = p.lines)
    (hgoals : ∀ goal ∈ q.goals, goal.mark = .blank ∨
      ∃ before ∈ p.goals, goal.text = before.text ∧ goal.mark = before.mark) : c.Holds q := by
  refine hp.congr h hlines fun goal hgoal => .inr ?_
  rcases hgoals goal hgoal with hblank | ⟨before, hbefore, htext, hmark⟩
  · exact c.goal_blank q hblank
  · exact c.congr_goal (hp.goal before hbefore) h htext hmark

theorem renumberGoals (hp : c.Holds p) (h : q.visible = p.visible) (hlines : q.lines = p.lines)
    (hgoals : ∀ goal ∈ q.goals, goal.mark = .blank ∨ goal ∈ p.goals) :
    c.Holds q.renumberGoals.1 := by
  refine hp.change_goals h hlines fun goal hgoal => ?_
  rw [goals_renumberGoals] at hgoal
  obtain ⟨i, hi, rfl⟩ := List.mem_mapIdx.1 hgoal
  rcases hgoals q.goals[i] (List.getElem_mem hi) with hblank | hmem
  · exact .inl hblank
  · exact .inr ⟨q.goals[i], hmem, rfl, rfl⟩

theorem insertGoal (hp : c.Holds p) (index : Nat) : c.Holds (p.insertGoal index).proof := by
  refine hp.renumberGoals rfl rfl fun goal hgoal => ?_
  rcases List.eq_or_mem_of_mem_insertIdx hgoal with rfl | hgoal
  · exact .inl rfl
  · exact .inr hgoal

theorem cutGoal (hp : c.Holds p) (index : Nat) : c.Holds (p.cutGoal index).proof :=
  hp.renumberGoals rfl rfl fun _ hgoal => .inr ((List.eraseIdx_sublist _ _).subset hgoal)

theorem writeGoal (hp : c.Holds p) {goal : Goal} (hgoal : p.goals[index]? = some goal)
    {text : String} (htext : goal.text ≠ text) : c.Holds (p.writeGoal index text).proof := by
  have hset : (p.writeGoal index text).proof.goals = p.goals.set index (goal.setText text).1 := by
    simp only [Proof.writeGoal, notingAt, hgoal]
  refine hp.change_goals rfl rfl fun other hother => ?_
  rw [hset] at hother
  rcases List.mem_or_eq_of_mem_set hother with hother | rfl
  · exact .inr ⟨other, hother, rfl, rfl⟩
  · refine .inl ?_
    simp only [Goal.setText, if_neg htext, Goal.reset, Goal.setMark]

/-! ### Every operation -/

/-- Counting an edit leaves everything that is shown as it was. -/
theorem edited {α : Type} {outcome : Outcome α} (hp : c.Holds outcome.proof) :
    c.Holds (edited outcome).proof :=
  hp.congr rfl rfl fun _ hgoal => .inl hgoal

theorem rewritten (hp : c.Holds p) (hwell : WellFormed p) (hline : p.lines[index]? = some line)
    {text : String} (htext : line.text ≠ text) (setting : Setting) :
    c.Holds (rewritten setting p index text) :=
  (hp.writeLine hwell.toWellFormedLines hline htext setting).congr rfl rfl
    fun _ hgoal => .inl hgoal

theorem verifyAll (hp : c.Holds p) (h : c.Established setting p) :
    c.Holds (p.verifyAll setting).proof :=
  (verifyAll_keep (Beside c p) (fun index hq => hq.verifyLineAt h index)
    (fun index hq => hq.verifyGoalAt h index) ⟨hp, rfl⟩).holds

theorem advance (hp : c.Holds p) (h : c.Established setting p) (milliseconds : Nat) :
    c.Holds (p.advance setting milliseconds).proof :=
  (advance_keep (Beside c p) (fun index hq => hq.verifyLineAt h index) milliseconds
    ⟨hp.congr rfl rfl fun _ hgoal => .inl hgoal, rfl⟩).holds

/-- Every operation keeps a condition that verifications establish. -/
theorem performed (hp : c.Holds p) (hwell : WellFormed p) (hwell' : WellFormed q)
    (h : c.Established setting p) {operation : Operation} {reply : Reply}
    (hperformed : Performed setting p operation reply q) : c.Holds q := by
  -- One case for each operation that is carried out.
  cases hperformed with
  | insert hinserts index row => exact (hp.insertLine hwell hwell'.of_edited).edited
  | delete index hindex => exact (hp.cutLines hwell hwell'.of_edited).edited
  | keepText index line hline => exact hp
  | setText index text line hline htext => exact hp.rewritten hwell hline htext setting
  | keepRule index line hline => exact hp.verifyLineAt h index
  | setRule index rule? line hline hrule => exact (hp.chooseRule h index rule?).edited
  | togglePremise index premise line id hline hid =>
    exact (hp.toggleCitation h index line id).edited
  | restrict rules => exact .restrict c p rules
  | verifyLine index hindex => exact hp.verifyLineAt h index
  | verifyGoal index hindex => exact hp.verifyGoalAt h index
  | verifyAll => exact hp.verifyAll h
  | fillNothing index hindex hnone => exact hp
  | fill index text line hline hsuggestion htext =>
    exact (hp.rewritten hwell hline htext setting).verifyLineAt
      (h.congr (ids_eq_of_outline_eq (outline_rewritten ..))) index
  | addGoal index hindex => exact (hp.insertGoal index).edited
  | removeGoal index hindex hcount => exact (hp.cutGoal index).edited
  | keepGoalText index goal hgoal => exact hp
  | setGoalText index text goal hgoal htext => exact (hp.writeGoal hgoal htext).edited
  | advance milliseconds => exact hp.advance h milliseconds

theorem attempt (hp : c.Holds p) (hwell : WellFormed p) (h : c.Established setting p)
    (operation : Operation) : c.Holds (p.attempt setting operation).1 := by
  have hwell' := (hwell.run setting [operation]).1
  rcases Performed.attempt_cases setting p operation with ⟨_, -, hsame⟩ | ⟨_, -, hdone, hperformed⟩
  · rwa [hsame]
  · rw [hdone]
    exact hp.performed hwell (hdone ▸ hwell') h hperformed

/-- Operations keep a condition that verifications establish. -/
theorem run (hp : c.Holds p) (hwell : WellFormed p) (h : ∀ q, c.Established setting q)
    (operations : List Operation) : c.Holds (p.run setting operations).1 := by
  induction operations generalizing p with
  | nil => exact hp
  | cons operation operations ih =>
    exact ih (hp.attempt hwell (h p) operation) (hwell.run setting [operation]).1

end Holds

end Condition

end NaturalDeduction.Proof
