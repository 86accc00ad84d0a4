/-
  Conditions on what is shown.

  A condition on what lines and goals show of their verification may look at
  what they show, and at what verification looks at, but at nothing else of the
  proof; and what shows nothing meets it. Of a premise that cannot be read it may
  look at the line, but not at the position of the line, which changes when lines
  are added or removed. If moreover every verification leaves what meets the
  condition, then a proof meets it throughout its edits, provided that marks are
  dropped wherever something that was looked at changes. Here this is shown for
  verification and for the dropping of marks.
-/

import NaturalDeduction.Proofs.Store.Preservation
import NaturalDeduction.Proofs.Verdict.Finding

namespace NaturalDeduction

namespace Proof

/-- Invalidating lines by their identities blanks these lines and leaves the others as they are. -/
theorem getElem?_invalidateEach {p : Proof} (hp : WellFormedLines p) (ids : List LineId)
    (index : Nat) :
    (p.invalidateEach ids).1.lines[index]? =
      p.lines[index]?.map fun line => if line.id ∈ ids then line.invalidate.1 else line := by
  induction ids generalizing p with
  | nil => simp [invalidateEach]
  | cons id ids ih =>
    have hcontent : (p.notingLine id Line.invalidate).1.content = p.content :=
      content_notingLine Line.content_invalidate
    have hnoted := hp.congr_outline (outline_eq_of_content_eq hcontent)
    -- One identity first: the position that it has is the position of its line.
    have hat : (p.notingLine id Line.invalidate).1.lines[index]? =
        p.lines[index]?.map fun line => if line.id = id then line.invalidate.1 else line := by
      unfold notingLine
      cases hline : p.lines[index]? with
      | none =>
        cases p.position? id with
        | none => simp [hline]
        | some found => simpa using hline
      | some line =>
        have hposition : p.position? id = some index ↔ line.id = id := by
          rw [hp.position_iff, lineId?, hline, Option.map_some, Option.some.injEq]
        cases hfound : p.position? id with
        | none =>
          have hne : line.id ≠ id := fun heq => by simp [hposition.2 heq] at hfound
          simp [hline, hne]
        | some found =>
          rw [hfound, Option.some.injEq] at hposition
          by_cases heq : found = index
          · simp [hline, heq, hposition.1 heq]
          · have hne : line.id ≠ id := fun h => heq (hposition.2 h)
            simp [hline, heq, hne]
    simp only [invalidateEach]
    rw [ih hnoted, hat, Option.map_map]
    congr 1
    funext line
    -- Invalidating a line twice is invalidating it once.
    by_cases heq : line.id = id
    · simp [heq, Line.invalidate, Line.setMark]
    · simp [heq]

/-! ## Lines by their identities -/

/-- The premises of a line, or the first line that gives none. Unlike its position, the line stays
the same when others are added or removed. -/
def premisesById (p : Proof) (index : Nat) (line : Line) :
    Except (Option LineId) (List Premise) :=
  (p.premisesOf index line).mapError p.lineId?

/-- Where it does not matter which line gives no premise. -/
theorem toOption_premisesOf_eq_of_premisesById {p q : Proof} {i j : Nat} {line other : Line}
    (h : q.premisesById j other = p.premisesById i line) :
    (q.premisesOf j other).toOption = (p.premisesOf i line).toOption := by
  have hoption := congrArg Except.toOption h
  rwa [premisesById, premisesById, Except.toOption_mapError, Except.toOption_mapError] at hoption

theorem lineId?_eq_of_visible_eq {p q : Proof} (h : q.visible = p.visible) :
    q.lineId? = p.lineId? := by
  have hlines := congrArg (fun proof => proof.lines.map Line.id) h
  refine lineId?_congr ?_
  simpa [visible, content, Line.content, Function.comp_def] using hlines

/-! ## Conditions -/

/-- A condition on what the line at a position shows, and on what a goal shows. -/
structure Condition where
  onLine : Proof → Nat → Line → Prop
  onGoal : Proof → Goal → Prop
  /-- It hangs on what a line shows, on what the line is found to be by itself, and on its premises.
  Where premises are unreadable, it matters which line is the first. -/
  congr_line : ∀ {p q : Proof} {i j : Nat} {line other : Line}, onLine p i line →
    other.mark = line.mark → other.claim? = line.claim? →
    examine q.restriction other = examine p.restriction line →
    q.premisesById j other = p.premisesById i line → onLine q j other
  line_blank : ∀ (p : Proof) (i : Nat) {line : Line}, line.mark = .blank → line.claim? = none →
    onLine p i line
  congr_goal : ∀ {p q : Proof} {goal other : Goal}, onGoal p goal → q.visible = p.visible →
    other.text = goal.text → other.mark = goal.mark → onGoal q other
  goal_blank : ∀ (p : Proof) {goal : Goal}, goal.mark = .blank → onGoal p goal

namespace Condition

/-- Under a setting, and as long as the lines of the proof are there in this order, every
verification leaves a line or a goal that meets the condition. -/
structure Established (c : Condition) (setting : Setting) (p : Proof) : Prop where
  onLine : ∀ {q : Proof}, q.lines.map Line.id = p.lines.map Line.id →
    ∀ (index : Nat) (line : Line), c.onLine q index (line.found (q.lineFinding setting index line))
  onGoal : ∀ {q : Proof}, q.lines.map Line.id = p.lines.map Line.id →
    ∀ (index : Nat) (goal : Goal), c.onGoal q (goal.found (q.goalFinding setting index goal))

/-- All lines meet the condition, those that are left out excepted, and all goals do. -/
structure HoldsExcept (c : Condition) (omitted : Nat → Prop) (p : Proof) : Prop where
  line : ∀ index line, ¬ omitted index → p.lines[index]? = some line → c.onLine p index line
  goal : ∀ goal ∈ p.goals, c.onGoal p goal

/-- All lines and goals meet the condition. -/
abbrev Holds (c : Condition) (p : Proof) : Prop := c.HoldsExcept (fun _ => False) p

variable {c : Condition} {setting : Setting} {p q : Proof} {index : Nat} {line : Line}

theorem Established.congr (h : c.Established setting p)
    (hids : q.lines.map Line.id = p.lines.map Line.id) : c.Established setting q :=
  ⟨fun hr => h.onLine (hr.trans hids), fun hr => h.onGoal (hr.trans hids)⟩

/-! ## What is shown stays -/

theorem congr_line_of_visible_eq (h : q.visible = p.visible) {other : Line}
    (hcontent : other.content = line.content) (hmark : other.mark = line.mark)
    (hclaim : other.claim? = line.claim?) (hline : c.onLine p index line) :
    c.onLine q index other := by
  have halike := Alike.of_visible_eq h
  have hrecord := record_eq_of_visible_eq h hcontent
  refine c.congr_line hline hmark hclaim (examine_congr halike hrecord) ?_
  rw [premisesById, premisesById, premisesOf_congr halike hrecord, lineId?_eq_of_visible_eq h]

theorem invalidate (c : Condition) (p : Proof) (index : Nat) (line : Line) :
    c.onLine p index line.invalidate.1 :=
  c.line_blank p index rfl rfl

/-- The goals of a proof whose goals were reset meet the condition. -/
theorem onGoal_of_mem_resetGoals {goal : Goal} (h : goal ∈ p.resetGoals.1.goals) :
    c.onGoal q goal := by
  simp only [resetGoals, noting_fst] at h
  obtain ⟨before, -, rfl⟩ := List.mem_map.1 h
  exact c.goal_blank q rfl

/-- The lines of a proof go on meeting the condition while nothing that verification looks at
changes, whatever becomes of the goals. -/
theorem HoldsExcept.congr {omitted : Nat → Prop} (hp : c.HoldsExcept omitted p)
    (h : q.visible = p.visible) (hlines : q.lines = p.lines)
    (hgoals : ∀ goal ∈ q.goals, goal ∈ p.goals ∨ c.onGoal q goal) :
    c.HoldsExcept omitted q := by
  refine ⟨fun index line hindex hline => ?_, fun goal hgoal => ?_⟩
  · rw [hlines] at hline
    exact congr_line_of_visible_eq h rfl rfl rfl (hp.line index line hindex hline)
  · rcases hgoals goal hgoal with hgoal | hmeets
    · exact c.congr_goal (hp.goal goal hgoal) h rfl rfl
    · exact hmeets

/-! ## Verifying -/

/-- Verifying a line that may fail the condition makes up for it. -/
theorem HoldsExcept.verifyLineAt (hp : c.HoldsExcept (· = index) p)
    (h : c.Established setting p) :
    c.Holds (verifyLineAt setting p index).proof := by
  have hvisible := visible_eq_of_content_eq (content_verifyLineAt setting p index)
  cases hline : p.lines[index]? with
  | none =>
    have hsame : (Proof.verifyLineAt setting p index).proof = p := by
      simp only [Proof.verifyLineAt, hline]
    rw [hsame]
    refine ⟨fun i other _ hother => hp.line i other (fun hi => ?_) hother, hp.goal⟩
    rw [hi, hline] at hother
    cases hother
  | some line =>
    have hlt : index < p.lines.length := (List.getElem?_eq_some_iff.1 hline).1
    obtain ⟨consulted, hverified⟩ := exists_verifyLineAt_eq setting hline
    rw [hverified] at hvisible ⊢
    refine ⟨fun i other _ hother => ?_, fun goal hgoal => ?_⟩
    · by_cases hi : i = index
      · subst hi
        rw [List.getElem?_set_self hlt] at hother
        cases hother
        -- What the line shows was found in the proof as it was before.
        exact congr_line_of_visible_eq hvisible rfl rfl rfl (h.onLine rfl i line)
      · rw [List.getElem?_set_ne (Ne.symm hi)] at hother
        exact congr_line_of_visible_eq hvisible rfl rfl rfl (hp.line i other hi hother)
    · exact c.congr_goal (hp.goal goal hgoal) hvisible rfl rfl

namespace Holds

theorem verifyLineAt (hp : c.Holds p) (h : c.Established setting p) (index : Nat) :
    c.Holds (verifyLineAt setting p index).proof :=
  HoldsExcept.verifyLineAt ⟨fun i line _ => hp.line i line id, hp.goal⟩ h

theorem firstIncorrect (hp : c.Holds p) (h : c.Established setting p) (steps : List Nat) :
    c.Holds (firstIncorrect setting p steps).proof := by
  induction steps generalizing p with
  | nil => exact hp
  | cons index steps ih =>
    have hids := ids_eq_of_content_eq (content_verifyLineAt setting p index)
    simp only [Proof.firstIncorrect]
    split
    · exact ih (hp.verifyLineAt h index) (h.congr hids)
    · exact hp.verifyLineAt h index

theorem reachFrom (hp : c.Holds p) (h : c.Established setting p) (broken? : Option Nat)
    (candidates : List Nat) : c.Holds (reachFrom setting p broken? candidates).proof := by
  induction candidates generalizing p broken? with
  | nil => cases broken? <;> exact hp
  | cons candidate others ih =>
    have htried := hp.firstIncorrect h (p.steps candidate)
    have hids := ids_eq_of_content_eq (content_firstIncorrect setting p (p.steps candidate))
    simp only [Proof.reachFrom]
    split
    · exact htried
    · exact ih htried (h.congr hids) _

theorem consult (hp : c.Holds p) (setting : Setting) (target : Target) :
    c.Holds (consult setting p target).2 := by
  obtain ⟨consulted, hasked⟩ := exists_consult_eq setting p target
  rw [hasked]
  exact hp.congr rfl rfl fun _ hgoal => .inl hgoal

theorem judgeGoal (hp : c.Holds p) (h : c.Established setting p) (index : Nat) (goal : Goal) :
    c.Holds (judgeGoal setting p index goal).proof := by
  have hasked := hp.consult setting (.goal index)
  have hids : (Proof.consult setting p (.goal index)).2.lines.map Line.id =
      p.lines.map Line.id := by
    obtain ⟨consulted, hconsulted⟩ := exists_consult_eq setting p (.goal index)
    rw [hconsulted]
  unfold Proof.judgeGoal
  split
  · exact hp
  · exact hp
  · split
    · rename_i hconsult
      rw [hconsult] at hasked
      exact hasked
    · rename_i hconsult
      rw [hconsult] at hasked hids
      exact hasked.reachFrom (h.congr hids) none _

/-- Verifying a goal verifies lines on the way, and leaves the goal with what was found. -/
theorem verifyGoalAt (hp : c.Holds p) (h : c.Established setting p) (index : Nat) :
    c.Holds (verifyGoalAt setting p index).proof := by
  cases hgoal : p.goals[index]? with
  | none => simpa only [Proof.verifyGoalAt, hgoal] using hp
  | some goal =>
    have hjudged := hp.judgeGoal h index goal
    have hvisible := visible_eq_of_content_eq (content_judgeGoal setting p index goal)
    rw [proof_verifyGoalAt hgoal]
    refine hjudged.congr rfl rfl fun other hother => ?_
    rcases List.mem_or_eq_of_mem_set hother with hother | rfl
    · exact .inl hother
    · exact .inr (c.congr_goal (h.onGoal rfl index goal) hvisible rfl rfl)

end Holds

/-! ## Dropping marks -/

/-- Invalidating the lines that may fail the condition, and resetting the goals, leaves nothing that
fails it. -/
theorem Holds.of_invalidateEach (hp : WellFormedLines p) {ids : List LineId}
    (h : ∀ index line, p.lines[index]? = some line → line.id ∉ ids → c.onLine p index line) :
    c.Holds (p.invalidateEach ids).1.resetGoals.1 := by
  have hvisible : (p.invalidateEach ids).1.resetGoals.1.visible = p.visible :=
    visible_eq_of_content_eq (by rw [content_resetGoals, content_invalidateEach])
  refine ⟨fun index line _ hline => ?_, fun goal hgoal => onGoal_of_mem_resetGoals hgoal⟩
  rw [show (p.invalidateEach ids).1.resetGoals.1.lines = (p.invalidateEach ids).1.lines from rfl,
    getElem?_invalidateEach hp, Option.map_eq_some_iff] at hline
  obtain ⟨before, hbefore, rfl⟩ := hline
  by_cases hid : before.id ∈ ids
  · rw [if_pos hid]
    exact c.invalidate _ index before
  · rw [if_neg hid]
    exact congr_line_of_visible_eq hvisible rfl rfl rfl (h index before hbefore hid)

/-! ## Where work begins -/

/-- Nothing is verified where work begins. -/
theorem Holds.initial (c : Condition) (h : Initial p) : c.Holds p := by
  cases h with
  | new restriction =>
    refine ⟨fun index line _ hline => ?_, fun goal hgoal => ?_⟩
    · cases hline
    · obtain rfl := List.mem_singleton.1 hgoal
      exact c.goal_blank _ rfl
  | loaded h =>
    obtain ⟨-, rfl⟩ := ofDocument_eq_ok_iff.1 h
    refine ⟨fun index line _ hline => ?_, fun goal hgoal => ?_⟩
    · obtain ⟨record, -, rfl⟩ := exists_of_getElem?_mapIdx hline
      exact c.line_blank _ index rfl rfl
    · obtain ⟨index, hat⟩ := List.mem_iff_getElem?.1 hgoal
      obtain ⟨text, -, rfl⟩ := exists_of_getElem?_mapIdx hat
      exact c.goal_blank _ rfl

end Condition

end Proof

end NaturalDeduction
