/-
  Verifications in any order.

  A verification leaves on a row what it finds there, and verifying a goal
  verifies lines on the way. With a checker that has no memory, what is found is
  a function of the document. So verifications one after the other leave the same
  on every row that one of them verifies, in whatever order and however often
  they come, and leave all other rows alone.
-/

import NaturalDeduction.Proofs.Verdict.Finding

namespace NaturalDeduction

/-- Whether the operation is a verification on request. -/
def Operation.verifies : Operation → Bool
  | .verifyLine _ | .verifyGoal _ | .verifyAll => true
  | _ => false

/-- The operation that verifies a row. -/
def Target.verification : Target → Operation
  | .line index => .verifyLine index
  | .goal index => .verifyGoal index

/-- The statuses that a snapshot shows. -/
def Snapshot.statuses (snapshot : Snapshot) : Proof.Summary :=
  ⟨snapshot.lines.map (·.mark.status), snapshot.goals.map (·.mark.status)⟩

namespace Proof

/-! ## Which rows are verified -/

/-- Whether a verification finds the line at a position correct. -/
def passes (setting : Setting) (p : Proof) (index : Nat) : Bool :=
  (verifyLineAt setting p index).answer == .correct

/-- The lines that are verified when lines are verified up to the first one that is not correct. -/
def tried (setting : Setting) (p : Proof) : List Nat → List Nat
  | [] => []
  | index :: rest => if p.passes setting index then index :: p.tried setting rest else [index]

/-- The lines that are verified when candidates are tried up to the first one that succeeds. -/
def searched (setting : Setting) (p : Proof) : List Nat → List Nat
  | [] => []
  | candidate :: others =>
    p.tried setting (p.steps candidate) ++
      if (p.steps candidate).all (p.passes setting) then [] else p.searched setting others

/-- The lines that are verified when the mark of a goal is found: none where the checker answers, or
where there is no sentence to reach. -/
def searchedFor (setting : Setting) (p : Proof) (index : Nat) (goal : Goal) : List Nat :=
  match Sentence.read goal.text, (consult setting p (.goal index)).1 with
  | .ok (some sentence), none => p.searched setting (p.statedAt sentence)
  | _, _ => []

/-- The rows that are verified when a row is: the lines searched for a goal, and the row itself. -/
def verifiedWith (setting : Setting) (p : Proof) : Target → List Target
  | .line index => [.line index]
  | .goal index =>
    (p.goals[index]?.toList.flatMap (p.searchedFor setting index)).map .line ++ [.goal index]

/-- The rows that an operation verifies on request. -/
def verifiedBy (setting : Setting) (p : Proof) : Operation → List Target
  | .verifyLine index => p.verifiedWith setting (.line index)
  | .verifyGoal index => p.verifiedWith setting (.goal index)
  | .verifyAll =>
    ((List.range p.lines.length).flatMap fun index => p.verifiedWith setting (.line index)) ++
      (List.range p.goals.length).flatMap fun index => p.verifiedWith setting (.goal index)
  | _ => []

namespace Peers

variable {setting : Setting} {p q : Proof} (hsetting : setting.Memoryless) (h : Peers p q)
include hsetting h

/-! ### The same rows are verified in peers -/

theorem passes_eq : q.passes setting = p.passes setting := by
  funext index
  rw [passes, passes, h.answer_verifyLineAt_eq hsetting]

theorem tried_eq (steps : List Nat) : q.tried setting steps = p.tried setting steps := by
  induction steps with
  | nil => rfl
  | cons index steps ih => rw [tried, tried, ih, h.passes_eq hsetting]

theorem searched_eq (candidates : List Nat) :
    q.searched setting candidates = p.searched setting candidates := by
  induction candidates with
  | nil => rfl
  | cons candidate others ih =>
    rw [searched, searched, ih, h.passes_eq hsetting, h.tried_eq hsetting, h.alike.steps_eq]

theorem searchedFor_eq {index : Nat} {goal other : Goal} (htext : other.text = goal.text) :
    q.searchedFor setting index other = p.searchedFor setting index goal := by
  unfold searchedFor
  rw [htext, h.consult_eq hsetting]
  split
  · rw [h.searched_eq hsetting, h.alike.statedAt_eq]
  · rfl

theorem verifiedWith_eq (row : Target) :
    q.verifiedWith setting row = p.verifiedWith setting row := by
  cases row with
  | line index => rfl
  | goal index =>
    rcases h.goal_cases index with ⟨hp, hq⟩ | ⟨goal, other, hp, hq, htext⟩
    · simp only [verifiedWith, hp, hq, Option.toList_none, List.flatMap_nil]
    · simp only [verifiedWith, hp, hq, Option.toList_some, List.flatMap_singleton,
        h.searchedFor_eq hsetting htext]

theorem verifiedBy_eq (operation : Operation) :
    q.verifiedBy setting operation = p.verifiedBy setting operation := by
  cases operation <;>
    simp only [verifiedBy, h.verifiedWith_eq hsetting, h.length_lines, h.length_goals]

end Peers

/-! ## What verifications leave behind -/

/-- What a row shows of its last verification: the mark, and on a line the checked claim. -/
def shownAt (p : Proof) : Target → Option (Mark × Option Claim)
  | .line index => p.lines[index]?.map fun line => (line.mark, line.claim?)
  | .goal index => p.goals[index]?.map fun goal => (goal.mark, none)

/-- What a verification finds for a row. -/
def findingAt (setting : Setting) (p : Proof) : Target → Option (Mark × Option Claim)
  | .line index => p.lines[index]?.map (p.lineFinding setting index)
  | .goal index => p.goals[index]?.map fun goal => (p.goalFinding setting index goal, none)

/-- Verification left on the rows what it finds there, and everything else alone. -/
structure Verified (setting : Setting) (p q : Proof) (rows : List Target) : Prop where
  content_eq : q.content = p.content
  edits_eq : q.edits = p.edits
  line (index : Nat) : q.lines[index]? = p.lines[index]?.map fun line =>
    if .line index ∈ rows then line.found (p.lineFinding setting index line) else line
  goal (index : Nat) : q.goals[index]? = p.goals[index]?.map fun goal =>
    if .goal index ∈ rows then goal.found (p.goalFinding setting index goal) else goal

variable {setting : Setting} {p q r : Proof} {rows more : List Target} {index : Nat}

namespace Verified

theorem peers (h : Verified setting p q rows) : Peers p q := .of_content_eq h.content_eq

/-- Only lines and goals are looked at, and which rows are verified, not how often. -/
theorem congr (h : Verified setting p q rows) (hcontent : r.content = q.content)
    (hedits : r.edits = q.edits) (hlines : r.lines = q.lines) (hgoals : r.goals = q.goals)
    (hrows : ∀ row, row ∈ more ↔ row ∈ rows) : Verified setting p r more where
  content_eq := hcontent.trans h.content_eq
  edits_eq := hedits.trans h.edits_eq
  line index := by
    simp only [hrows]
    rw [hlines, h.line]
  goal index := by
    simp only [hrows]
    rw [hgoals, h.goal]

theorem refl (setting : Setting) (p : Proof) : Verified setting p p [] where
  content_eq := rfl
  edits_eq := rfl
  line index := by simp
  goal index := by simp

/-- There is nothing to verify where there is no row. -/
theorem of_absent {row : Target} (h : p.shownAt row = none) : Verified setting p p [row] where
  content_eq := rfl
  edits_eq := rfl
  line i := by
    by_cases hi : .line i = row
    · subst hi
      rw [Option.map_eq_none_iff.1 h, Option.map_none]
    · simp [hi]
  goal i := by
    by_cases hi : .goal i = row
    · subst hi
      rw [Option.map_eq_none_iff.1 h, Option.map_none]
    · simp [hi]

/-- A verified row shows what was found. -/
theorem shownAt_eq (h : Verified setting p q rows) {row : Target} (hrow : row ∈ rows) :
    q.shownAt row = p.findingAt setting row := by
  cases row with
  | line index =>
    rw [shownAt, h.line, Option.map_map]
    simp only [if_pos hrow]
    rfl
  | goal index =>
    rw [shownAt, h.goal, Option.map_map]
    simp only [if_pos hrow]
    rfl

theorem getElem?_lines_eq (h : Verified setting p q rows) (hindex : .line index ∉ rows) :
    q.lines[index]? = p.lines[index]? := by
  rw [h.line]
  simp only [if_neg hindex, Option.map_id']

theorem getElem?_goals_eq (h : Verified setting p q rows) (hindex : .goal index ∉ rows) :
    q.goals[index]? = p.goals[index]? := by
  rw [h.goal]
  simp only [if_neg hindex, Option.map_id']

/-- Verifying a row once more leaves on it what was found at first. -/
theorem trans (hsetting : setting.Memoryless) (h : Verified setting p q rows)
    (hmore : Verified setting q r more) : Verified setting p r (rows ++ more) where
  content_eq := hmore.content_eq.trans h.content_eq
  edits_eq := hmore.edits_eq.trans h.edits_eq
  line index := by
    rw [hmore.line, h.line, Option.map_map]
    refine Option.map_congr fun line _ => ?_
    -- What the line holds of an earlier verification is not looked at, and is overwritten.
    have hfinding : q.lineFinding setting index (if .line index ∈ rows then
        line.found (p.lineFinding setting index line) else line) =
          p.lineFinding setting index line := by
      refine h.peers.lineFinding_eq hsetting ?_
      refine record_eq_of_visible_eq (visible_eq_of_content_eq h.content_eq) ?_
      split <;> rfl
    simp only [Function.comp_apply, hfinding, List.mem_append]
    by_cases hlast : .line index ∈ more
    · by_cases hfirst : .line index ∈ rows <;> simp [hlast, hfirst, Line.found]
    · simp [hlast]
  goal index := by
    rw [hmore.goal, h.goal, Option.map_map]
    refine Option.map_congr fun goal _ => ?_
    have hfinding : q.goalFinding setting index (if .goal index ∈ rows then
        goal.found (p.goalFinding setting index goal) else goal) =
          p.goalFinding setting index goal := by
      refine h.peers.goalFinding_eq hsetting ?_
      split <;> rfl
    simp only [Function.comp_apply, hfinding, List.mem_append]
    by_cases hlast : .goal index ∈ more
    · by_cases hfirst : .goal index ∈ rows <;> simp [hlast, hfirst, Goal.found]
    · simp [hlast]

/-! ### Lines -/

theorem verifyLineAt (setting : Setting) (p : Proof) (index : Nat) :
    Verified setting p (Proof.verifyLineAt setting p index).proof [.line index] := by
  cases hline : p.lines[index]? with
  | none =>
    have hsame : (Proof.verifyLineAt setting p index).proof = p := by
      simp only [Proof.verifyLineAt, hline]
    rw [hsame]
    exact .of_absent (Option.map_eq_none_iff.2 hline)
  | some line =>
    have hcontent := content_verifyLineAt setting p index
    obtain ⟨consulted, hverified⟩ := exists_verifyLineAt_eq setting hline
    have hlt := (List.getElem?_eq_some_iff.1 hline).1
    rw [hverified] at hcontent ⊢
    refine ⟨hcontent, rfl, fun i => ?_, fun i => by simp⟩
    by_cases hi : i = index
    · subst hi
      rw [List.getElem?_set_self hlt, hline, Option.map_some, if_pos (List.mem_singleton_self _)]
    · simp [hi, Ne.symm hi]

theorem firstIncorrect (hsetting : setting.Memoryless) (p : Proof) (steps : List Nat) :
    Verified setting p (Proof.firstIncorrect setting p steps).proof
        ((p.tried setting steps).map .line) ∧
      ((Proof.firstIncorrect setting p steps).answer = none ↔
        steps.all (p.passes setting) = true) := by
  induction steps generalizing p with
  | nil => exact ⟨.refl setting p, by simp [Proof.firstIncorrect]⟩
  | cons index steps ih =>
    have hfirst := verifyLineAt setting p index
    obtain ⟨hrest, hanswer⟩ := ih (Proof.verifyLineAt setting p index).proof
    rw [hfirst.peers.tried_eq hsetting] at hrest
    rw [hfirst.peers.passes_eq hsetting] at hanswer
    by_cases hpasses : (Proof.verifyLineAt setting p index).answer = .correct
    · have htrue : p.passes setting index = true := by simp [passes, hpasses]
      simp only [Proof.firstIncorrect, tried, hpasses, if_true, htrue, List.map_cons,
        List.all_cons, Bool.true_and]
      exact ⟨hfirst.trans hsetting hrest, hanswer⟩
    · have hfalse : p.passes setting index = false := by simp [passes, hpasses]
      simp only [Proof.firstIncorrect, tried, hpasses, if_false, hfalse, Bool.false_eq_true,
        List.map_cons, List.map_nil, List.all_cons, Bool.false_and, reduceCtorEq, iff_self,
        and_true]
      exact hfirst

theorem reachFrom (hsetting : setting.Memoryless) (p : Proof) (broken? : Option Nat)
    (candidates : List Nat) :
    Verified setting p (Proof.reachFrom setting p broken? candidates).proof
      ((p.searched setting candidates).map .line) := by
  induction candidates generalizing p broken? with
  | nil => cases broken? <;> exact .refl setting p
  | cons candidate others ih =>
    obtain ⟨htried, hanswer⟩ := firstIncorrect hsetting p (p.steps candidate)
    have hrest := ih (Proof.firstIncorrect setting p (p.steps candidate)).proof
    rw [htried.peers.searched_eq hsetting] at hrest
    simp only [reachFrom_cons, searched]
    cases hfound : (Proof.firstIncorrect setting p (p.steps candidate)).answer with
    | none =>
      rw [if_pos (hanswer.1 hfound), List.append_nil]
      exact htried
    | some broken =>
      have hfails : ¬ (p.steps candidate).all (p.passes setting) = true := fun hall => by
        rw [hanswer.2 hall] at hfound
        cases hfound
      rw [if_neg hfails, List.map_append]
      exact htried.trans hsetting (hrest _)

/-! ### Goals -/

theorem consult (setting : Setting) (p : Proof) (target : Target) :
    Verified setting p (Proof.consult setting p target).2 [] := by
  obtain ⟨consulted, hasked⟩ := exists_consult_eq setting p target
  rw [hasked]
  exact (refl setting p).congr rfl rfl rfl rfl fun _ => .rfl

/-- Finding the mark of a goal verifies the lines that are searched. -/
theorem judgeGoal (hsetting : setting.Memoryless) (p : Proof) (index : Nat) (goal : Goal) :
    Verified setting p (Proof.judgeGoal setting p index goal).proof
      ((p.searchedFor setting index goal).map .line) := by
  cases hread : Sentence.read goal.text with
  | error failure =>
    simp only [Proof.judgeGoal, searchedFor, hread]
    exact .refl setting p
  | ok sentence? =>
    cases sentence? with
    | none =>
      simp only [Proof.judgeGoal, searchedFor, hread]
      exact .refl setting p
    | some sentence =>
      have hasked := consult setting p (.goal index)
      rw [judgeGoal_of_sentence hread]
      simp only [searchedFor, hread]
      cases (Proof.consult setting p (.goal index)).1 with
      | some verdict => exact hasked
      | none =>
        -- Having asked in vain changes nothing that the search looks at.
        simp only [reach]
        rw [← hasked.peers.searched_eq hsetting, ← hasked.peers.alike.statedAt_eq]
        exact hasked.trans hsetting (reachFrom hsetting _ none _)

theorem verifyGoalAt (hsetting : setting.Memoryless) (p : Proof) (index : Nat) :
    Verified setting p (Proof.verifyGoalAt setting p index).proof
      (p.verifiedWith setting (.goal index)) := by
  cases hgoal : p.goals[index]? with
  | none =>
    simp only [Proof.verifyGoalAt, verifiedWith, hgoal]
    exact .of_absent (Option.map_eq_none_iff.2 hgoal)
  | some goal =>
    have hcontent := content_verifyGoalAt setting p index
    have hjudged := judgeGoal hsetting p index goal
    have hsame : (Proof.judgeGoal setting p index goal).proof.goals[index]? = some goal := by
      rw [hjudged.getElem?_goals_eq (by simp), hgoal]
    have hlt := (List.getElem?_eq_some_iff.1 hsame).1
    rw [proof_verifyGoalAt hgoal] at hcontent ⊢
    simp only [verifiedWith, hgoal, Option.toList_some, List.flatMap_singleton]
    refine ⟨hcontent, hjudged.edits_eq, fun i => ?_, fun i => ?_⟩
    · simp only [hjudged.line i, List.mem_append, List.mem_singleton, reduceCtorEq, or_false]
    · by_cases hi : i = index
      · subst hi
        simp [hlt, hgoal]
      · simp [hjudged.goal i, hi, Ne.symm hi]

/-! ### Operations -/

theorem verifyEach (hsetting : setting.Memoryless) {verify : Proof → Nat → Outcome Status}
    (row : Nat → Target)
    (h : ∀ q index, Verified setting q (verify q index).proof (q.verifiedWith setting (row index)))
    (p : Proof) (indices : List Nat) :
    Verified setting p (Proof.verifyEach verify p indices).proof
      (indices.flatMap fun index => p.verifiedWith setting (row index)) := by
  induction indices generalizing p with
  | nil => exact .refl setting p
  | cons index indices ih =>
    have hfirst := h p index
    have hrest := ih (verify p index).proof
    simp only [hfirst.peers.verifiedWith_eq hsetting] at hrest
    exact hfirst.trans hsetting hrest

theorem verifyAll (hsetting : setting.Memoryless) (p : Proof) :
    Verified setting p (p.verifyAll setting).proof (p.verifiedBy setting .verifyAll) := by
  have hlines := verifyEach hsetting .line (fun q index => verifyLineAt setting q index) p
    (List.range p.lines.length)
  have hgoals := verifyEach hsetting .goal (fun q index => verifyGoalAt hsetting q index)
    (Proof.verifyEach (Proof.verifyLineAt setting) p (List.range p.lines.length)).proof
    (List.range p.goals.length)
  simp only [hlines.peers.verifiedWith_eq hsetting] at hgoals
  simp only [Proof.verifyAll, verifiedBy, hlines.peers.length_goals]
  exact hlines.trans hsetting hgoals

theorem attempt (hsetting : setting.Memoryless) (p : Proof) (operation : Operation)
    (h : operation.verifies = true) :
    Verified setting p (p.attempt setting operation).1 (p.verifiedBy setting operation) := by
  cases operation with
  | verifyLine index =>
    have hverified := verifyLineAt setting p index
    by_cases hindex : index < p.lines.length
    · rw [Proof.attempt, perform, verifyLine_eq_ok setting hindex]
      exact hverified
    · have hnone : p.lines[index]? = none := by simpa using hindex
      rw [Proof.attempt, perform, verifyLine, checkLine, if_neg hindex]
      rw [Proof.verifyLineAt, hnone] at hverified
      exact hverified
  | verifyGoal index =>
    have hverified := verifyGoalAt hsetting p index
    by_cases hindex : index < p.goals.length
    · rw [Proof.attempt, perform, verifyGoal_eq_ok setting hindex]
      exact hverified
    · have hnone : p.goals[index]? = none := by simpa using hindex
      rw [Proof.attempt, perform, verifyGoal, checkGoal, if_neg hindex]
      rw [Proof.verifyGoalAt, hnone] at hverified
      exact hverified
  | verifyAll => exact verifyAll hsetting p
  | _ => cases h

theorem run (hsetting : setting.Memoryless) (p : Proof) {operations : List Operation}
    (h : ∀ operation ∈ operations, operation.verifies = true) :
    Verified setting p (p.run setting operations).1
      (operations.flatMap (p.verifiedBy setting)) := by
  induction operations generalizing p with
  | nil => exact .refl setting p
  | cons operation operations ih =>
    rw [List.forall_mem_cons] at h
    have hfirst := attempt hsetting p operation h.1
    have hrest := ih (p.attempt setting operation).1 h.2
    simp only [funext (hfirst.peers.verifiedBy_eq hsetting)] at hrest
    exact hfirst.trans hsetting hrest

end Verified

/-! ## What verifications answer -/

/-- Verifies a row. -/
def verifyRow (setting : Setting) (p : Proof) : Target → Attempt (Outcome Status)
  | .line index => p.verifyLine setting index
  | .goal index => p.verifyGoal setting index

/-- The status that verifying a row answers, unless there is no such row. -/
def statusOf? (setting : Setting) (p : Proof) (row : Target) : Option Status :=
  ((p.verifyRow setting row).map Outcome.answer).toOption

theorem Peers.answer_verifyRow_eq (hsetting : setting.Memoryless) (h : Peers p q) (row : Target) :
    (q.verifyRow setting row).map Outcome.answer =
      (p.verifyRow setting row).map Outcome.answer := by
  cases row with
  | line index =>
    simp only [verifyRow, verifyLine, checkLine, h.length_lines]
    split
    · exact congrArg Except.ok (h.answer_verifyLineAt_eq hsetting index)
    · rfl
  | goal index =>
    simp only [verifyRow, verifyGoal, checkGoal, h.length_goals]
    split
    · exact congrArg Except.ok (h.answer_verifyGoalAt_eq hsetting index)
    · rfl

/-- The status of a row is that of what is found for it. -/
theorem statusOf?_eq (setting : Setting) (p : Proof) (row : Target) :
    p.statusOf? setting row = (p.findingAt setting row).map fun finding => finding.1.status := by
  cases row with
  | line index =>
    rw [findingAt, Option.map_map]
    cases hline : p.lines[index]? with
    | none =>
      have hindex : ¬ index < p.lines.length := by simpa using hline
      simp only [statusOf?, verifyRow, verifyLine, checkLine, if_neg hindex]
      rfl
    | some line =>
      have hindex := (List.getElem?_eq_some_iff.1 hline).1
      simp only [statusOf?, verifyRow, verifyLine_eq_ok setting hindex, Except.map]
      exact congrArg some (answer_verifyLineAt hline)
  | goal index =>
    rw [findingAt, Option.map_map]
    cases hgoal : p.goals[index]? with
    | none =>
      have hindex : ¬ index < p.goals.length := by simpa using hgoal
      simp only [statusOf?, verifyRow, verifyGoal, checkGoal, if_neg hindex]
      rfl
    | some goal =>
      have hindex := (List.getElem?_eq_some_iff.1 hgoal).1
      simp only [statusOf?, verifyRow, verifyGoal_eq_ok setting hindex, Except.map]
      exact congrArg some (answer_verifyGoalAt hgoal)

/-- Verifying rows one after the other answers what each of them answers by itself. -/
theorem answer_verifyEach {verify : Proof → Nat → Outcome Status}
    (hcontent : ∀ q index, (verify q index).proof.content = q.content)
    (hanswer : ∀ {p q : Proof}, Peers p q → ∀ index,
      (verify q index).answer = (verify p index).answer)
    (p : Proof) (indices : List Nat) :
    (verifyEach verify p indices).answer = indices.map fun index => (verify p index).answer := by
  induction indices generalizing p with
  | nil => rfl
  | cons index indices ih =>
    have hpeers := Peers.of_content_eq (hcontent p index)
    simp only [verifyEach, ih, List.map_cons, hanswer hpeers]

theorem mem_verifiedWith (setting : Setting) (p : Proof) (row : Target) :
    row ∈ p.verifiedWith setting row := by
  cases row <;> simp [verifiedWith]

/-- A single verification of a row leaves on it what is found. -/
theorem shownAt_attempt (hsetting : setting.Memoryless) (p : Proof) (row : Target) :
    (p.attempt setting row.verification).1.shownAt row = p.findingAt setting row := by
  have hmem := mem_verifiedWith setting p row
  cases row with
  | line index =>
    exact (Verified.attempt hsetting p (.verifyLine index) rfl).shownAt_eq hmem
  | goal index =>
    exact (Verified.attempt hsetting p (.verifyGoal index) rfl).shownAt_eq hmem

/-- Verifying everything leaves on every row what is found. -/
theorem shownAt_verifyAll (hsetting : setting.Memoryless) (p : Proof) (row : Target) :
    (p.verifyAll setting).proof.shownAt row = p.findingAt setting row := by
  have hverified := Verified.verifyAll hsetting p
  have hmem := mem_verifiedWith setting p row
  cases row with
  | line index =>
    by_cases hindex : index < p.lines.length
    · refine hverified.shownAt_eq (List.mem_append_left _ ?_)
      exact List.mem_flatMap.2 ⟨index, List.mem_range.2 hindex, hmem⟩
    · have hnone : p.lines[index]? = none := by simpa using hindex
      rw [shownAt, findingAt, hverified.line, hnone]
      rfl
  | goal index =>
    by_cases hindex : index < p.goals.length
    · refine hverified.shownAt_eq (List.mem_append_right _ ?_)
      exact List.mem_flatMap.2 ⟨index, List.mem_range.2 hindex, hmem⟩
    · have hnone : p.goals[index]? = none := by simpa using hindex
      rw [shownAt, findingAt, hverified.goal, hnone]
      rfl

theorem getElem?_map_range {α β : Type} {as : List α} {f : Nat → β} {g : Nat → α → β}
    (h : ∀ index a, as[index]? = some a → f index = g index a) (index : Nat) :
    ((List.range as.length).map f)[index]? = as[index]?.map (g index) := by
  cases ha : as[index]? with
  | none => simpa using ha
  | some a =>
    have hlt := (List.getElem?_eq_some_iff.1 ha).1
    rw [List.getElem?_map, List.getElem?_range hlt, Option.map_some, Option.map_some, h index a ha]

/-- The summary lists the status that each row has by itself. -/
theorem answer_verifyAll (hsetting : setting.Memoryless) (p : Proof) :
    (∀ index, (p.verifyAll setting).answer.lines[index]? = p.statusOf? setting (.line index)) ∧
      ∀ index, (p.verifyAll setting).answer.goals[index]? = p.statusOf? setting (.goal index) := by
  have hpeers := (Verified.verifyEach hsetting .line
    (fun q index => .verifyLineAt setting q index) p (List.range p.lines.length)).peers
  have hlines : (p.verifyAll setting).answer.lines =
      (List.range p.lines.length).map fun index => (verifyLineAt setting p index).answer :=
    answer_verifyEach (content_verifyLineAt setting)
      (fun h => h.answer_verifyLineAt_eq hsetting) p _
  have hgoals : (p.verifyAll setting).answer.goals =
      (List.range p.goals.length).map fun index => (verifyGoalAt setting p index).answer := by
    simp only [verifyAll]
    -- The goals are verified when the lines have been.
    rw [answer_verifyEach (content_verifyGoalAt setting)
      fun h => h.answer_verifyGoalAt_eq hsetting]
    simp only [hpeers.length_goals, hpeers.answer_verifyGoalAt_eq hsetting]
  refine ⟨fun index => ?_, fun index => ?_⟩
  · rw [hlines, statusOf?_eq, findingAt, Option.map_map]
    exact getElem?_map_range (g := fun index line => (p.lineFinding setting index line).1.status)
      (fun _ _ => answer_verifyLineAt) index
  · rw [hgoals, statusOf?_eq, findingAt, Option.map_map]
    exact getElem?_map_range (g := fun index goal => (p.goalFinding setting index goal).status)
      (fun _ _ => answer_verifyGoalAt) index

/-- Verifying everything leaves the statuses that the summary lists. -/
theorem statuses_verifyAll (hsetting : setting.Memoryless) (p : Proof) :
    (p.verifyAll setting).proof.snapshot.statuses = (p.verifyAll setting).answer := by
  obtain ⟨hlines, hgoals⟩ := answer_verifyAll hsetting p
  have hshown := shownAt_verifyAll hsetting p
  have hlineStatuses : (p.verifyAll setting).proof.snapshot.statuses.lines =
      (p.verifyAll setting).answer.lines := by
    apply List.ext_getElem?
    intro index
    rw [hlines, statusOf?_eq, ← hshown]
    simp only [Snapshot.statuses, snapshot, shownAt, List.getElem?_map, Option.map_map]
    rfl
  have hgoalStatuses : (p.verifyAll setting).proof.snapshot.statuses.goals =
      (p.verifyAll setting).answer.goals := by
    apply List.ext_getElem?
    intro index
    rw [hgoals, statusOf?_eq, ← hshown]
    simp only [Snapshot.statuses, snapshot, shownAt, List.getElem?_map, Option.map_map]
    rfl
  exact congrArg₂ Summary.mk hlineStatuses hgoalStatuses

/-- Verification is independent of the order, idempotent, and edits nothing. Let verifications be
requested in any order, with a checker that has no memory or with none. The document and the count
of edits stay as they were. A row that was verified shows what a single verification of it makes it
show, and any other row is as it was. The status of a row is the one that it had at first, and the
one that it has in every proof with this document. Verifying everything lists these statuses, and
the snapshot shows them afterwards. -/
theorem verifications_in_any_order (hsetting : setting.Memoryless) {origin : Setting}
    (hreachable : Reachable origin p) {operations : List Operation}
    (hverify : ∀ operation ∈ operations, operation.verifies = true) :
    ((p.run setting operations).1.document = p.document ∧
      (p.run setting operations).1.edits = p.edits) ∧
    (∀ row ∈ operations.flatMap (p.verifiedBy setting),
      (p.run setting operations).1.shownAt row =
        (p.attempt setting row.verification).1.shownAt row) ∧
    (∀ index, .line index ∉ operations.flatMap (p.verifiedBy setting) →
      (p.run setting operations).1.lines[index]? = p.lines[index]?) ∧
    (∀ index, .goal index ∉ operations.flatMap (p.verifiedBy setting) →
      (p.run setting operations).1.goals[index]? = p.goals[index]?) ∧
    (∀ row, (p.run setting operations).1.statusOf? setting row = p.statusOf? setting row) ∧
    (∀ other r, Reachable other r → r.document = p.document →
      ∀ row, r.statusOf? setting row = p.statusOf? setting row) ∧
    (∀ index, ((p.run setting operations).1.verifyAll setting).answer.lines[index]? =
      p.statusOf? setting (.line index)) ∧
    (∀ index, ((p.run setting operations).1.verifyAll setting).answer.goals[index]? =
      p.statusOf? setting (.goal index)) ∧
    ((p.run setting operations).1.verifyAll setting).proof.snapshot.statuses =
      ((p.run setting operations).1.verifyAll setting).answer := by
  have hverified := Verified.run hsetting p hverify
  have hstatus : ∀ {r : Proof}, Peers p r →
      ∀ row, r.statusOf? setting row = p.statusOf? setting row := fun h row =>
    congrArg Except.toOption (h.answer_verifyRow_eq hsetting row)
  have hwell : ∀ {other : Setting} {r : Proof}, Reachable other r → WellFormedLines r := by
    rintro other r ⟨start, past, hstart, rfl⟩
    exact ((WellFormed.initial hstart).run other past).1.toWellFormedLines
  obtain ⟨hlines, hgoals⟩ := answer_verifyAll hsetting (p.run setting operations).1
  refine ⟨⟨hverified.peers.document_eq, hverified.edits_eq⟩, fun row hrow => ?_,
    fun index => hverified.getElem?_lines_eq, fun index => hverified.getElem?_goals_eq,
    hstatus hverified.peers, fun other r hr hdocument =>
      hstatus (.of_document_eq (hwell hreachable) (hwell hr) hdocument), fun index => ?_,
    fun index => ?_, statuses_verifyAll hsetting _⟩
  · rw [hverified.shownAt_eq hrow, shownAt_attempt hsetting]
  · rw [hlines, hstatus hverified.peers]
  · rw [hgoals, hstatus hverified.peers]

/-- A checker that accepts every line and never answers about goals. -/
def linesOnly : ExternalChecker := fun _ request =>
  match request.target with
  | .line _ => .ok .valid
  | .goal _ => .error (.timeout 5000)

/-- A goal that only the checker lets the proof reach is reached again and again. -/
theorem verifications_in_any_order_linesOnly :
    ∃ p, Reachable {} p ∧ Setting.Memoryless ⟨some linesOnly, none⟩ ∧
      p.statusOf? {} (.goal 0) = some .invalidClaim ∧
      (p.run ⟨some linesOnly, none⟩ [.verifyGoal 0, .verifyAll, .verifyLine 1]).1.statusOf?
        ⟨some linesOnly, none⟩ (.goal 0) = some .correct := by
  let p := ((Proof.new []).run {} [.addPremise, .setText 0 "P", .addLine 1 ⟨0, false⟩,
    .setText 1 "Q", .setRule 1 (some .addition), .setGoalText 0 "Q"]).1
  have hreachable : Reachable {} p := ⟨_, _, .new [], rfl⟩
  have hsetting : Setting.Memoryless ⟨some linesOnly, none⟩ := by
    rintro _ ⟨⟩ past other request
    rfl
  have hverify : ∀ operation ∈ [Operation.verifyGoal 0, .verifyAll, .verifyLine 1],
      operation.verifies = true := by decide
  refine ⟨p, hreachable, hsetting, by decide +kernel, ?_⟩
  obtain ⟨-, -, -, -, hstatus, -⟩ := verifications_in_any_order hsetting hreachable hverify
  rw [hstatus]
  decide +kernel

end Proof

end NaturalDeduction
