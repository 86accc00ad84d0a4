/-
  External checkers without memory.

  A checker may remember the requests that it was sent. Where it does not, and
  its answer, be it a verdict or a fault, is a function of the request, then what
  a verification finds is a function of the document: neither the marks that
  earlier verifications left nor the requests they made have a part in it.
-/

import NaturalDeduction.Proofs.Verdict.Truthful

namespace NaturalDeduction

/-- The answer of a checker, verdict or fault, is a function of the request. -/
def ExternalChecker.Memoryless (checker : ExternalChecker) : Prop :=
  ∀ past other request, checker past request = checker other request

/-- Under a setting there is no external checker, or one without memory. -/
def Setting.Memoryless (setting : Setting) : Prop :=
  ∀ checker, setting.checker? = some checker → checker.Memoryless

/-- The line with a mark and a claim, waiting for no verification. -/
def Line.found (finding : Mark × Option Claim) (line : Line) : Line :=
  { line with mark := finding.1, claim? := finding.2, due? := none }

/-- The goal with a mark. -/
def Goal.found (mark : Mark) (goal : Goal) : Goal := { goal with mark }

namespace Proof

/-- The mark and the claim that verification finds for a line. -/
def lineFinding (setting : Setting) (p : Proof) (index : Nat) (line : Line) :
    Mark × Option Claim :=
  let (mark, claim?, _) := judgeLine setting p index line
  (mark, claim?)

/-- The mark that verification finds for a goal. -/
def goalFinding (setting : Setting) (p : Proof) (index : Nat) (goal : Goal) : Mark :=
  (judgeGoal setting p index goal).answer

variable {setting : Setting} {p q r : Proof} {index : Nat}

/-! ## Verification leaves what it finds -/

theorem exists_verifyLineAt_eq (setting : Setting) {line : Line}
    (hline : p.lines[index]? = some line) :
    ∃ consulted, (verifyLineAt setting p index).proof =
      { p with
        lines := p.lines.set index (line.found (p.lineFinding setting index line))
        consulted } := by
  obtain ⟨consulted, hasked⟩ := exists_judgeLine_eq setting p index line
  refine ⟨consulted, ?_⟩
  simp only [verifyLineAt, hline, hasked]
  rfl

theorem answer_verifyLineAt {line : Line} (hline : p.lines[index]? = some line) :
    (verifyLineAt setting p index).answer = (p.lineFinding setting index line).1.status := by
  simp only [verifyLineAt, hline, lineFinding]

theorem proof_verifyGoalAt {goal : Goal} (hgoal : p.goals[index]? = some goal) :
    (verifyGoalAt setting p index).proof =
      { (judgeGoal setting p index goal).proof with
        goals := (judgeGoal setting p index goal).proof.goals.set index
          (goal.found (p.goalFinding setting index goal)) } := by
  simp only [verifyGoalAt, hgoal]
  rfl

theorem answer_verifyGoalAt {goal : Goal} (hgoal : p.goals[index]? = some goal) :
    (verifyGoalAt setting p index).answer = (p.goalFinding setting index goal).status := by
  simp only [verifyGoalAt, hgoal, goalFinding]

theorem content_consult (setting : Setting) (p : Proof) (target : Target) :
    (consult setting p target).2.content = p.content := by
  obtain ⟨consulted, hasked⟩ := exists_consult_eq setting p target
  rw [hasked]
  rfl

/-- A goal that states a sentence is put to the checker, and searched when it does not answer. -/
theorem judgeGoal_of_sentence {goal : Goal} {sentence : Sentence}
    (h : Sentence.read goal.text = .ok (some sentence)) :
    judgeGoal setting p index goal =
      match (consult setting p (.goal index)).1 with
      | some verdict => ⟨goalMark verdict, (consult setting p (.goal index)).2, []⟩
      | none =>
        let reached := reach setting (consult setting p (.goal index)).2 sentence
        ⟨goalMark reached.answer, reached.proof, reached.events⟩ := by
  simp only [judgeGoal, h]
  split <;> rename_i hconsult <;> rw [hconsult]

/-- The search goes on with the next candidate when a line of the first one fails. -/
theorem reachFrom_cons (broken? : Option Nat) (candidate : Nat) (others : List Nat) :
    reachFrom setting p broken? (candidate :: others) =
      let tried := firstIncorrect setting p (p.steps candidate)
      match tried.answer with
      | none => ⟨.valid, tried.proof, tried.events⟩
      | some broken =>
        let last := reachFrom setting tried.proof (some (broken?.getD broken)) others
        ⟨last.answer, last.proof, tried.events ++ last.events⟩ := by
  rw [reachFrom]
  rfl

/-! ## Proofs of one document -/

/-- Proofs of one document, in which verification looks at the same. -/
structure Peers (p q : Proof) : Prop where
  document_eq : q.document = p.document
  alike : Alike p q

namespace Peers

theorem of_content_eq (h : q.content = p.content) : Peers p q :=
  ⟨document_eq_of_content_eq h, .of_visible_eq (visible_eq_of_content_eq h)⟩

theorem of_document_eq (hp : WellFormedLines p) (hq : WellFormedLines q)
    (h : q.document = p.document) : Peers p q :=
  ⟨h, .of_document_eq hp hq h⟩

theorem symm (h : Peers p q) : Peers q p :=
  ⟨h.document_eq.symm, h.alike.records.symm, h.alike.layout.symm, h.alike.restriction.symm⟩

theorem trans (h : Peers p q) (hmore : Peers q r) : Peers p r :=
  ⟨hmore.document_eq.trans h.document_eq, hmore.alike.records.trans h.alike.records,
    hmore.alike.layout.trans h.alike.layout, hmore.alike.restriction.trans h.alike.restriction⟩

/-- Peers stay peers while only marks change in them. -/
theorem congr {p' q' : Proof} (h : Peers p q) (hp : p'.content = p.content)
    (hq : q'.content = q.content) : Peers p' q' :=
  ((of_content_eq hp).symm.trans h).trans (of_content_eq hq)

theorem length_lines (h : Peers p q) : q.lines.length = p.lines.length := by
  simpa using congrArg List.length h.alike.records

theorem length_goals (h : Peers p q) : q.goals.length = p.goals.length := by
  have hgoals : q.goals.map Goal.text = p.goals.map Goal.text :=
    congrArg Document.goals h.document_eq
  simpa using congrArg List.length hgoals

/-- A position is that of a goal in both proofs or in neither. -/
theorem goal_cases (h : Peers p q) (index : Nat) :
    (p.goals[index]? = none ∧ q.goals[index]? = none) ∨
      ∃ goal other : Goal, p.goals[index]? = some goal ∧ q.goals[index]? = some other ∧
        other.text = goal.text := by
  have hgoals : q.goals.map Goal.text = p.goals.map Goal.text :=
    congrArg Document.goals h.document_eq
  have hat := congrArg (·[index]?) hgoals
  simp only [List.getElem?_map] at hat
  cases hgoal : p.goals[index]? with
  | none =>
    rw [hgoal, Option.map_none, Option.map_eq_none_iff] at hat
    exact .inl ⟨rfl, hat⟩
  | some goal =>
    rw [hgoal, Option.map_some, Option.map_eq_some_iff] at hat
    obtain ⟨other, hother, htext⟩ := hat
    exact .inr ⟨goal, other, rfl, hother, htext⟩

/-! ## What is found in peers -/

theorem consult_eq (hsetting : setting.Memoryless) (h : Peers p q) (target : Target) :
    (consult setting q target).1 = (consult setting p target).1 := by
  unfold consult
  cases hchecker : setting.checker? with
  | none => rfl
  | some checker =>
    simp only [h.document_eq, hsetting checker hchecker q.consulted p.consulted]
    cases checker p.consulted ⟨p.document, target⟩ <;> rfl

theorem lineFinding_eq (hsetting : setting.Memoryless) (h : Peers p q) {line other : Line}
    (hrecord : q.record other = p.record line) :
    q.lineFinding setting index other = p.lineFinding setting index line := by
  unfold lineFinding judgeLine
  rw [examine_congr h.alike hrecord, premisesOf_congr h.alike hrecord]
  cases examine p.restriction line with
  | settled mark => rfl
  | claims conclusion rule =>
    cases p.premisesOf index line with
    | error unreadable => rfl
    | ok premises => simp only [h.consult_eq hsetting]

theorem answer_verifyLineAt_eq (hsetting : setting.Memoryless) (h : Peers p q) (index : Nat) :
    (verifyLineAt setting q index).answer = (verifyLineAt setting p index).answer := by
  rcases h.alike.line_cases index with ⟨hp, hq⟩ | ⟨line, other, hp, hq, hrecord⟩
  · simp only [verifyLineAt, hp, hq]
  · rw [answer_verifyLineAt hp, answer_verifyLineAt hq, h.lineFinding_eq hsetting hrecord]

theorem answer_firstIncorrect_eq (hsetting : setting.Memoryless) (h : Peers p q)
    (steps : List Nat) :
    (firstIncorrect setting q steps).answer = (firstIncorrect setting p steps).answer := by
  induction steps generalizing p q with
  | nil => rfl
  | cons index steps ih =>
    -- The lines verified so far leave peers.
    have hrest := ih (h.congr (content_verifyLineAt setting p index)
      (content_verifyLineAt setting q index))
    simp only [firstIncorrect, h.answer_verifyLineAt_eq hsetting index]
    split
    · exact hrest
    · rfl

theorem answer_reachFrom_eq (hsetting : setting.Memoryless) (h : Peers p q)
    (broken? : Option Nat) (candidates : List Nat) :
    (reachFrom setting q broken? candidates).answer =
      (reachFrom setting p broken? candidates).answer := by
  induction candidates generalizing p q broken? with
  | nil => cases broken? <;> rfl
  | cons candidate others ih =>
    have hrest := ih (h.congr (content_firstIncorrect setting p (p.steps candidate))
      (content_firstIncorrect setting q (p.steps candidate)))
    simp only [reachFrom_cons, h.alike.steps_eq,
      h.answer_firstIncorrect_eq hsetting (p.steps candidate)]
    split
    · rfl
    · exact hrest _

theorem goalFinding_eq (hsetting : setting.Memoryless) (h : Peers p q) {goal other : Goal}
    (htext : other.text = goal.text) :
    q.goalFinding setting index other = p.goalFinding setting index goal := by
  unfold goalFinding
  cases hread : Sentence.read goal.text with
  | error failure => simp only [judgeGoal, htext, hread]
  | ok sentence? =>
    cases sentence? with
    | none => simp only [judgeGoal, htext, hread]
    | some sentence =>
      -- Both ask the same, and search the same when there is no answer.
      have hasked := h.congr (content_consult setting p (.goal index))
        (content_consult setting q (.goal index))
      rw [judgeGoal_of_sentence hread, judgeGoal_of_sentence (htext ▸ hread),
        h.consult_eq hsetting]
      split
      · rfl
      · simp only [reach, hasked.alike.statedAt_eq, hasked.answer_reachFrom_eq hsetting]

theorem answer_verifyGoalAt_eq (hsetting : setting.Memoryless) (h : Peers p q) (index : Nat) :
    (verifyGoalAt setting q index).answer = (verifyGoalAt setting p index).answer := by
  rcases h.goal_cases index with ⟨hp, hq⟩ | ⟨goal, other, hp, hq, htext⟩
  · simp only [verifyGoalAt, hp, hq]
  · rw [answer_verifyGoalAt hp, answer_verifyGoalAt hq, h.goalFinding_eq hsetting htext]

end Peers

end Proof

end NaturalDeduction
