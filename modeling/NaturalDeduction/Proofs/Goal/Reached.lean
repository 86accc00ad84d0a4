/-
  When a goal is reached.

  A goal is found correct exactly when some level-0 line states it and all lines
  that support this line, assumptions apart, are found correct. Otherwise the
  message says that no such line states the goal, or it names the first line
  that is not correct among those that support the first such line.
-/

import NaturalDeduction.Proofs.Goal.Collecting
import NaturalDeduction.Proofs.Goal.Soundness
import NaturalDeduction.Proofs.Verdict.Finding

namespace NaturalDeduction.Proof

variable {setting : Setting} {p : Proof} {index root i : Nat} {sentence : Sentence}
  {candidates : List Nat}

/-! ## The first hit in an ascending list -/

/-- In an ascending list the first hit is the least one. -/
theorem find?_eq_some_iff_least {ns : List Nat} (h : ns.Pairwise (· < ·)) {f : Nat → Bool}
    {n : Nat} :
    ns.find? f = some n ↔ (n ∈ ns ∧ f n = true) ∧ ∀ m, m ∈ ns ∧ f m = true → n ≤ m := by
  induction ns with
  | nil => simp
  | cons k ns ih =>
    obtain ⟨hk, hns⟩ := List.pairwise_cons.1 h
    rw [List.find?_cons]
    cases hhit : f k with
    | true =>
      simp only [Option.some.injEq]
      constructor
      · rintro rfl
        refine ⟨⟨.head _, hhit⟩, fun m hm => ?_⟩
        rcases List.mem_cons.1 hm.1 with rfl | hmem
        · exact Nat.le_refl _
        · exact Nat.le_of_lt (hk m hmem)
      · rintro ⟨⟨hmem, -⟩, hleast⟩
        have hle := hleast k ⟨.head _, hhit⟩
        rcases List.mem_cons.1 hmem with rfl | hmem
        · rfl
        · exact absurd (hk n hmem) (Nat.not_lt.2 hle)
    | false =>
      have hnot : ∀ m, m ∈ k :: ns ∧ f m = true ↔ m ∈ ns ∧ f m = true := by
        intro m
        rw [List.mem_cons]
        refine ⟨fun ⟨hmem, hm⟩ => ⟨hmem.resolve_left ?_, hm⟩, fun ⟨hmem, hm⟩ => ⟨.inr hmem, hm⟩⟩
        rintro rfl
        rw [hhit] at hm
        cases hm
      simp only [hnot]
      exact ih hns

theorem head?_eq_some_of_least {ns : List Nat} (h : ns.Pairwise (· < ·)) {n : Nat} (hn : n ∈ ns)
    (hleast : ∀ m ∈ ns, n ≤ m) : ns.head? = some n := by
  cases ns with
  | nil => cases hn
  | cons k ns =>
    rcases List.mem_cons.1 hn with rfl | hmem
    · rfl
    · exact absurd ((List.pairwise_cons.1 h).1 n hmem) (Nat.not_lt.2 (hleast k (.head _)))

/-! ## The verdict on a goal -/

/-- The first line that is not correct among those that support a candidate. -/
def firstBroken? (p : Proof) (candidate : Nat) : Option Nat :=
  (p.steps candidate).find? fun index => !p.isCorrectAt index

/-- What is said of a goal that is not reached, given the line that is to blame, if any. -/
def unreachedMessage : Option Nat → String
  | none => "The goal has not been reached"
  | some broken => "Line " ++ toString (broken + 1) ++ ", used to reach the goal, is not correct"

theorem verdictFrom_eq_valid {broken? : Option Nat}
    (h : ∃ candidate ∈ candidates, p.firstBroken? candidate = none) :
    p.verdictFrom broken? candidates = .valid := by
  induction candidates generalizing broken? with
  | nil => simp at h
  | cons candidate others ih =>
    rw [verdictFrom, ← firstBroken?]
    cases hbroken : p.firstBroken? candidate with
    | none => rfl
    | some broken =>
      obtain ⟨other, hother, hnone⟩ := h
      refine ih ⟨other, ?_, hnone⟩
      refine (List.mem_cons.1 hother).resolve_left ?_
      rintro rfl
      rw [hbroken] at hnone
      cases hnone

/-- When no candidate will do, the first failure of the first one is reported. -/
theorem verdictFrom_eq_invalid {broken? : Option Nat}
    (h : ∀ candidate ∈ candidates, (p.firstBroken? candidate).isSome) :
    p.verdictFrom broken? candidates =
      .invalid (unreachedMessage (broken?.or (candidates.head?.bind p.firstBroken?))) := by
  induction candidates generalizing broken? with
  | nil => cases broken? <;> rfl
  | cons candidate others ih =>
    obtain ⟨hcandidate, hothers⟩ := List.forall_mem_cons.1 h
    obtain ⟨broken, hbroken⟩ := Option.isSome_iff_exists.1 hcandidate
    rw [verdictFrom, ← firstBroken?, hbroken, List.head?_cons, Option.bind_some, hbroken]
    simp only
    rw [ih hothers]
    cases broken? <;> rfl

theorem pairwise_statedAt (p : Proof) (sentence : Sentence) :
    (p.statedAt sentence).Pairwise (· < ·) :=
  List.pairwise_lt_range.filter _

/-! ## Lines that verify -/

/-- Verifying the line at a position finds it correct. -/
def FoundCorrect (setting : Setting) (p : Proof) (index : Nat) : Prop :=
  ∃ outcome, p.verifyLine setting index = .ok outcome ∧ outcome.answer = .correct

/-- The line at a position supports the root, is no assumption and is not found correct. -/
def Breaks (setting : Setting) (p : Proof) (root index : Nat) : Prop :=
  p.Supports root index ∧ p.layout.isAssumption index = false ∧ ¬ FoundCorrect setting p index

/-- The line at a position stands at level 0 and states the sentence. -/
def States (p : Proof) (sentence : Sentence) (index : Nat) : Prop :=
  p.layout.levelAt index = 0 ∧ p.sentenceAt? index = some sentence

theorem foundCorrect_iff (h : setting.checker? = none) :
    FoundCorrect setting p index ↔ p.isCorrectAt index = true := by
  rw [← verifyLineAt_answer_eq_correct h]
  constructor
  · rintro ⟨outcome, hverified, hcorrect⟩
    obtain ⟨_, -, hdone⟩ := Except.bind_eq_ok.1 hverified
    cases hdone
    exact hcorrect
  · intro hcorrect
    have hindex : index < p.lines.length := by
      by_contra hnot
      rw [verifyLineAt, List.getElem?_eq_none (Nat.not_lt.1 hnot)] at hcorrect
      cases hcorrect
    exact ⟨_, Except.bind_eq_ok.2 ⟨(), checkLine_eq_ok.2 hindex, rfl⟩, hcorrect⟩

theorem WellFormedLines.mem_steps (hp : WellFormedLines p) :
    i ∈ p.steps root ↔ p.Supports root i ∧ p.layout.isAssumption i = false := by
  rw [steps, List.mem_filter, hp.mem_derivation_iff]
  simp

theorem WellFormedLines.firstBroken?_eq_none (hp : WellFormedLines p)
    (h : setting.checker? = none) : p.firstBroken? root = none ↔
      ∀ i, p.Supports root i → p.layout.isAssumption i = false → FoundCorrect setting p i := by
  simp only [firstBroken?, List.find?_eq_none, hp.mem_steps, foundCorrect_iff h, and_imp]
  simp

theorem WellFormedLines.firstBroken?_eq_some (hp : WellFormedLines p)
    (h : setting.checker? = none) : p.firstBroken? root = some i ↔
      Breaks setting p root i ∧ ∀ j, Breaks setting p root j → i ≤ j := by
  have hbreaks : ∀ j, Breaks setting p root j ↔
      j ∈ p.steps root ∧ (!p.isCorrectAt j) = true := by
    intro j
    rw [Breaks, foundCorrect_iff h, hp.mem_steps, and_assoc]
    simp
  simp only [hbreaks]
  exact find?_eq_some_iff_least ((pairwise_derivation p root).filter _)

theorem mem_statedAt_iff_states : index ∈ p.statedAt sentence ↔ p.States sentence index := by
  rw [mem_statedAt, States]
  refine and_iff_right_of_imp fun h => ?_
  obtain ⟨line, hline, -⟩ := Option.bind_eq_some_iff.1 h.2
  exact (List.getElem?_eq_some_iff.1 hline).1

/-- A candidate with no broken line is one that only correct lines support. -/
theorem WellFormedLines.exists_firstBroken?_eq_none (hp : WellFormedLines p)
    (h : setting.checker? = none) :
    (∃ candidate ∈ p.statedAt sentence, p.firstBroken? candidate = none) ↔
      ∃ root, p.States sentence root ∧ ∀ i, p.Supports root i →
        p.layout.isAssumption i = false → FoundCorrect setting p i := by
  simp only [mem_statedAt_iff_states, hp.firstBroken?_eq_none h]

/-- Without an external checker, a goal that states a sentence is verified as correct just when a
level-0 line states the sentence and all lines in its derivation, assumptions apart, verify as
correct. Otherwise it is an invalid claim, and the message names the first line that does not verify
in the derivation of the first level-0 line that states the goal, if there is one. The derivation is
what collecting with a stack ends with: the least set that holds the line and is closed under
citations, and no position in it stands below the line. -/
theorem verifyGoal_correct_iff_supports {setting : Setting} (hlocal : setting.checker? = none)
    {origin : Setting} {p : Proof} (hreachable : Reachable origin p) {index : Nat} {goal : Goal}
    {sentence : Sentence} (hgoal : p.goals[index]? = some goal)
    (hread : Sentence.read goal.text = .ok (some sentence)) :
    (∀ root, (∃ turns, p.collectNext^[turns] ⟨[], [root]⟩ = ⟨p.derivation root, []⟩) ∧
      (∀ i, i ∈ p.derivation root ↔ p.Supports root i) ∧ ∀ i, p.Supports root i → i ≤ root) ∧
    ∃ outcome, p.verifyGoal setting index = .ok outcome ∧
      (outcome.answer = .correct ↔ ∃ root, p.States sentence root ∧
        ∀ i, p.Supports root i → p.layout.isAssumption i = false → FoundCorrect setting p i) ∧
      (outcome.answer ≠ .correct → outcome.answer = .invalidClaim ∧
        ∃ marked message, outcome.proof.goals[index]? = some marked ∧
          marked.mark.message? = some message ∧
          ((∀ root, ¬ p.States sentence root) → message = "The goal has not been reached") ∧
          ∀ root, p.States sentence root → (∀ other, p.States sentence other → root ≤ other) →
            ∃ i, Breaks setting p root i ∧ (∀ j, Breaks setting p root j → i ≤ j) ∧
              message =
                "Line " ++ toString (i + 1) ++ ", used to reach the goal, is not correct") := by
  have hp := hreachable.wellFormed.toWellFormedLines
  refine ⟨fun root => ⟨hp.exists_turns_derivation root, fun i => hp.mem_derivation_iff,
    fun i => hp.le_of_supports⟩, _, Except.bind_eq_ok.2 ⟨(), checkGoal_eq_ok.2
      (List.getElem?_eq_some_iff.1 hgoal).1, rfl⟩, ?_⟩
  have hanswer := verifyGoalAt_answer hlocal hgoal
  have hmarked : (verifyGoalAt setting p index).proof.goals[index]? =
      some (goal.found (p.goalJudgement goal)) := by
    have hlength := length_goals_of_content_eq (content_judgeGoal setting p index goal)
    rw [proof_verifyGoalAt hgoal, goalFinding, judgeGoal_answer hlocal]
    exact List.getElem?_set_self (hlength ▸ (List.getElem?_eq_some_iff.1 hgoal).1)
  have hjudgement : p.goalJudgement goal = goalMark (p.verdictFrom none (p.statedAt sentence)) := by
    simp only [goalJudgement, hread]
  rw [hanswer, hmarked, hjudgement, ← hp.exists_firstBroken?_eq_none hlocal]
  by_cases hreached : ∃ candidate ∈ p.statedAt sentence, p.firstBroken? candidate = none
  · rw [verdictFrom_eq_valid hreached]
    exact ⟨⟨fun _ => hreached, fun _ => rfl⟩, fun hnot => absurd rfl hnot⟩
  · have hbroken : ∀ candidate ∈ p.statedAt sentence, (p.firstBroken? candidate).isSome := by
      intro candidate hcandidate
      rw [Option.isSome_iff_ne_none]
      exact fun hnone => hreached ⟨candidate, hcandidate, hnone⟩
    rw [verdictFrom_eq_invalid hbroken]
    refine ⟨⟨(fun h => by cases h), fun h => absurd h hreached⟩,
      fun _ => ⟨rfl, _, _, rfl, rfl, fun hnone => ?_, fun root hroot hleast => ?_⟩⟩
    · have hempty : p.statedAt sentence = [] :=
        List.eq_nil_iff_forall_not_mem.2 fun i hi => hnone i (mem_statedAt_iff_states.1 hi)
      rw [hempty]
      rfl
    · have hhead : (p.statedAt sentence).head? = some root :=
        head?_eq_some_of_least (pairwise_statedAt p sentence) (mem_statedAt_iff_states.2 hroot)
          fun other hother => hleast other (mem_statedAt_iff_states.1 hother)
      obtain ⟨i, hi⟩ := Option.isSome_iff_exists.1 (hbroken root (mem_statedAt_iff_states.2 hroot))
      obtain ⟨hbreaks, hfirst⟩ := (hp.firstBroken?_eq_some hlocal).1 hi
      refine ⟨i, hbreaks, hfirst, ?_⟩
      rw [hhead, Option.none_or, Option.bind_some, hi]
      rfl

/-- The goal of the chained implications is reached: all lines that support its line verify. -/
theorem verifyGoal_correct_iff_supports_chainedImplications :
    ∃ root, ((Proof.new []).run {} chainedImplications).1.States
        (.implies (.atom "P") (.atom "R")) root ∧
      ∀ i, ((Proof.new []).run {} chainedImplications).1.Supports root i →
        ((Proof.new []).run {} chainedImplications).1.layout.isAssumption i = false →
          FoundCorrect {} ((Proof.new []).run {} chainedImplications).1 i := by
  have hgoal : ∃ goal, ((Proof.new []).run {} chainedImplications).1.goals[0]? = some goal ∧
      goal.text = "P → R" := ⟨⟨1, 0, "P → R", .blank⟩, by decide +kernel, rfl⟩
  obtain ⟨goal, hgoal, htext⟩ := hgoal
  have hread : Sentence.read goal.text = .ok (some (.implies (.atom "P") (.atom "R"))) := by
    rw [htext]
    decide +kernel
  have hreachable : Reachable {} ((Proof.new []).run {} chainedImplications).1 :=
    ⟨_, _, .new [], rfl⟩
  have hlocal : ({} : Setting).checker? = none := rfl
  obtain ⟨-, outcome, hverified, hcorrect, -⟩ :=
    verifyGoal_correct_iff_supports hlocal hreachable hgoal hread
  refine hcorrect.1 ?_
  obtain ⟨_, -, hdone⟩ := Except.bind_eq_ok.1 hverified
  cases hdone
  decide +kernel

end NaturalDeduction.Proof
