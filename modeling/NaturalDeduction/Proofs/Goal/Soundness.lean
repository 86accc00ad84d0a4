/-
  A reached goal follows from the premises.

  Along a derivation whose lines are correct, every line is true under each
  valuation that makes the assumptions in force at the line true. The
  induction is on positions; a cited line has no other assumptions in force
  than the citing one, and a cited subproof only its own assumption besides.
  At level 0 only the premises of the proof are left.
-/

import NaturalDeduction.Proofs.Goal.Derivation
import NaturalDeduction.Proofs.Rule.Soundness
import NaturalDeduction.Proofs.Store.Identity
import NaturalDeduction.Proofs.Verdict.Judgement

namespace NaturalDeduction.Proof

open Sentence

variable {setting : Setting} {p : Proof} {v : Valuation} {index root : Nat}

/-- The sentences of the assumptions at level 0. -/
def premiseSentences (p : Proof) : List Sentence :=
  (p.lines.filter fun line => line.assumption && line.level == 0).filterMap Line.sentence?

/-- The assumptions in force at a position are true, as far as they state sentences. -/
def Assumes (p : Proof) (v : Valuation) (index : Nat) : Prop :=
  ∀ a sentence, p.layout.InForce a index → p.sentenceAt? a = some sentence →
    eval v sentence = true

/-- Every line of a derivation that is no assumption is correct. -/
def IsCorrectDerivation (p : Proof) (root : Nat) : Prop :=
  ∀ i ∈ p.derivation root, p.layout.isAssumption i = false → p.isCorrectAt i = true

/-! ## Cited premises -/

theorem sentenceAt_eq_ok {sentence : Sentence} :
    p.sentenceAt index = .ok sentence ↔ p.sentenceAt? index = some sentence := by
  unfold sentenceAt
  cases p.sentenceAt? index <;> simp

/-- A cited line gives its sentence; a cited subproof its assumption and its conclusions. -/
theorem premiseAt_eq_ok {cited : Nat} {premise : Premise}
    (h : p.premiseAt index cited = .ok premise) :
    ∃ sentence, p.sentenceAt? cited = some sentence ∧
      ((p.layout.isSubproofPremise cited index = false ∧ premise = .line sentence) ∨
        (p.layout.isSubproofPremise cited index = true ∧ ∃ conclusions,
          premise = .subproof sentence conclusions ∧ ∀ conclusion ∈ conclusions,
            ∃ position ∈ p.layout.subproofConclusions cited,
              p.sentenceAt? position = some conclusion)) := by
  obtain ⟨sentence, hsentence, hrest⟩ := Except.bind_eq_ok.1 h
  refine ⟨sentence, sentenceAt_eq_ok.1 hsentence, ?_⟩
  split at hrest
  · rename_i hsubproof
    obtain ⟨conclusions, hconclusions, hdone⟩ := Except.bind_eq_ok.1 hrest
    cases hdone
    refine .inr ⟨hsubproof, conclusions, rfl, fun conclusion hconclusion => ?_⟩
    obtain ⟨position, hposition, hstates⟩ :=
      exists_of_mem_of_forall₂ (Except.mapM_eq_ok.1 hconclusions) hconclusion
    exact ⟨position, hposition, sentenceAt_eq_ok.1 hstates⟩
  · rename_i hline
    cases hrest
    exact .inl ⟨by simpa using hline, rfl⟩

/-- What a line cites holds where all lines before it that it rests on are true, given the
assumptions in force at them. -/
theorem WellFormedLines.holds_premise (hp : WellFormedLines p) {line : Line}
    (hline : p.lines[index]? = some line) (hassumes : p.Assumes v index)
    (htrue : ∀ position ∈ p.restsOn index, p.Assumes v position →
      ∀ sentence, p.sentenceAt? position = some sentence → eval v sentence = true)
    {cited : Nat} (hcited : cited ∈ p.premiseNumbers line) {premise : Premise}
    (hpremise : p.premiseAt index cited = .ok premise) : premise.Holds v := by
  have haccessible := hp.isAccessible_of_mem hline hcited
  obtain ⟨hlt, hlength, -⟩ := Layout.isAccessible_iff.1 haccessible
  obtain ⟨sentence, hsentence, ⟨hplain, rfl⟩ | ⟨hsubproof, conclusions, rfl, hconclusions⟩⟩ :=
    premiseAt_eq_ok hpremise
  -- A cited line: what is in force at it is in force here.
  · have hwithin := Layout.within_of_not_isSubproofPremise hp.valid haccessible hplain
    have hrests : cited ∈ p.restsOn index := by
      refine (mem_restsOn hline).2 ⟨cited, hcited, ?_⟩
      simp [hplain]
    refine htrue cited hrests (fun a s ha hs => ?_) sentence hsentence
    exact hassumes a s (ha.of_within (Nat.le_of_lt hlt) hlength hwithin) hs
  -- A cited subproof: besides that, only its own assumption is in force at its conclusions.
  · have hbeside := Layout.isFinishedBeside_of_isSubproofPremise haccessible hsubproof
    have hopens := (Layout.isFinishedBeside_iff.1 hbeside).1
    intro hassumption conclusion hconclusion
    obtain ⟨position, hposition, hstates⟩ := hconclusions conclusion hconclusion
    have hrests : position ∈ p.restsOn index := by
      refine (mem_restsOn hline).2 ⟨cited, hcited, ?_⟩
      rw [if_pos hsubproof, Layout.mem_subproofRange hopens]
      exact ((Layout.mem_subproofConclusions hopens).1 hposition).1
    refine htrue position hrests (fun a s ha hs => ?_) conclusion hstates
    rcases ha.of_isFinishedBeside hlength hbeside hposition with rfl | ha
    · rw [hsentence] at hs
      cases hs
      exact hassumption
    · exact hassumes a s ha hs

/-! ## Derivations -/

/-- Every line of a correct derivation is true where the assumptions in force at it are. -/
theorem WellFormedLines.eval_of_mem_derivation (hp : WellFormedLines p)
    (hcorrect : p.IsCorrectDerivation root)
    (hrules : ∀ line ∈ p.lines, ∀ rule ∈ line.rule?, rule.isQuantifierRule = false)
    (hmem : index ∈ p.derivation root) (hassumes : p.Assumes v index) {sentence : Sentence}
    (hsentence : p.sentenceAt? index = some sentence) : eval v sentence = true := by
  -- The induction is on positions: a line rests only on lines before it, and these belong to the
  -- derivation as well.
  induction index using Nat.strongRecOn generalizing sentence with
  | ind index ih =>
    cases hassumption : p.layout.isAssumption index with
    | true => exact hassumes index sentence (.self hassumption) hsentence
    | false =>
      obtain ⟨line, conclusion, rule, premises, hline, hconclusion, hrule, hpremises, hcheck⟩ :=
        exists_of_isCorrectAt (hcorrect index hmem hassumption)
      have hstated : p.sentenceAt? index = some conclusion := by
        rw [sentenceAt?, hline]
        exact hconclusion
      rw [hstated] at hsentence
      cases hsentence
      refine Rule.eval_of_check (hrules line (List.mem_of_getElem? hline) rule hrule) ?_ hcheck
      intro premise hpremise
      obtain ⟨cited, hcited, hbuilt⟩ :=
        exists_of_mem_of_forall₂ (Except.mapM_eq_ok.1 hpremises) hpremise
      refine hp.holds_premise hline hassumes (fun position hrests hassumed s hs => ?_) hcited hbuilt
      exact ih position (hp.lt_of_mem_restsOn hrests)
        (hp.mem_derivation_of_restsOn hmem hrests) hassumed hs

/-- A level-0 line with a correct derivation follows from the premises of the proof. -/
theorem WellFormedLines.followsFrom_premises (hp : WellFormedLines p)
    (hcorrect : p.IsCorrectDerivation root)
    (hrules : ∀ line ∈ p.lines, ∀ rule ∈ line.rule?, rule.isQuantifierRule = false)
    (hlevel : p.layout.levelAt root = 0) {sentence : Sentence}
    (hsentence : p.sentenceAt? root = some sentence) :
    sentence.FollowsFrom p.premiseSentences := by
  intro v hpremises
  refine hp.eval_of_mem_derivation hcorrect hrules (hp.mem_derivation_self root) ?_ hsentence
  intro a s ha hs
  obtain ⟨line, hline, hstates⟩ := Option.bind_eq_some_iff.1 hs
  have hzero := ha.levelAt_eq_zero hlevel
  have hassumption := ha.isAssumption
  rw [hp.levelAt_eq hline] at hzero
  rw [hp.isAssumption_eq hline] at hassumption
  refine hpremises s (List.mem_filterMap.2 ⟨line, List.mem_filter.2 ⟨?_, ?_⟩, hstates⟩)
  · exact List.mem_of_getElem? hline
  · simp [hzero, hassumption]

/-! ## Goals -/

/-- A goal is reached through a line with a correct derivation. -/
theorem exists_of_verdictFrom {broken? : Option Nat} {candidates : List Nat}
    (h : p.verdictFrom broken? candidates = .valid) :
    ∃ root ∈ candidates, p.IsCorrectDerivation root := by
  -- A goal is valid at the first candidate none of whose steps is incorrect.
  induction candidates generalizing broken? with
  | nil => cases broken? <;> cases h
  | cons candidate others ih =>
    rw [verdictFrom] at h
    cases hfound : (p.steps candidate).find? fun index => !p.isCorrectAt index with
    | none =>
      refine ⟨candidate, .head _, fun i hi hassumption => ?_⟩
      have hstep : i ∈ p.steps candidate := List.mem_filter.2 ⟨hi, by simp [hassumption]⟩
      simpa using List.find?_eq_none.1 hfound i hstep
    | some broken =>
      rw [hfound] at h
      obtain ⟨root, hroot, hcorrect⟩ := ih h
      exact ⟨root, .tail _ hroot, hcorrect⟩

theorem mem_statedAt {sentence : Sentence} :
    index ∈ p.statedAt sentence ↔ index < p.lines.length ∧ p.layout.levelAt index = 0 ∧
      p.sentenceAt? index = some sentence := by
  simp [statedAt]

/-- A goal that is found correct states a sentence that a line with a correct derivation states at
level 0. -/
theorem exists_of_goalJudgement {goal : Goal} (h : (p.goalJudgement goal).status = .correct) :
    ∃ sentence root, Sentence.read goal.text = .ok (some sentence) ∧
      p.layout.levelAt root = 0 ∧ p.sentenceAt? root = some sentence ∧
      p.IsCorrectDerivation root := by
  unfold goalJudgement at h
  cases hread : Sentence.read goal.text with
  | error failure =>
    rw [hread] at h
    cases h
  | ok sentence? =>
    cases sentence? with
    | none =>
      rw [hread] at h
      cases h
    | some sentence =>
      rw [hread] at h
      have hvalid : p.verdictFrom none (p.statedAt sentence) = .valid := by
        cases hverdict : p.verdictFrom none (p.statedAt sentence) with
        | valid => rfl
        | invalid message =>
          simp only [hverdict] at h
          cases h
      obtain ⟨root, hroot, hcorrect⟩ := exists_of_verdictFrom hvalid
      obtain ⟨-, hlevel, hsentence⟩ := mem_statedAt.1 hroot
      exact ⟨sentence, root, rfl, hlevel, hsentence, hcorrect⟩

/-- A goal that is verified as correct, by the rules alone and in a proof without quantifier rules,
follows from the assumptions at level 0. -/
theorem followsFrom_of_verifyGoal {setting : Setting} (hlocal : setting.checker? = none)
    {p : Proof} (hreachable : Reachable setting p)
    (hrules : ∀ line ∈ p.lines, line.rule? ≠ some .universalInstantiation ∧
      line.rule? ≠ some .existentialGeneralization)
    {index : Nat} {outcome : Outcome Status}
    (hverified : p.verifyGoal setting index = .ok outcome) (hcorrect : outcome.answer = .correct) :
    ∃ goal sentence, p.goals[index]? = some goal ∧
      Sentence.read goal.text = .ok (some sentence) ∧
      sentence.FollowsFrom p.premiseSentences := by
  obtain ⟨start, operations, hstart, rfl⟩ := hreachable
  have hp := ((WellFormed.initial hstart).run setting operations).1
  obtain ⟨_, hindex, hdone⟩ := Except.bind_eq_ok.1 hverified
  cases hdone
  have hgoal := List.getElem?_eq_getElem (checkGoal_eq_ok.1 hindex)
  rw [verifyGoalAt_answer hlocal hgoal] at hcorrect
  obtain ⟨sentence, root, hread, hlevel, hstates, hderivation⟩ := exists_of_goalJudgement hcorrect
  refine ⟨_, sentence, hgoal, hread, ?_⟩
  refine hp.followsFrom_premises hderivation (fun line hline rule hrule => ?_) hlevel hstates
  obtain ⟨huniversal, hexistential⟩ := hrules line hline
  rw [Option.mem_def.1 hrule] at huniversal hexistential
  cases rule <;> simp_all [Rule.isQuantifierRule]

/-- A proof of `P → R` from `P → Q` and `Q → R`, by a subproof that assumes `P`. -/
def chainedImplications : List Operation :=
  [.addPremise, .setText 0 "P → Q", .addPremise, .setText 1 "Q → R",
    .addLine 2 ⟨1, true⟩, .setText 2 "P",
    .addLine 3 ⟨1, false⟩, .setText 3 "Q", .setRule 3 (some .modusPonens),
    .togglePremise 3 0, .togglePremise 3 2,
    .addLine 4 ⟨1, false⟩, .setText 4 "R", .setRule 4 (some .modusPonens),
    .togglePremise 4 1, .togglePremise 4 3,
    .endSubproof 4, .setText 5 "P → R", .setRule 5 (some .conditionalProof),
    .togglePremise 5 2, .setGoalText 0 "P → R"]

theorem followsFrom_of_verifyGoal_chainedImplications :
    Reachable {} ((Proof.new []).run {} chainedImplications).1 ∧
      ∃ goal sentence, ((Proof.new []).run {} chainedImplications).1.goals[0]? = some goal ∧
        Sentence.read goal.text = .ok (some sentence) ∧
        sentence.FollowsFrom ((Proof.new []).run {} chainedImplications).1.premiseSentences := by
  have hreachable : Reachable {} ((Proof.new []).run {} chainedImplications).1 :=
    ⟨_, _, .new [], rfl⟩
  have hverified : ((Proof.new []).run {} chainedImplications).1.verifyGoal {} 0 =
      .ok (verifyGoalAt {} ((Proof.new []).run {} chainedImplications).1 0) :=
    Except.bind_eq_ok.2 ⟨(), checkGoal_eq_ok.2 (by decide +kernel), rfl⟩
  exact ⟨hreachable, followsFrom_of_verifyGoal rfl hreachable (by decide +kernel) hverified
    (by decide +kernel)⟩

end NaturalDeduction.Proof
