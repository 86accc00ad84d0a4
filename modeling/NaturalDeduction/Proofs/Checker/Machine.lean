/-
  Verifying on machine words.

  Lines are looked up by their identities and rows in the table of subproofs,
  and the numbers in messages are words. On a well-formed proof none of this
  traps, and the outcome is that of the verification without an external
  checker.
-/

import NaturalDeduction.Checker.Server
import NaturalDeduction.Proofs.Checker.Loading
import NaturalDeduction.Proofs.Document.Edits
import NaturalDeduction.Proofs.Goal.Derivation
import NaturalDeduction.Proofs.Store.Content

namespace NaturalDeduction.Machine

open Trapping

/-! ## Checking a claim -/

/-- One premise is counted, and then taken, in one step or in two. -/
theorem checkFirst_eq_ok (rule : Rule) (premises : List Premise)
    (required : Sentence → Rule.Checked Unit) :
    checkFirst rule premises required = .ok (rule.onePremise premises >>= required) := by
  rw [checkFirst, countedPremises, Rule.onePremise]
  cases rule.plainPremises premises with
  | error violation => rfl
  | ok sentences =>
    match sentences with
    | [] => rfl
    | [premise] => rfl
    | _ :: _ :: _ => simp [bind, Except.bind]

theorem checkExcludedMiddle_eq (conclusion : Sentence) :
    (do
      let excluded ← isExcludedMiddle (conclusion.disjuncts?.getD [])
      return Rule.require excluded (.notExcludedMiddle conclusion) :
        Trapping (Rule.Checked Unit)) = .ok (Rule.checkExcludedMiddle conclusion) := by
  rw [Rule.checkExcludedMiddle]
  match conclusion.disjuncts? with
  | none => rfl
  | some [] => rfl
  | some [_] => rfl
  | some [a, b] =>
    have hfirst : lookUp [a, b] 0 = .ok a := rfl
    have hsecond : lookUp [a, b] 1 = .ok b := rfl
    simp only [Option.getD_some, isExcludedMiddle, hfirst, hsecond, bind, Except.bind, pure,
      Except.pure]
    cases b.negated? == some a <;> rfl
  | some (_ :: _ :: _ :: _) => simp [isExcludedMiddle, bind, Except.bind, pure, Except.pure]

/-- Checking a claim does not trap: its premises are counted before they are taken. -/
theorem checkClaim_eq_ok (claim : Claim) : checkClaim claim = .ok claim.check := by
  obtain ⟨conclusion, premises, rule⟩ := claim
  cases rule with
  | reiteration | simplification | addition | doubleNegation | principleOfExplosion
  | universalInstantiation | existentialGeneralization => exact checkFirst_eq_ok _ _ _
  | excludedMiddle =>
    simp only [checkClaim, Claim.check, Rule.check, countedPremises]
    cases Rule.plainPremises .excludedMiddle premises with
    | error violation => rfl
    | ok sentences =>
      cases sentences with
      | nil => exact checkExcludedMiddle_eq conclusion
      | cons => rfl
  | _ => rfl
theorem ruleVerdict_eq_ok (claim : Claim) :
    ruleVerdict claim = .ok (Proof.ruleVerdict claim) := by
  rw [ruleVerdict, checkClaim_eq_ok, Proof.ruleVerdict]
  cases claim.check <;> rfl

/-! ## Proofs and their tables -/

/-- A well-formed proof with few enough lines to count them, and the table of its rows. -/
structure Tabled (table : BlockTable) (p : Proof) : Prop where
  wellFormed : p.WellFormedLines
  table_eq : table = p.layout.blockTable
  length_lt : p.lines.length + 1 < Word.limit 64

variable {table : BlockTable} {p q : Proof} {index : Nat} {line : Line}

theorem length_lines_of_content_eq (h : q.content = p.content) :
    q.lines.length = p.lines.length := by
  simpa using congrArg List.length (Proof.ids_eq_of_content_eq h)

namespace Tabled

/-- Verification leaves the rows as they are, and the table with them. -/
theorem congr (hp : Tabled table p) (h : q.content = p.content) : Tabled table q where
  wellFormed := hp.wellFormed.congr_outline (Proof.outline_eq_of_content_eq h)
  table_eq := by
    have hlayout : q.content.layout = p.content.layout := congrArg Proof.layout h
    rw [hp.table_eq]
    exact congrArg Layout.blockTable hlayout.symm
  length_lt := by
    rw [length_lines_of_content_eq h]
    exact hp.length_lt

theorem rows_eq (hp : Tabled table p) : table.rows = p.layout := by
  rw [hp.table_eq]
  rfl

theorem length_layout_lt (hp : Tabled table p) : p.layout.length + 1 < Word.limit 64 := by
  rw [hp.wellFormed.length_layout]
  exact hp.length_lt

/-! ## Lines at positions -/

/-- The line at a position is the one with the identity there. -/
theorem lineAt_eq_ok (hp : Tabled table p) (hline : p.lines[index]? = some line) :
    lineAt p index = .ok line := by
  have hid : (p.lines.map Line.id)[index]? = some line.id := by rw [List.getElem?_map, hline]; rfl
  have hfind : p.lines.find? (·.id == line.id) = some line := by
    have hmem := List.mem_of_getElem? hline
    cases hfound : p.lines.find? (·.id == line.id) with
    | none => simpa using List.find?_eq_none.1 hfound line hmem
    | some other =>
      have hother : other.id = line.id := by simpa using List.find?_some hfound
      rw [List.inj_on_of_nodup_map hp.wellFormed.ids_nodup (List.mem_of_find?_eq_some hfound)
        hmem hother]
  rw [lineAt, lookUp_eq_ok hid]
  simp only [bind, Except.bind, hfind]
  rfl

/-- The sentence at a position, or the message with the number of the line that has none. -/
theorem sentenceAt_eq_ok (hp : Tabled table p) (h : index < p.lines.length) :
    sentenceAt p index = .ok ((p.sentenceAt index).mapError Proof.unreadableMessage) := by
  have hline := List.getElem?_eq_getElem h
  have hsum : sum index 1 = .ok (index + 1) := by
    have := hp.length_lt
    exact sum_eq_ok (by omega)
  rw [sentenceAt, hp.lineAt_eq_ok hline, Proof.sentenceAt, Proof.sentenceAt?, hline]
  simp only [bind, Except.bind, Option.bind_some, hsum]
  cases p.lines[index].sentence? <;> rfl

/-! ## What the table tells of a subproof -/

theorem isSubproofPremise_eq_ok (hp : Tabled table p) {cited : Nat}
    (hcited : cited < p.lines.length) (h : index < p.lines.length) :
    table.isSubproofPremise cited index = .ok (p.layout.isSubproofPremise cited index) := by
  rw [← hp.wellFormed.length_layout] at hcited h
  rw [hp.table_eq]
  exact Layout.isSubproofPremise_eq_ok hp.wellFormed.valid hp.length_layout_lt hcited h

theorem subproofRange_eq_ok (hp : Tabled table p) {opener : Nat} (h : opener < p.lines.length) :
    table.subproofRange opener = .ok (p.layout.subproofRange opener) := by
  have := hp.length_layout_lt
  rw [← hp.wellFormed.length_layout] at h
  rw [hp.table_eq]
  exact Layout.subproofRange_eq_ok (by omega) h

theorem subproofConclusions_eq_ok (hp : Tabled table p) {opener : Nat}
    (h : opener < p.lines.length) :
    table.subproofConclusions opener = .ok (p.layout.subproofConclusions opener) := by
  have := hp.length_layout_lt
  rw [← hp.wellFormed.length_layout] at h
  rw [hp.table_eq]
  exact Layout.subproofConclusions_eq_ok (by omega) h

/-- The rows of a subproof are lines of the proof. -/
theorem lt_of_mem_subproofRange (hp : Tabled table p) {opener position : Nat}
    (hopener : opener < p.lines.length) (h : position ∈ p.layout.subproofRange opener) :
    position < p.lines.length := by
  rw [← hp.wellFormed.length_layout] at hopener ⊢
  exact Layout.lt_length_of_mem_subproofRange hopener h

/-! ## Verifying a line -/

theorem premiseAt_eq_ok (hp : Tabled table p) {cited : Nat} (hcited : cited < p.lines.length)
    (h : index < p.lines.length) :
    premiseAt table p index cited =
      .ok ((p.premiseAt index cited).mapError Proof.unreadableMessage) := by
  have hconclusions : collect (sentenceAt p) (p.layout.subproofConclusions cited) =
      .ok (((p.layout.subproofConclusions cited).mapM p.sentenceAt).mapError
        Proof.unreadableMessage) := by
    rw [Except.mapError_mapM]
    exact collect_eq_ok fun position hposition =>
      hp.sentenceAt_eq_ok (hp.lt_of_mem_subproofRange hcited
        (List.mem_of_mem_drop (List.mem_filter.1 hposition).1))
  rw [premiseAt, Proof.premiseAt, hp.sentenceAt_eq_ok hcited]
  cases p.sentenceAt cited with
  | error unreadable => rfl
  | ok sentence =>
    simp only [bind, Except.bind, Except.mapError, hp.isSubproofPremise_eq_ok hcited h,
      hp.subproofConclusions_eq_ok hcited, hconclusions]
    cases p.layout.isSubproofPremise cited index with
    | false => rfl
    | true => cases (p.layout.subproofConclusions cited).mapM p.sentenceAt <;> rfl

/-- What a line cites stands before it. -/
theorem lt_of_mem_premiseNumbers (hp : Tabled table p) (hline : p.lines[index]? = some line)
    {cited : Nat} (h : cited ∈ p.premiseNumbers line) : cited < p.lines.length :=
  Nat.lt_trans (Layout.lt_of_isAccessible (hp.wellFormed.isAccessible_of_mem hline h))
    (List.getElem?_eq_some_iff.1 hline).1

/-- The mark and the claim are those found without an external checker, which changes nothing
else. -/
theorem judgeLine_eq_ok (hp : Tabled table p) (hline : p.lines[index]? = some line) :
    ∃ mark claim?, judgeLine table p index line = .ok (mark, claim?) ∧
      Proof.judgeLine {} p index line = (mark, claim?, p) := by
  have hindex := (List.getElem?_eq_some_iff.1 hline).1
  have hpremises : collect (premiseAt table p index) (p.premiseNumbers line) =
      .ok ((p.premisesOf index line).mapError Proof.unreadableMessage) := by
    rw [Proof.premisesOf, Except.mapError_mapM]
    exact collect_eq_ok fun cited hcited =>
      hp.premiseAt_eq_ok (hp.lt_of_mem_premiseNumbers hline hcited) hindex
  rw [judgeLine, Proof.judgeLine]
  cases Proof.examine p.restriction line with
  | settled mark => exact ⟨mark, none, rfl, rfl⟩
  | claims conclusion rule =>
    simp only [bind, Except.bind, hpremises]
    cases p.premisesOf index line with
    | error unreadable => exact ⟨_, _, rfl, rfl⟩
    | ok premises =>
      simp only [Except.mapError, ruleVerdict_eq_ok]
      exact ⟨_, _, rfl, rfl⟩

/-- Verifying a line does not trap. -/
theorem verifyLine_eq_ok (hp : Tabled table p) (h : index < p.lines.length) :
    verifyLine table p index = .ok (p.verifyLineAt {} index) := by
  have hline := List.getElem?_eq_getElem h
  obtain ⟨mark, claim?, hjudged, hsame⟩ := hp.judgeLine_eq_ok hline
  rw [verifyLine, hp.lineAt_eq_ok hline, Proof.verifyLineAt, hline]
  simp only [bind, Except.bind, hjudged, hsame]
  rfl

/-! ## Verifying a goal -/

theorem restsOn_eq_ok (hp : Tabled table p) (h : index < p.lines.length) :
    restsOn table p index = .ok (p.restsOn index) := by
  have hline := List.getElem?_eq_getElem h
  have hparts : (p.premiseNumbers p.lines[index]).mapM (fun cited => do
        if ← table.isSubproofPremise cited index then table.subproofRange cited
        else return [cited]) =
      .ok ((p.premiseNumbers p.lines[index]).map fun cited =>
        if p.layout.isSubproofPremise cited index then p.layout.subproofRange cited
        else [cited]) := by
    refine mapM_eq_ok fun cited hcited => ?_
    have hlt := hp.lt_of_mem_premiseNumbers hline hcited
    simp only [bind, Except.bind, hp.isSubproofPremise_eq_ok hlt h, hp.subproofRange_eq_ok hlt]
    split <;> rfl
  rw [restsOn, hp.lineAt_eq_ok hline, Proof.restsOn, hline]
  simp only [bind, Except.bind] at hparts ⊢
  rw [hparts]
  rfl

theorem collectBelow_eq_ok (hp : Tabled table p) {bound : Nat} (h : bound ≤ p.lines.length)
    (derivation : List Nat) :
    collectBelow table p bound derivation = .ok (p.collectBelow bound derivation) := by
  induction bound generalizing derivation with
  | zero => rfl
  | succ bound ih =>
    rw [collectBelow, Proof.collectBelow, hp.restsOn_eq_ok h]
    split <;> exact ih (Nat.le_of_succ_le h) _

theorem statedAt_eq_ok (hp : Tabled table p) (sentence : Sentence) :
    statedAt table p sentence = .ok (p.statedAt sentence) := by
  refine filter_eq_ok fun index hindex => ?_
  have hlt := List.mem_range.1 hindex
  have hline := List.getElem?_eq_getElem hlt
  rw [← hp.wellFormed.length_layout] at hlt
  obtain ⟨_, hlook, -, hlevel, -⟩ := Layout.lookUp_rows hlt
  simp only [bind, Except.bind, hp.rows_eq, hlook, hp.lineAt_eq_ok hline, ← hlevel,
    Proof.sentenceAt?, hline, Option.bind_some]
  cases p.layout.levelAt index == 0 <;> rfl

/-- Verifying lines in order does not trap. -/
theorem firstIncorrect_eq_ok (hp : Tabled table p) {steps : List Nat}
    (h : ∀ index ∈ steps, index < p.lines.length) :
    firstIncorrect table p steps = .ok (p.firstIncorrect {} steps) := by
  induction steps generalizing p with
  | nil => rfl
  | cons index steps ih =>
    obtain ⟨hindex, hothers⟩ := List.forall_mem_cons.1 h
    have hsame := Proof.content_verifyLineAt {} p index
    have hrest := ih (hp.congr hsame) (by rwa [length_lines_of_content_eq hsame])
    rw [firstIncorrect, Proof.firstIncorrect, hp.verifyLine_eq_ok hindex]
    simp only [bind, Except.bind, hrest]
    split <;> rfl

/-- The answer is one of the lines that were to be verified. -/
theorem mem_of_firstIncorrect {steps : List Nat} {broken : Nat}
    (h : (p.firstIncorrect {} steps).answer = some broken) : broken ∈ steps := by
  induction steps generalizing p with
  | nil => cases h
  | cons index steps ih =>
    rw [Proof.firstIncorrect] at h
    split at h
    · exact .tail _ (ih h)
    · cases h
      exact .head _

/-- The derivation of a line ends with the line. -/
theorem le_of_mem_derivation (hp : Tabled table p) {root : Nat} (h : index ∈ p.derivation root) :
    index ≤ root := by
  by_contra hlt
  have hadded := (hp.wellFormed.collectBelow_closed (root + 1) [root]).2.1 index h (by omega)
  rw [List.mem_singleton] at hadded
  omega

/-- Of lines that are there, those that rules derive are told from the assumptions. -/
theorem filter_derived_eq_ok (hp : Tabled table p) {indices : List Nat}
    (h : ∀ index ∈ indices, index < p.lines.length) :
    filter (fun index => do return !(← lookUp table.rows index).assumption) indices =
      .ok (indices.filter fun index => !p.layout.isAssumption index) := by
  refine filter_eq_ok fun index hindex => ?_
  obtain ⟨_, hlook, -, -, hassumption, -⟩ := Layout.lookUp_rows
    (hp.wellFormed.length_layout.symm ▸ h index hindex)
  rw [hp.rows_eq, hlook, hassumption]
  rfl

/-- Trying the lines that state a goal does not trap. -/
theorem reachFrom_eq_ok (hp : Tabled table p) {broken? : Option Nat} {candidates : List Nat}
    (hbroken : ∀ broken ∈ broken?, broken < p.lines.length)
    (h : ∀ index ∈ candidates, index < p.lines.length) :
    reachFrom table p broken? candidates = .ok (p.reachFrom {} broken? candidates) := by
  induction candidates generalizing p broken? with
  | nil =>
    cases broken? with
    | none => rfl
    | some broken =>
      have hlt := hbroken broken rfl
      have hlength := hp.length_lt
      rw [reachFrom, sum_eq_ok (by omega)]
      rfl
  | cons candidate others ih =>
    obtain ⟨hcandidate, hothers⟩ := List.forall_mem_cons.1 h
    obtain ⟨steps, hsteps⟩ : ∃ steps, (p.derivation candidate).filter
      (fun index => !p.layout.isAssumption index) = steps := ⟨_, rfl⟩
    have hlt : ∀ index ∈ p.derivation candidate, index < p.lines.length := fun index hindex =>
      Nat.lt_of_le_of_lt (hp.le_of_mem_derivation hindex) hcandidate
    have hltSteps : ∀ index ∈ steps, index < p.lines.length := fun index hindex =>
      hlt index (List.mem_filter.1 (hsteps ▸ hindex)).1
    have hderivation : collectBelow table p (candidate + 1) [candidate] =
        .ok (p.derivation candidate) := hp.collectBelow_eq_ok hcandidate _
    have hfiltered : filter (fun index => do return !(← lookUp table.rows index).assumption)
        (p.derivation candidate) = .ok steps := hsteps ▸ hp.filter_derived_eq_ok hlt
    rw [reachFrom, Proof.reachFrom, hderivation]
    simp only [bind, Except.bind] at hfiltered ⊢
    simp only [hfiltered, hsteps, hp.firstIncorrect_eq_ok hltSteps]
    cases hanswer : (p.firstIncorrect {} steps).answer with
    | none => rfl
    | some broken =>
      -- The first line that failed is reported at the end, so it is carried along.
      have hsame := Proof.content_firstIncorrect {} p steps
      have hreported : ∀ first ∈ some (broken?.getD broken),
          first < (p.firstIncorrect {} steps).proof.lines.length := by
        intro first hfirst
        rw [length_lines_of_content_eq hsame, ← Option.some.inj hfirst]
        cases broken? with
        | none => exact hltSteps broken (mem_of_firstIncorrect hanswer)
        | some first => exact hbroken first rfl
      simp only [ih (hp.congr hsame) hreported (by rwa [length_lines_of_content_eq hsame])]
      rfl

theorem judgeGoal_eq_ok (hp : Tabled table p) (index : Nat) (goal : Goal) :
    judgeGoal table p goal = .ok (p.judgeGoal {} index goal) := by
  have hstated : ∀ sentence, ∀ position ∈ p.statedAt sentence, position < p.lines.length :=
    fun sentence position hposition => List.mem_range.1 (List.mem_filter.1 hposition).1
  rw [judgeGoal, Proof.judgeGoal]
  cases Sentence.read goal.text with
  | error failure => rfl
  | ok sentence? =>
    cases sentence? with
    | none => rfl
    | some sentence =>
      have hreached : reachFrom table p none (p.statedAt sentence) =
          .ok (p.reachFrom {} none (p.statedAt sentence)) :=
        hp.reachFrom_eq_ok (by simp) (hstated sentence)
      simp only [bind, Except.bind, hp.statedAt_eq_ok, hreached]
      rfl

/-- Verifying a goal does not trap. -/
theorem verifyGoal_eq_ok (hp : Tabled table p) (h : index < p.goals.length) :
    verifyGoal table p index = .ok (p.verifyGoalAt {} index) := by
  have hgoal := List.getElem?_eq_getElem h
  rw [verifyGoal, lookUp_eq_ok hgoal, Proof.verifyGoalAt, hgoal]
  simp only [bind, Except.bind, hp.judgeGoal_eq_ok index]
  rfl

/-! ## Answering a request -/

theorem verifyTarget_eq_ok (hp : Tabled table p) (target : Target) :
    verifyTarget table p target = .ok ((CheckRequest.verifyTarget p target).map fun verified =>
      (verified.answer, (CheckRequest.markAt? verified.proof target).bind Mark.message?)) := by
  cases target with
  | line index =>
    rw [verifyTarget, CheckRequest.verifyTarget, Proof.verifyLine, Proof.checkLine]
    by_cases hindex : index < p.lines.length
    · have hsame := Proof.content_verifyLineAt {} p index
      have hline := List.getElem?_eq_getElem (length_lines_of_content_eq hsame ▸ hindex)
      rw [if_pos hindex, if_pos hindex, hp.verifyLine_eq_ok hindex]
      simp only [bind, Except.bind, pure, Except.pure, Except.map,
        (hp.congr hsame).lineAt_eq_ok hline, CheckRequest.markAt?, Proof.lineView?, hline]
      rfl
    · rw [if_neg hindex, if_neg hindex]
      rfl
  | goal index =>
    rw [verifyTarget, CheckRequest.verifyTarget, Proof.verifyGoal, Proof.checkGoal]
    by_cases hindex : index < p.goals.length
    · have hsame := Proof.content_verifyGoalAt {} p index
      have hgoal := List.getElem?_eq_getElem
        (Proof.length_goals_of_content_eq hsame ▸ hindex)
      rw [if_pos hindex, if_pos hindex, hp.verifyGoal_eq_ok hindex]
      simp only [bind, Except.bind, pure, Except.pure, Except.map, lookUp_eq_ok hgoal,
        CheckRequest.markAt?, Proof.goalView?, hgoal]
      rfl
    · rw [if_neg hindex, if_neg hindex]
      rfl

/-- A row that was verified has a number. -/
theorem describe_eq_ok (hp : Tabled table p) (hgoals : p.goals.length + 1 < Word.limit 64)
    {target : Target} {verified : Outcome Status}
    (h : CheckRequest.verifyTarget p target = .ok verified) :
    describe target = .ok target.describe := by
  have hlines := hp.length_lt
  cases target with
  | line index =>
    obtain ⟨_, hchecked, -⟩ := Except.bind_eq_ok.1 h
    have hindex : index < p.lines.length := by
      by_contra hbeyond
      rw [Proof.checkLine_of_not_lt hbeyond] at hchecked
      cases hchecked
    rw [describe, sum_eq_ok (by omega)]
    rfl
  | goal index =>
    obtain ⟨_, hchecked, -⟩ := Except.bind_eq_ok.1 h
    have hindex : index < p.goals.length := by
      by_contra hbeyond
      rw [Proof.checkGoal_of_not_lt hbeyond] at hchecked
      cases hchecked
    rw [describe, sum_eq_ok (by omega)]
    rfl

end Tabled

/-- The proof of a document has its table. -/
theorem tabled_ofDocument {document : Document} (hlines : document.lines.length + 1 < Word.limit 64)
    (h : Proof.ofDocument document = .ok p) : Tabled p.layout.blockTable p where
  wellFormed := (Proof.wellFormed_ofDocument h).toWellFormedLines
  table_eq := rfl
  length_lt := by
    obtain ⟨-, hproof⟩ := Proof.ofDocument_eq_ok_iff.1 h
    rw [← hproof, List.length_mapIdx]
    exact hlines

/-- Answering a request does not trap, whatever numbers it holds. -/
theorem answer_eq_ok {request : CheckRequest}
    (hlines : request.document.lines.length + 1 < Word.limit 64)
    (hgoals : request.document.goals.length + 1 < Word.limit 64) :
    answer request = .ok request.answer := by
  rw [answer, CheckRequest.answer, load_eq_ok hlines hgoals]
  cases hloaded : Proof.ofDocument request.document with
  | error error => rfl
  | ok p =>
    have hp := tabled_ofDocument hlines hloaded
    have hcount : p.goals.length + 1 < Word.limit 64 := by
      obtain ⟨-, hproof⟩ := Proof.ofDocument_eq_ok_iff.1 hloaded
      rw [← hproof, List.length_mapIdx]
      exact hgoals
    simp only [bind, Except.bind, Except.map, hp.verifyTarget_eq_ok]
    cases hverified : CheckRequest.verifyTarget p request.target with
    | error reason => rfl
    | ok verified =>
      have hdescribed := hp.describe_eq_ok hcount hverified
      simp only [Except.mapError]
      split
      · rfl
      · cases (CheckRequest.markAt? verified.proof request.target).bind Mark.message? with
        | some message => rfl
        | none =>
          simp only [hdescribed]
          rfl

end NaturalDeduction.Machine
