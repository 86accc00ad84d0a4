/-
  Line numbers in messages.

  A line that cites a line without a sentence is told the number of that line.
  Lines that come and go renumber the others, but only a line that loses a
  citation, or cites a subproof whose lines changed, is blanked. So a message may
  go on showing the number that a line had when the message was written. Here it
  is shown that nothing else about a message goes out of date, and this only by
  adding and deleting lines.
-/

import NaturalDeduction.Proofs.Document.Construction
import NaturalDeduction.Proofs.Verdict.Order
import NaturalDeduction.Proofs.Verdict.Staleness

namespace NaturalDeduction

namespace Proof

variable {setting : Setting} {start p q : Proof} {index : Nat} {line : Line}
  {operations : List Operation}

/-! ## Lines that give no premise -/

/-- The line at a position is cited, or is a conclusion of a subproof that is cited. -/
def Draws (p : Proof) (index : Nat) (line : Line) (position : Nat) : Prop :=
  ∃ cited ∈ p.premiseNumbers line, position = cited ∨
    p.layout.isSubproofPremise cited index = true ∧ position ∈ p.layout.subproofConclusions cited

theorem sentenceAt_eq_error {position number : Nat} (h : p.sentenceAt position = .error number) :
    number = position ∧ p.sentenceAt? position = none := by
  unfold sentenceAt at h
  cases hsentence : p.sentenceAt? position with
  | none =>
    rw [hsentence] at h
    cases h
    exact ⟨rfl, rfl⟩
  | some sentence =>
    rw [hsentence] at h
    cases h

/-- The position that is told where premises are unreadable is that of a line without a sentence
among those that the premises are drawn from. -/
theorem draws_of_premisesOf_eq_error {number : Nat}
    (h : p.premisesOf index line = .error number) :
    p.Draws index line number ∧ p.sentenceAt? number = none := by
  obtain ⟨cited, hcited, hfails⟩ := Except.exists_of_mapM_eq_error h
  rcases Except.bind_eq_error.1 hfails with hfirst | ⟨sentence, -, hrest⟩
  · obtain ⟨rfl, hnone⟩ := sentenceAt_eq_error hfirst
    exact ⟨⟨number, hcited, .inl rfl⟩, hnone⟩
  · split at hrest
    · rename_i hsubproof
      rcases Except.bind_eq_error.1 hrest with hconclusions | ⟨_, -, hdone⟩
      · obtain ⟨position, hposition, hfails⟩ := Except.exists_of_mapM_eq_error hconclusions
        obtain ⟨rfl, hnone⟩ := sentenceAt_eq_error hfails
        exact ⟨⟨cited, hcited, .inr ⟨hsubproof, hposition⟩⟩, hnone⟩
      · cases hdone
    · cases hrest

theorem Draws.exists_lineId? (hp : WellFormedLines p) {position : Nat}
    (h : p.Draws index line position) : ∃ id, p.lineId? position = some id := by
  obtain ⟨cited, hcited, rfl | ⟨hsubproof, hposition⟩⟩ := h
  · obtain ⟨id, -, hid⟩ := exists_of_mem_premiseNumbers hp hcited
    exact ⟨id, hid⟩
  · have hopens := Layout.opens_of_isSubproofPremise hsubproof
    have hrange := List.mem_of_mem_drop (List.mem_of_mem_filter hposition)
    exact exists_lineId?_of_contains hp ((Layout.mem_subproofRange hopens).1 hrange)

/-! ## What a mark may say -/

/-- The mark of a line is the one that verification finds, except that a line that gives no premise
may be called by any of the numbers that belong to it. -/
def Says (belongs : Option LineId → Nat → Prop) (p : Proof) (index : Nat) (line : Line) : Prop :=
  match examine p.restriction line with
  | .settled mark => line.mark = mark
  | .claims conclusion rule =>
    match p.premisesById index line with
    | .ok premises => line.mark = lineMark (ruleVerdict ⟨conclusion, premises, rule⟩)
    | .error id? =>
      ∃ number, belongs id? number ∧ line.mark = .invalid (unreadableMessage number)

variable {belongs more : Option LineId → Nat → Prop}

theorem says_of_mark_eq (hbelongs : ∀ number, belongs (p.lineId? number) number)
    (h : line.mark = (p.judgement index line).1) : p.Says belongs index line := by
  unfold judgement at h
  unfold Says premisesById
  cases hexamine : examine p.restriction line with
  | settled mark =>
    rw [hexamine] at h
    exact h
  | claims conclusion rule =>
    rw [hexamine] at h
    cases hpremises : p.premisesOf index line with
    | ok premises =>
      rw [hpremises] at h
      exact h
    | error number =>
      rw [hpremises] at h
      exact ⟨number, hbelongs number, h⟩

/-- Only a number can make a difference to what verification finds. -/
theorem Says.mark_cases (h : p.Says belongs index line) :
    line.mark = (p.judgement index line).1 ∨ ∃ current shown,
      p.premisesOf index line = .error current ∧ belongs (p.lineId? current) shown ∧
      (p.judgement index line).1 = .invalid (unreadableMessage current) ∧
      line.mark = .invalid (unreadableMessage shown) := by
  unfold Says premisesById at h
  unfold judgement
  cases hexamine : examine p.restriction line with
  | settled mark =>
    rw [hexamine] at h
    exact .inl h
  | claims conclusion rule =>
    rw [hexamine] at h
    cases hpremises : p.premisesOf index line with
    | ok premises =>
      rw [hpremises] at h
      exact .inl h
    | error current =>
      rw [hpremises] at h
      obtain ⟨shown, hshown, hmark⟩ := h
      exact .inr ⟨current, shown, rfl, hshown, rfl, hmark⟩

theorem Says.mono (h : p.Says belongs index line)
    (hmore : ∀ id? number, belongs id? number → more id? number) : p.Says more index line := by
  unfold Says at h ⊢
  split
  · rename_i hexamine
    rwa [hexamine] at h
  · rename_i hexamine
    rw [hexamine] at h
    split
    · rename_i hpremises
      rwa [hpremises] at h
    · rename_i hpremises
      rw [hpremises] at h
      obtain ⟨number, hnumber, hmark⟩ := h
      exact ⟨number, hmore _ _ hnumber, hmark⟩

/-- The condition of lines that show nothing, or what verification finds with some number that
belongs to the line without a sentence. -/
def naming (belongs : Option LineId → Nat → Prop) : Condition where
  onLine p index line := line.mark.status ≠ .unmarked → p.Says belongs index line
  onGoal _ _ := True
  congr_line hline hmark _ hexamine hpremises := by
    unfold Says at hline ⊢
    rw [hmark, hexamine, hpremises]
    exact hline
  line_blank _ _ _ hmark _ h := absurd (congrArg Mark.status hmark) h
  congr_goal _ _ _ _ := trivial
  goal_blank _ _ _ := trivial

/-- Verification calls a line by the number that it has. -/
theorem established_naming (h : setting.checker? = none)
    (hbelongs : ∀ number, belongs (p.lineId? number) number) :
    (naming belongs).Established setting p := by
  refine ⟨fun {q} hids index line _ => says_of_mark_eq (lineId?_congr hids ▸ hbelongs) ?_,
    fun _ _ _ => trivial⟩
  exact congrArg Prod.fst (lineFinding_eq_judgement h q index line)

/-! ## Messages that a verification would leave -/

/-- Verifying a line that shows something would leave its mark as it is, with the message. -/
def MessagesCurrent (setting : Setting) (p : Proof) : Prop :=
  ∀ (index : Nat) (line : Line), p.lines[index]? = some line → line.mark.status ≠ .unmarked →
    ∃ (outcome : Outcome Status) (verified : Line), p.verifyLine setting index = .ok outcome ∧
      outcome.proof.lines[index]? = some verified ∧ verified.mark = line.mark

theorem messagesCurrent_iff (h : setting.checker? = none) :
    MessagesCurrent setting p ↔ ∀ (index : Nat) (line : Line), p.lines[index]? = some line →
      line.mark.status ≠ .unmarked → line.mark = (p.judgement index line).1 := by
  refine forall_congr' fun index => forall_congr' fun line => forall_congr' fun hline =>
    forall_congr' fun _ => ?_
  have hverify := verifyLine_eq_ok setting (List.getElem?_eq_some_iff.1 hline).1
  have hverified := (getElem?_verifyLineAt h hline index).trans (if_pos rfl)
  constructor
  · rintro ⟨outcome, verified, hok, hat, hmark⟩
    obtain rfl := Except.ok.inj (hverify.symm.trans hok)
    obtain rfl := Option.some.inj (hverified.symm.trans hat)
    exact hmark.symm
  · intro hmark
    exact ⟨_, _, hverify, hverified, hmark.symm⟩

/-- Messages are current where lines are called by the numbers that they have. -/
theorem messagesCurrent_iff_naming (h : setting.checker? = none) (hp : WellFormedLines p) :
    MessagesCurrent setting p ↔ (naming fun id? number => p.lineId? number = id?).Holds p := by
  rw [messagesCurrent_iff h]
  constructor
  · intro hmarks
    exact ⟨fun index line _ hline hmarked =>
      says_of_mark_eq (fun _ => rfl) (hmarks index line hline hmarked), fun _ _ => trivial⟩
  · intro hholds index line hline hmarked
    rcases (hholds.line index line id hline hmarked).mark_cases with
      hmark | ⟨current, shown, hpremises, hshown, hfound, hmark⟩
    · exact hmark
    · -- No other position holds the line.
      obtain ⟨id, hid⟩ := (draws_of_premisesOf_eq_error hpremises).1.exists_lineId? hp
      obtain rfl := hp.eq_of_lineId? hid (hshown.trans hid)
      rw [hmark, hfound]

/-- Verifying everything leaves no message that is not current. -/
theorem messagesCurrent_verifyAll (h : setting.checker? = none) (p : Proof) :
    MessagesCurrent setting (p.verifyAll setting).proof := by
  have hmemoryless : setting.Memoryless := fun checker hchecker => by
    rw [h] at hchecker
    cases hchecker
  have halike := Alike.of_visible_eq (visible_eq_of_content_eq (content_verifyAll setting p))
  rw [messagesCurrent_iff h]
  intro index line hline _
  have hshown := shownAt_verifyAll hmemoryless p (.line index)
  simp only [shownAt, findingAt, hline, Option.map_some] at hshown
  obtain ⟨before, hbefore, hfinding⟩ := Option.map_eq_some_iff.1 hshown.symm
  rw [lineFinding_eq_judgement h] at hfinding
  rcases halike.line_cases index with ⟨hnone, -⟩ | ⟨old, new, hold, hnew, hrecord⟩
  · rw [hbefore] at hnone
    cases hnone
  · obtain rfl := Option.some.inj (hbefore.symm.trans hold)
    obtain rfl := Option.some.inj (hline.symm.trans hnew)
    rw [judgement_congr halike hrecord, hfinding]

/-! ## Operations that leave lines where they are -/

theorem MessagesCurrent.attempt (h : setting.checker? = none) (hp : WellFormed p)
    (hcurrent : MessagesCurrent setting p) {operation : Operation}
    (hkeeps : operation.rearranges = false) :
    MessagesCurrent setting (p.attempt setting operation).1 := by
  have hnext : WellFormed (p.attempt setting operation).1 := (hp.run setting [operation]).1
  have hholds := ((messagesCurrent_iff_naming h hp.toWellFormedLines).1 hcurrent).attempt hp
    (established_naming h fun _ => rfl) operation
  rw [messagesCurrent_iff_naming h hnext.toWellFormedLines]
  rwa [← lineId?_congr (ids_attempt setting p hkeeps)] at hholds

/-- Messages that are current stay current while no line is added or deleted. -/
theorem MessagesCurrent.run (h : setting.checker? = none) (hp : WellFormed p)
    (hcurrent : MessagesCurrent setting p) (operations : List Operation)
    (hkeeps : ∀ operation ∈ operations, operation.rearranges = false) :
    MessagesCurrent setting (p.run setting operations).1 := by
  induction operations generalizing p with
  | nil => exact hcurrent
  | cons operation operations ih =>
    exact ih (hp.run setting [operation]).1 (hcurrent.attempt h hp (hkeeps operation (.head _)))
      fun other hother => hkeeps other (.tail _ hother)

/-! ## Sessions -/

/-- The numbers that a line had at the moments of a session. -/
def HasHad (setting : Setting) (start : Proof) (operations : List Operation)
    (id? : Option LineId) (number : Nat) : Prop :=
  ∃ n ≤ operations.length, (moment setting start operations n).lineId? number = id?

theorem HasHad.append {operation : Operation} {id? : Option LineId} {number : Nat}
    (h : HasHad setting start operations id? number) :
    HasHad setting start (operations ++ [operation]) id? number := by
  obtain ⟨n, hn, hid⟩ := h
  refine ⟨n, ?_, ?_⟩
  · rw [List.length_append]
    exact Nat.le_add_right_of_le hn
  · rwa [moment_append hn]

/-- Throughout a session, lines are called by numbers that they had. -/
theorem naming_run (h : setting.checker? = none) (hstart : Initial start)
    (operations : List Operation) :
    (naming (HasHad setting start operations)).Holds (start.run setting operations).1 := by
  -- The induction is on the operations from the last one: it may have renumbered the lines, and
  -- the marks that are left were found before.
  induction operations using List.reverseRecOn with
  | nil => exact .initial _ hstart
  | append_singleton operations operation ih =>
    have hwell := ((WellFormed.initial hstart).run setting operations).1
    have hmore : (naming (HasHad setting start (operations ++ [operation]))).Holds
        (start.run setting operations).1 :=
      ⟨fun index line _ hline hmarked =>
        (ih.line index line id hline hmarked).mono fun _ _ => .append, fun _ _ => trivial⟩
    rw [run_concat]
    refine hmore.attempt hwell (established_naming h fun number => ?_) operation
    exact .append ⟨operations.length, Nat.le_refl _, by rw [moment_length]⟩

/-- A line was told of another one that gives no premise, and still shows a number that this line
had at an earlier moment of the session, where verifying it now finds another number. -/
def Misnumbered (setting : Setting) (start : Proof) (operations : List Operation) (index : Nat)
    (line : Line) (found : Mark) : Prop :=
  ∃ id current shown, (start.run setting operations).1.lineId? current = some id ∧
    (start.run setting operations).1.sentenceAt? current = none ∧
    (start.run setting operations).1.Draws index line current ∧
    found = .invalid (unreadableMessage current) ∧
    line.mark = .invalid (unreadableMessage shown) ∧
    HasHad setting start operations (some id) shown

/-- The messages on the lines, at the end of a session. -/
structure NamesLines (setting : Setting) (start : Proof) (operations : List Operation) : Prop where
  /-- What a line shows is what verifying it now makes it show, up to a number. -/
  verifyLine_eq : ∀ (index : Nat) (line : Line),
    (start.run setting operations).1.lines[index]? = some line → line.mark.status ≠ .unmarked →
    ∃ (outcome : Outcome Status) (verified : Line),
      (start.run setting operations).1.verifyLine setting index = .ok outcome ∧
      outcome.proof.lines[index]? = some verified ∧
      verified.mark.status = line.mark.status ∧ verified.mark.range? = line.mark.range? ∧
      verified.claim? = line.claim? ∧
      (verified.mark = line.mark ∨
        Misnumbered setting start operations index line verified.mark)
  /-- Verifying the proof brings every message up to date. -/
  verifyAll_current : MessagesCurrent setting (start.run setting (operations ++ [.verifyAll])).1
  /-- Only adding and deleting lines can make a message outdated. -/
  run_current : MessagesCurrent setting (start.run setting operations).1 →
    ∀ more : List Operation, (∀ operation ∈ more, operation.rearranges = false) →
      MessagesCurrent setting (start.run setting (operations ++ more)).1

/-- At every moment of a session without an external checker, what a line shows, its message
included, is what verifying it now would make it show, except that a message may give the number
that the line without a sentence had before lines were added or deleted. Verifying the proof puts
all numbers right, and they stay so until lines are added or deleted again. -/
theorem messages_name_lines (h : setting.checker? = none) (hstart : Initial start)
    (operations : List Operation) : NamesLines setting start operations := by
  have hwell := ((WellFormed.initial hstart).run setting operations).1
  have hfresh := (Fresh.initial hstart).run (.initial hstart) h operations
  have hnaming := naming_run h hstart operations
  refine ⟨fun index line hline hmarked => ?_, ?_, fun hcurrent more hkeeps => ?_⟩
  · have hshown := (hfresh.line index line id hline).shown_eq hmarked
    simp only [Line.shown, gist, Prod.mk.injEq] at hshown
    obtain ⟨hstatus, hrange, hclaim⟩ := hshown
    refine ⟨_, _, verifyLine_eq_ok setting (List.getElem?_eq_some_iff.1 hline).1,
      (getElem?_verifyLineAt h hline index).trans (if_pos rfl), hstatus.symm, hrange.symm,
      hclaim.symm, ?_⟩
    rcases (hnaming.line index line id hline hmarked).mark_cases with
      hmark | ⟨current, shown, hpremises, hhad, hfound, hmark⟩
    · exact .inl hmark.symm
    · obtain ⟨hdraws, hsentence⟩ := draws_of_premisesOf_eq_error hpremises
      obtain ⟨id, hid⟩ := hdraws.exists_lineId? hwell.toWellFormedLines
      exact .inr ⟨id, current, shown, hid, hsentence, hdraws, hfound, hmark, hid ▸ hhad⟩
  · rw [run_concat]
    exact messagesCurrent_verifyAll h _
  · rw [run_append]
    exact hcurrent.run h hwell more hkeeps

/-- A line cites one that is no sentence, and the line before both is deleted. -/
def deletedAbove : List Operation :=
  [.addPremise, .setText 0 "P", .addPremise, .setText 1 "P ∧", .addLine 2 ⟨0, false⟩,
    .setText 2 "Q", .togglePremise 2 1, .setRule 2 (some .reiteration), .delete 0]

/-- The message before the deletion, after it, and when the line is verified again. -/
theorem messages_name_lines_deletedAbove :
    ({} : Setting).checker? = none ∧ Initial (.new []) ∧ NamesLines {} (.new []) deletedAbove ∧
    (moment {} (.new []) deletedAbove 8).lines[2]?.map (·.mark) =
      some (.invalid "The expression at line 2 is invalid") ∧
    ((Proof.new []).run {} deletedAbove).1.lines[1]?.map (·.mark) =
      some (.invalid "The expression at line 2 is invalid") ∧
    ((Proof.new []).run {} (deletedAbove ++ [.verifyLine 1])).1.lines[1]?.map (·.mark) =
      some (.invalid "The expression at line 1 is invalid") :=
  ⟨rfl, .new [], messages_name_lines rfl (.new []) deletedAbove, by decide +kernel,
    by decide +kernel, by decide +kernel⟩

/-- Messages are not always current: a deletion leaves the number that a line had before. -/
theorem not_messagesCurrent_deletedAbove :
    ({} : Setting).checker? = none ∧ Initial (.new []) ∧
      ¬ MessagesCurrent {} ((Proof.new []).run {} deletedAbove).1 := by
  refine ⟨rfl, .new [], fun hcurrent => ?_⟩
  rw [messagesCurrent_iff rfl] at hcurrent
  have houtdated : (((Proof.new []).run {} deletedAbove).1.lines[1]?.any fun line =>
      line.mark.status ≠ .unmarked ∧
        line.mark ≠ (((Proof.new []).run {} deletedAbove).1.judgement 1 line).1) = true := by
    decide +kernel
  obtain ⟨line, hline, hdiffers⟩ := Option.any_eq_true _ _ |>.1 houtdated
  obtain ⟨hmarked, hne⟩ := of_decide_eq_true hdiffers
  exact hne (hcurrent 1 line hline hmarked)

end Proof

end NaturalDeduction
