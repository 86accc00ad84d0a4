/-
  What the number of edits tells.

  Every operation that changes the document counts one edit, whatever it does
  besides: it may drop marks, and verify lines. Verifications, the passing of
  time, refusals and edits that put in what is there already change neither the
  document nor the number. So a document that was stored with the number of
  edits at the time is up to date as long as this number stays the same.
-/

import NaturalDeduction.Proofs.Store.Ledger

namespace NaturalDeduction

namespace Proof

variable {setting : Setting} {p q r : Proof} {events : List Event}

/-! ## Changes that are not counted by themselves -/

/-- Nothing that is edited differs, and no edit was counted. -/
structure Unedited (p q : Proof) : Prop where
  content_eq : q.content = p.content
  edits_eq : q.edits = p.edits

namespace Unedited

theorem refl (p : Proof) : Unedited p p := ⟨rfl, rfl⟩

theorem trans (h : Unedited p q) (hmore : Unedited q r) : Unedited p r :=
  ⟨hmore.content_eq.trans h.content_eq, hmore.edits_eq.trans h.edits_eq⟩

theorem document_eq (h : Unedited p q) : q.document = p.document :=
  document_eq_of_content_eq h.content_eq

end Unedited

theorem unedited_of_eq (hcontent : q.content = p.content) (hledger : q.ledger = p.ledger) :
    Unedited p q :=
  ⟨hcontent, edits_eq_of_ledger_eq hledger⟩

theorem unedited_verifyLineAt (setting : Setting) (p : Proof) (index : Nat) :
    Unedited p (verifyLineAt setting p index).proof :=
  unedited_of_eq (content_verifyLineAt ..) (ledger_verifyLineAt ..)

theorem unedited_verifyGoalAt (setting : Setting) (p : Proof) (index : Nat) :
    Unedited p (verifyGoalAt setting p index).proof :=
  unedited_of_eq (content_verifyGoalAt ..) (ledger_verifyGoalAt ..)

theorem unedited_verifyAll (setting : Setting) (p : Proof) :
    Unedited p (p.verifyAll setting).proof :=
  unedited_of_eq (content_verifyAll ..) (ledger_verifyAll ..)

theorem unedited_advance (setting : Setting) (p : Proof) (milliseconds : Nat) :
    Unedited p (p.advance setting milliseconds).proof :=
  advance_keep (Unedited p) (fun _ h => h.trans (unedited_verifyLineAt ..)) milliseconds ⟨rfl, rfl⟩

/-! ## Operations -/

/-- Either nothing was edited, or one edit was counted. -/
def Counts (p q : Proof) : Prop := Unedited p q ∨ q.edits = p.edits + 1

theorem edits_edited {α : Type} {outcome : Outcome α} (h : outcome.proof.ledger = p.ledger) :
    (edited outcome).proof.edits = p.edits + 1 :=
  congrArg (· + 1) (edits_eq_of_ledger_eq h)

theorem edits_rewritten (setting : Setting) (p : Proof) (index : Nat) (text : String) :
    (rewritten setting p index text).edits = p.edits + 1 :=
  edits_edited (ledger_writeLine ..)

/-- An operation that is carried out counts one edit, unless it edits nothing. -/
theorem Performed.counts {operation : Operation} {reply : Reply}
    (h : Performed setting p operation reply q) : Counts p q := by
  cases h with
  | keepText | fillNothing | keepGoalText => exact .inl (.refl p)
  | keepRule | verifyLine => exact .inl (unedited_verifyLineAt ..)
  | verifyGoal => exact .inl (unedited_verifyGoalAt ..)
  | verifyAll => exact .inl (unedited_verifyAll ..)
  | advance => exact .inl (unedited_advance ..)
  | insert => exact .inr (edits_edited (ledger_insertLine ..))
  | delete => exact .inr (edits_edited (ledger_cutLines ..))
  | setText => exact .inr (edits_rewritten ..)
  | setRule => exact .inr (edits_edited (ledger_chooseRule ..))
  | togglePremise => exact .inr (edits_edited (ledger_toggleCitation ..))
  | fill =>
    -- The verification that follows does not count.
    exact .inr ((unedited_verifyLineAt ..).edits_eq.trans (edits_rewritten ..))
  | restrict | addGoal | removeGoal | setGoalText => exact .inr rfl

/-- Filling in a conclusion writes one text, and counts as one edit. -/
theorem Performed.filled {index : Nat} {text : String}
    (h : Performed setting p (.autoFill index) (.filled (some text)) q) :
    q.document = { p.document with
        lines := p.document.lines.modify index fun record => { record with text } } ∧
      q.edits = p.edits + 1 := by
  cases h with
  | fill =>
    have hverified := unedited_verifyLineAt setting (rewritten setting p index text) index
    refine ⟨?_, hverified.edits_eq.trans (edits_rewritten ..)⟩
    rw [hverified.document_eq]
    exact document_writeLine ..

theorem counts_attempt (setting : Setting) (p : Proof) (operation : Operation) :
    Counts p (p.attempt setting operation).1 := by
  rcases Performed.attempt_cases setting p operation with ⟨_, -, hsame⟩ | ⟨_, -, hdone, hperformed⟩
  · rw [hsame]
    exact .inl (.refl p)
  · rw [hdone]
    exact hperformed.counts

/-! ## Sequences of operations -/

/-- A proof that work went on with: the number of edits never falls, and where it is the same,
nothing was edited. -/
structure Later (p q : Proof) : Prop where
  edits_le : p.edits ≤ q.edits
  unedited : q.edits = p.edits → Unedited p q

namespace Later

theorem refl (p : Proof) : Later p p := ⟨Nat.le_refl _, fun _ => .refl p⟩

theorem trans (h : Later p q) (hmore : Later q r) : Later p r where
  edits_le := Nat.le_trans h.edits_le hmore.edits_le
  unedited hsame := by
    have hfirst : q.edits = p.edits :=
      Nat.le_antisymm (hsame ▸ hmore.edits_le) h.edits_le
    exact (h.unedited hfirst).trans (hmore.unedited (hsame.trans hfirst.symm))

theorem of_counts (h : Counts p q) : Later p q := by
  rcases h with hsame | hedited
  · exact ⟨Nat.le_of_eq hsame.edits_eq.symm, fun _ => hsame⟩
  · exact ⟨hedited ▸ Nat.le_succ _, fun hsame => by omega⟩

theorem run (setting : Setting) (p : Proof) (operations : List Operation) :
    Later p (p.run setting operations).1 := by
  induction operations generalizing p with
  | nil => exact .refl p
  | cons operation operations ih => exact (of_counts (counts_attempt ..)).trans (ih _)

end Later

end Proof

/-! ## Live proofs -/

/-- Whether an operation verifies something, lets time pass, or puts in a text or a rule that is
there already. -/
def Operation.LeavesDocument (proof : Proof) : Operation → Prop
  | .verifyLine _ | .verifyGoal _ | .verifyAll | .advance _ => True
  | .setText index text => proof.lines[index]?.map Line.text = some text
  | .setRule index rule? => proof.lines[index]?.map Line.rule? = some rule?
  | .setGoalText index text => proof.goals[index]?.map Goal.text = some text
  | _ => False

namespace Live

open Proof

variable {setting : Setting} {live : Live} {operation : Operation}

/-- What an operation makes of a live proof: nothing where it is refused. -/
theorem attempt_cases (setting : Setting) (live : Live) (operation : Operation) :
    (∃ reason, (live.attempt setting operation).1 = .error reason ∧
      (live.attempt setting operation).2.proof = live.proof) ∨
    ∃ reply, (live.attempt setting operation).1 = .ok reply ∧
      Performed setting live.proof operation reply (live.attempt setting operation).2.proof := by
  unfold attempt
  rw [Steps.after_perform]
  cases h : live.proof.perform setting operation with
  | error reason => exact .inl ⟨reason, rfl, rfl⟩
  | ok outcome => exact .inr ⟨outcome.answer, rfl, .of_perform h⟩

/-- The number of edits goes with the document: it grows by one when the document changes, and
stays with it otherwise. -/
structure CountsEdits (setting : Setting) (live : Live) (operation : Operation) : Prop where
  changed : (live.attempt setting operation).2.proof.document ≠ live.proof.document →
    (live.attempt setting operation).2.proof.edits = live.proof.edits + 1
  refused (reason : StructureError) :
    (live.attempt setting operation).1 = .error reason →
    (live.attempt setting operation).2.proof.document = live.proof.document ∧
      (live.attempt setting operation).2.proof.edits = live.proof.edits
  unchanging : operation.LeavesDocument live.proof →
    (live.attempt setting operation).2.proof.document = live.proof.document ∧
      (live.attempt setting operation).2.proof.edits = live.proof.edits
  filled (index : Nat) (text : String) : operation = .autoFill index →
    (live.attempt setting operation).1 = .ok (.filled (some text)) →
    (live.attempt setting operation).2.proof.document =
        { live.proof.document with
          lines := live.proof.document.lines.modify index fun record => { record with text } } ∧
      (live.attempt setting operation).2.proof.edits = live.proof.edits + 1
  filledNothing (index : Nat) : operation = .autoFill index →
    (∀ text, (live.attempt setting operation).1 ≠ .ok (.filled (some text))) →
    (live.attempt setting operation).2.proof.document = live.proof.document ∧
      (live.attempt setting operation).2.proof.edits = live.proof.edits

theorem counts_attempt (setting : Setting) (live : Live) (operation : Operation) :
    Counts live.proof (live.attempt setting operation).2.proof := by
  rcases attempt_cases setting live operation with ⟨_, -, hsame⟩ | ⟨_, -, hperformed⟩
  · rw [hsame]
    exact .inl (.refl _)
  · exact hperformed.counts

/-- An operation that leaves the document leaves the number of edits. -/
theorem unedited_of_leavesDocument (h : operation.LeavesDocument live.proof) :
    Unedited live.proof (live.attempt setting operation).2.proof := by
  rcases attempt_cases setting live operation with ⟨_, -, hsame⟩ | ⟨reply, -, hperformed⟩
  · rw [hsame]
    exact .refl _
  · generalize (live.attempt setting operation).2.proof = next at hperformed ⊢
    cases hperformed with
    | keepText | keepGoalText => exact .refl _
    | keepRule | verifyLine => exact unedited_verifyLineAt ..
    | verifyGoal => exact unedited_verifyGoalAt ..
    | verifyAll => exact unedited_verifyAll ..
    | advance => exact unedited_advance ..
    | insert hinserts =>
      -- Such an operation adds a line, which is none of those that leave the document.
      cases operation with
      | addPremise | addLine | startSubproof | endSubproof => exact absurd h id
      | _ => cases hinserts
    | setText index text line hline htext =>
      simp only [Operation.LeavesDocument, hline, Option.map_some, Option.some.injEq] at h
      exact absurd h htext
    | setRule index rule? line hline hrule =>
      simp only [Operation.LeavesDocument, hline, Option.map_some, Option.some.injEq] at h
      exact absurd h hrule
    | setGoalText index text goal hgoal htext =>
      simp only [Operation.LeavesDocument, hgoal, Option.map_some, Option.some.injEq] at h
      exact absurd h htext
    | delete | togglePremise | restrict | fillNothing | fill | addGoal | removeGoal => cases h

/-- Filling in a conclusion writes the text that is the answer, and counts as one edit. -/
theorem attempt_autoFill_some {index : Nat} {text : String}
    (h : (live.attempt setting (.autoFill index)).1 = .ok (.filled (some text))) :
    (live.attempt setting (.autoFill index)).2.proof.document =
        { live.proof.document with
          lines := live.proof.document.lines.modify index fun record => { record with text } } ∧
      (live.attempt setting (.autoFill index)).2.proof.edits = live.proof.edits + 1 := by
  rcases attempt_cases setting live (.autoFill index) with ⟨_, hrefused, -⟩ | ⟨reply, hdone, hfill⟩
  · rw [hrefused] at h
    cases h
  · rw [hdone] at h
    cases h
    exact hfill.filled

theorem unedited_autoFill {index : Nat}
    (h : ∀ text, (live.attempt setting (.autoFill index)).1 ≠ .ok (.filled (some text))) :
    Unedited live.proof (live.attempt setting (.autoFill index)).2.proof := by
  rcases attempt_cases setting live (.autoFill index) with ⟨_, -, hsame⟩ | ⟨reply, hdone, hfill⟩
  · rw [hsame]
    exact .refl _
  · rw [hdone] at h
    generalize (live.attempt setting (.autoFill index)).2.proof = next at hfill ⊢
    cases hfill with
    | fillNothing => exact .refl _
    | fill _ text => exact absurd rfl (h text)
    | insert hinserts => cases hinserts

theorem countsEdits (setting : Setting) (live : Live) (operation : Operation) :
    CountsEdits setting live operation where
  changed hchanged := by
    rcases counts_attempt setting live operation with hsame | hedited
    · exact absurd hsame.document_eq hchanged
    · exact hedited
  refused reason hrefused := by
    rw [attempt_refused hrefused]
    exact ⟨rfl, rfl⟩
  unchanging h :=
    have hsame := unedited_of_leavesDocument h
    ⟨hsame.document_eq, hsame.edits_eq⟩
  filled index text hoperation := by
    rw [hoperation]
    exact attempt_autoFill_some
  filledNothing index hoperation := by
    rw [hoperation]
    intro h
    have hsame := unedited_autoFill h
    exact ⟨hsame.document_eq, hsame.edits_eq⟩

/-- The number of edits tells whether the document changed. At every moment of a session, an
operation that changes the document adds one to it; refused operations, verifications, the passing
of time, and texts and rules that are there already change neither the one nor the other; and
filling in a conclusion adds one just when a text is written. So the document is the same at two
moments of a session with the same number of edits. -/
theorem edits_tell_document (setting : Setting) (start : Live) (operations : List Operation) :
    (∀ operation, CountsEdits setting (start.run setting operations) operation) ∧
      ∀ more, ((start.run setting operations).run setting more).proof.edits =
          (start.run setting operations).proof.edits →
        ((start.run setting operations).run setting more).proof.document =
          (start.run setting operations).proof.document := by
  refine ⟨fun operation => countsEdits setting _ operation, fun more hsame => ?_⟩
  rw [run_eq setting (start.run setting operations)] at hsame ⊢
  exact ((Later.run setting _ more).unedited hsame).document_eq

/-- Filling in a conclusion is one edit; trying it again and verifying everything is none. -/
example :
    let blank := nested.run {} [.setText 0 "P", .setRule 2 (some .reiteration), .setText 2 ""]
    let filled := blank.run {} [.autoFill 2]
    blank.proof.edits = 11 ∧ filled.proof.edits = 12 ∧
      (filled.run {} [.autoFill 2, .verifyAll]).proof.edits = 12 := by
  decide +kernel

end Live

end NaturalDeduction
