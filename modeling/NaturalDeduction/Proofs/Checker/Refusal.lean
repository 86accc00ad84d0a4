/-
  Why a request is refused.

  The error that a request is refused with is about the request: the row that
  it names is the first one that breaks the nesting, or a line of the document
  that cites what the error says, and a target that is refused is not there.
  The lines of a document can be counted in words, and so can the numbers that
  texts show for them. Only the premise in an error comes from the document as
  it is, and the last word has no next one.
-/

import NaturalDeduction.Proofs.Checker.Machine

namespace NaturalDeduction

/-! ## What an error says of a request -/

/-- What the error says is so. -/
inductive DocumentError.Describes (request : CheckRequest) : DocumentError → Prop where
  | unsupportedVersion (hversion : request.document.version ≠ Document.currentVersion) :
      Describes request (.unsupportedVersion request.document.version)
  | illFormedNesting (index : Nat) (hindex : index < request.document.lines.length)
      (hbefore : Layout.validate (request.document.layout.take index) = .ok ())
      (hbroken : Layout.validate (request.document.layout.take (index + 1)) ≠ .ok ()) :
      Describes request (.structural (.illFormedNesting index))
  | assumptionWithPremises (line : Nat) (record : LineRecord)
      (hrecord : request.document.lines[line]? = some record)
      (hassumption : record.assumption = true) (hpremises : record.premises ≠ []) :
      Describes request (.assumptionWithPremises line)
  | badPremise (line premise : Nat) (record : LineRecord)
      (hrecord : request.document.lines[line]? = some record)
      (hpremise : premise ∈ record.premises)
      (hinaccessible : request.document.layout.isAccessible premise line = false) :
      Describes request (.badPremise line premise)
  | line (index : Nat) (htarget : request.target = .line index)
      (hbeyond : request.document.lines.length ≤ index) :
      Describes request (.structural (.indexOutOfBounds index request.document.lines.length))
  | goal (index : Nat) (htarget : request.target = .goal index)
      (hbeyond : request.document.goals.length ≤ index) :
      Describes request (.structural (.indexOutOfBounds index request.document.goals.length))

/-- The scan stops at the first row that does not fit. -/
theorem Layout.exists_of_firstMisplaced? {rows : List Row} {previous index found : Nat}
    {onlyPremises : Bool} (h : firstMisplaced? previous onlyPremises index rows = some found) :
    ∃ offset, found = index + offset ∧ offset < rows.length ∧
      firstMisplaced? previous onlyPremises index (rows.take offset) = none ∧
      firstMisplaced? previous onlyPremises index (rows.take (offset + 1)) ≠ none := by
  induction rows generalizing previous index onlyPremises with
  | nil => cases h
  | cons row rows ih =>
    simp only [firstMisplaced?] at h
    split at h
    · rename_i hmisplaced
      refine ⟨0, (Option.some.inj h).symm, Nat.succ_pos _, rfl, ?_⟩
      simp only [List.take_succ_cons, List.take_zero, firstMisplaced?, if_pos hmisplaced]
      exact Option.some_ne_none index
    · rename_i hplaced
      obtain ⟨offset, hfound, hlt, hbefore, hbroken⟩ := ih h
      refine ⟨offset + 1, by omega, Nat.succ_lt_succ hlt, ?_, ?_⟩
      · simp only [List.take_succ_cons, firstMisplaced?, if_neg hplaced]
        exact hbefore
      · simp only [List.take_succ_cons, firstMisplaced?, if_neg hplaced] at hbroken ⊢
        exact hbroken

/-- Rows that are not well nested are refused at the first one that does not fit. -/
theorem Layout.exists_of_validate_eq_error {layout : Layout} {reason : StructureError}
    (h : layout.validate = .error reason) :
    ∃ index, reason = .illFormedNesting index ∧ index < layout.length ∧
      Layout.validate (layout.take index) = .ok () ∧
      Layout.validate (layout.take (index + 1)) ≠ .ok () := by
  unfold validate at h
  cases hscan : firstMisplaced? 0 true 0 layout with
  | none =>
    rw [hscan] at h
    cases h
  | some found =>
    rw [hscan] at h
    cases h
    obtain ⟨index, hfound, hlt, hbefore, hbroken⟩ := exists_of_firstMisplaced? hscan
    obtain rfl : found = index := by omega
    refine ⟨found, rfl, hlt, by rw [validate, hbefore], fun hvalid => ?_⟩
    unfold validate at hvalid
    cases hnext : firstMisplaced? 0 true 0 (layout.take (found + 1)) with
    | none => exact hbroken hnext
    | some other =>
      rw [hnext] at hvalid
      cases hvalid

namespace Document

/-- The first error among the premises is one of a record. -/
theorem exists_of_firstPremiseError? {layout : Layout} {line : Nat} {records : List LineRecord}
    {error : DocumentError} (h : firstPremiseError? layout line records = some error) :
    ∃ offset record, records[offset]? = some record ∧
      premiseError? layout (line + offset) record = some error := by
  induction records generalizing line with
  | nil => cases h
  | cons record records ih =>
    rw [firstPremiseError?, Option.or_eq_some_iff] at h
    rcases h with hfirst | ⟨-, hothers⟩
    · exact ⟨0, record, rfl, hfirst⟩
    · obtain ⟨offset, other, hother, herror⟩ := ih hothers
      rw [Nat.add_assoc, Nat.add_comm 1] at herror
      exact ⟨offset + 1, other, hother, herror⟩

end Document

namespace CheckRequest

variable {request : CheckRequest} {error : DocumentError}

theorem describes_of_premiseError? {line : Nat} {record : LineRecord}
    (hrecord : request.document.lines[line]? = some record)
    (h : Document.premiseError? request.document.layout line record = some error) :
    error.Describes request := by
  unfold Document.premiseError? at h
  split at h
  · rename_i hcites
    cases h
    obtain ⟨hassumption, hpremises⟩ := (Bool.and_eq_true _ _).mp hcites
    exact .assumptionWithPremises line record hrecord hassumption (by simpa using hpremises)
  · obtain ⟨premise, hfound, rfl⟩ := Option.map_eq_some_iff.1 h
    have hrefused := List.find?_some hfound
    exact .badPremise line premise record hrecord (List.mem_of_find?_eq_some hfound)
      (by simpa using hrefused)

/-- A document is refused for what is wrong with it. -/
theorem describes_of_validate (h : request.document.validate = .error error) :
    error.Describes request := by
  unfold Document.validate at h
  by_cases hversion : request.document.version = Document.currentVersion
  · rw [if_neg (not_not.2 hversion)] at h
    cases hlayout : request.document.layout.validate with
    | error reason =>
      rw [hlayout] at h
      cases h
      obtain ⟨index, rfl, hlt, hbefore, hbroken⟩ := Layout.exists_of_validate_eq_error hlayout
      rw [Machine.length_layout] at hlt
      exact .illFormedNesting index hlt hbefore hbroken
    | ok u =>
      rw [hlayout] at h
      cases hfirst : Document.firstPremiseError? request.document.layout 0
          request.document.lines with
      | none =>
        simp only [hfirst] at h
        cases h
      | some refused =>
        simp only [hfirst] at h
        cases h
        obtain ⟨line, record, hrecord, hrefused⟩ := Document.exists_of_firstPremiseError? hfirst
        rw [Nat.zero_add] at hrefused
        exact describes_of_premiseError? hrecord hrefused
  · rw [if_pos hversion] at h
    cases h
    exact .unsupportedVersion hversion

/-- A target is refused when it is not there. -/
theorem describes_of_verifyTarget {p : Proof} {reason : StructureError}
    (hloaded : Proof.ofDocument request.document = .ok p)
    (h : verifyTarget p request.target = .error reason) :
    DocumentError.Describes request (.structural reason) := by
  obtain ⟨-, hproof⟩ := Proof.ofDocument_eq_ok_iff.1 hloaded
  have hlines : p.lines.length = request.document.lines.length := by
    rw [← hproof, List.length_mapIdx]
  have hgoals : p.goals.length = request.document.goals.length := by
    rw [← hproof, List.length_mapIdx]
  cases htarget : request.target with
  | line index =>
    rw [htarget, verifyTarget, Proof.verifyLine, Proof.checkLine, hlines] at h
    split at h
    · cases h
    · rename_i hbeyond
      cases h
      exact .line index htarget (Nat.le_of_not_lt hbeyond)
  | goal index =>
    rw [htarget, verifyTarget, Proof.verifyGoal, Proof.checkGoal, hgoals] at h
    split at h
    · cases h
    · rename_i hbeyond
      cases h
      exact .goal index htarget (Nat.le_of_not_lt hbeyond)

/-- The error that a request is refused with describes the request. -/
theorem describes_of_answer (h : request.answer = .error error) : error.Describes request := by
  rcases Except.bind_eq_error.1 h with hloading | ⟨p, hloaded, hanswer⟩
  · rcases Except.bind_eq_error.1 hloading with hinvalid | ⟨-, -, hdone⟩
    · exact describes_of_validate hinvalid
    · cases hdone
  · rcases Except.bind_eq_error.1 hanswer with hrefused | ⟨verified, -, hdone⟩
    · cases hverified : verifyTarget p request.target with
      | ok verified =>
        rw [hverified] at hrefused
        cases hrefused
      | error reason =>
        rw [hverified] at hrefused
        cases hrefused
        exact describes_of_verifyTarget hloaded hverified
    · split at hdone
      · cases hdone
      · split at hdone <;> cases hdone

end CheckRequest

/-! ## What the text of an error shows -/

namespace DocumentError

variable {request : CheckRequest} {error : DocumentError}

/-- The rows that an error shows are lines of the document, except for a premise that a line may
not cite. -/
theorem Describes.lt_length_or_eq (h : error.Describes request) {row : Nat}
    (hrow : row ∈ error.rows) : row < request.document.lines.length ∨
      ∃ line, error = .badPremise line row ∧ line < request.document.lines.length ∧
        ∃ record ∈ request.document.lines, row ∈ record.premises := by
  cases h with
  | unsupportedVersion => cases hrow
  | illFormedNesting index hindex =>
    obtain rfl : row = index := by simpa [rows, StructureError.rows] using hrow
    exact .inl hindex
  | assumptionWithPremises line record hrecord =>
    obtain rfl : row = line := by simpa [rows] using hrow
    exact .inl (List.getElem?_eq_some_iff.1 hrecord).1
  | badPremise line premise record hrecord hpremise =>
    have hline := (List.getElem?_eq_some_iff.1 hrecord).1
    rcases List.mem_cons.1 hrow with rfl | hrow
    · exact .inl hline
    · obtain rfl := List.mem_singleton.1 hrow
      exact .inr ⟨line, rfl, hline, record, List.mem_of_getElem? hrecord, hpremise⟩
  | line => cases hrow
  | goal => cases hrow

/-- Rows that have a number are shown by it. -/
theorem text_eq_ok (h : ∀ row ∈ error.rows, row + 1 < Word.limit 64) :
    error.text = .ok (error.wording (· + 1)) := by
  have hnumbers : error.rows.mapM (fun row => Trapping.sum row 1) =
      .ok (error.rows.map (· + 1)) :=
    Trapping.mapM_eq_ok fun row hrow => Trapping.sum_eq_ok (h row hrow)
  rw [text, Trapping.numbered, hnumbers]
  rfl

end DocumentError

namespace Machine

open Trapping

/-- What is replied to a request: its verdict, or the text of an error that describes it, with rows
numbered from 1. There is no text that shows the last word as a premise, since the number to show
for it is no word. -/
inductive Replies (request : CheckRequest) : Trapping (Except String Verdict) → Prop where
  | verdict (verdict : Verdict) (hanswer : request.answer = .ok verdict) :
    Replies request (.ok (.ok verdict))
  | refused (error : DocumentError) (hanswer : request.answer = .error error)
    (hdescribes : error.Describes request) (hlast : Word.limit 64 - 1 ∉ error.rows)
    (htext : error.text = .ok (error.wording (· + 1))) :
    Replies request (.ok (.error (error.wording (· + 1))))
  | trapped (line : Nat) (hanswer : request.answer = .error (.badPremise line (Word.limit 64 - 1)))
    (hdescribes : (DocumentError.badPremise line (Word.limit 64 - 1)).Describes request)
    (htext : (DocumentError.badPremise line (Word.limit 64 - 1)).text = .error .overflow) :
    Replies request (.error .overflow)

variable {request : CheckRequest}

theorem reply_of_answer_eq_error {error : DocumentError}
    (hanswered : answer request = .ok request.answer) (hanswer : request.answer = .error error) :
    reply request = error.text.map .error := by
  simp only [reply, hanswered, hanswer, bind, Except.bind]
  cases error.text <;> rfl

theorem replies_reply (hlines : request.document.lines.length + 1 < Word.limit 64)
    (hgoals : request.document.goals.length + 1 < Word.limit 64)
    (hpremises : ∀ record ∈ request.document.lines, ∀ premise ∈ record.premises,
      premise < Word.limit 64) :
    Replies request (reply request) := by
  have hanswered := answer_eq_ok hlines hgoals
  cases hanswer : request.answer with
  | ok verdict =>
    rw [reply, hanswered, hanswer]
    exact .verdict verdict hanswer
  | error error =>
    have hdescribes := CheckRequest.describes_of_answer hanswer
    rw [reply_of_answer_eq_error hanswered hanswer]
    by_cases hlast : Word.limit 64 - 1 ∈ error.rows
    · -- A line of the document has a number, so the last word is a premise.
      rcases hdescribes.lt_length_or_eq hlast with hlt | ⟨line, rfl, hline, -⟩
      · omega
      · have hshown : sum line 1 = .ok (line + 1) := sum_eq_ok (by omega)
        have htext : (DocumentError.badPremise line (Word.limit 64 - 1)).text =
            .error .overflow := by
          simp only [DocumentError.text, numbered, DocumentError.rows, List.mapM_cons, hshown]
          rfl
        rw [htext]
        exact .trapped line hanswer hdescribes htext
    · have hrows : ∀ row ∈ error.rows, row + 1 < Word.limit 64 := by
        intro row hrow
        rcases hdescribes.lt_length_or_eq hrow with hlt | ⟨line, -, -, record, hrecord, hpremise⟩
        · omega
        · have hword := hpremises record hrecord row hpremise
          have hne : row ≠ Word.limit 64 - 1 := fun heq => hlast (heq ▸ hrow)
          omega
      have htext := DocumentError.text_eq_ok hrows
      rw [htext]
      exact .refused error hanswer hdescribes hlast htext

/-- Whatever numbers a request holds, it is answered or refused without a trap. The error that it
is refused with describes the request, and its text numbers rows from 1. The one exception is an
error about the last word as a premise, since the number to show for it is no word. Lists that are
held in memory are shorter than the bounds here. -/
theorem reply_exact (request : CheckRequest)
    (hlines : request.document.lines.length + 1 < Word.limit 64)
    (hgoals : request.document.goals.length + 1 < Word.limit 64)
    (hpremises : ∀ record ∈ request.document.lines, ∀ premise ∈ record.premises,
      premise < Word.limit 64) :
    (∃ verdict, request.answer = .ok verdict ∧ reply request = .ok (.ok verdict)) ∨
    ∃ error, request.answer = .error error ∧ error.Describes request ∧
      (Word.limit 64 - 1 ∉ error.rows ∧ reply request = .ok (.error (error.wording (· + 1))) ∨
        ∃ line, error = .badPremise line (Word.limit 64 - 1) ∧
          reply request = .error .overflow) := by
  have hreplies := replies_reply hlines hgoals hpremises
  generalize reply request = replied at hreplies ⊢
  cases hreplies with
  | verdict verdict hanswer => exact .inl ⟨verdict, hanswer, rfl⟩
  | refused error hanswer hdescribes hlast =>
    exact .inr ⟨error, hanswer, hdescribes, .inl ⟨hlast, rfl⟩⟩
  | trapped line hanswer hdescribes =>
    exact .inr ⟨_, hanswer, hdescribes, .inr ⟨line, rfl, rfl⟩⟩

/-- The second line cites the last word but one, and the target is the last word. -/
def citesBeyond : CheckRequest where
  document :=
    { version := 1
      restriction := []
      lines := [⟨"P", true, 0, [], none⟩,
        ⟨"P", false, 0, [18446744073709551614], some .reiteration⟩]
      goals := ["P"] }
  target := .goal 18446744073709551615

theorem reply_exact_citesBeyond : reply citesBeyond = .ok (.error
    "line 2 cites line 18446744073709551615, which is not accessible from it") := by
  have hanswer : citesBeyond.answer = .error (.badPremise 1 18446744073709551614) := rfl
  rcases reply_exact citesBeyond (by decide) (by decide) (by decide) with
    ⟨_, hvalid, -⟩ | ⟨_, herror, -, ⟨-, hreply⟩ | ⟨line, hlast, -⟩⟩
  · cases hanswer.symm.trans hvalid
  · cases hanswer.symm.trans herror
    exact hreply
  · cases hanswer.symm.trans herror
    cases hlast

/-- The only line cites the last word. -/
def citesLast : CheckRequest where
  document :=
    { version := 1
      restriction := []
      lines := [⟨"P", false, 0, [18446744073709551615], none⟩]
      goals := [] }
  target := .line 0

/-- The number of the last word is no word, so the text that shows it overflows. -/
theorem reply_citesLast : reply citesLast = .error .overflow ∧
    citesLast.answer = .error (.badPremise 0 18446744073709551615) :=
  ⟨rfl, rfl⟩

end Machine

end NaturalDeduction
