/-
  Asking the check server.

  A client that asks the server gets the answer that it would have computed by
  itself: the call arrives as the request, and the response arrives as its
  answer. A refusal arrives as an invalid verdict with the reason for it. A
  response to another call is no answer at all. Nor is there one when the
  reason shows the last word, over which the server traps.
-/

import NaturalDeduction.Checker.Client
import NaturalDeduction.Proofs.Checker.Arrival
import NaturalDeduction.Proofs.Checker.Messages

namespace NaturalDeduction

variable {id : Nat} {request : CheckRequest}

/-! ## The call -/

/-- A frame can hold a call whose numbers fit and whose text keeps to the limit. -/
theorem Call.fits (hid : id < Word.limit 64) (h : request.Fits)
    (hbody : (Frame.body (Call.encode id request)).length ≤ Frame.maxBody) :
    Frame.Fits (Call.encode id request) :=
  ⟨Call.whole_encode hid h, Call.usable_encode id request, hbody⟩

/-- The machine replies to a request whose call keeps to the limit. -/
theorem Call.replies (hid : id < Word.limit 64) (h : request.Fits)
    (hbody : (Frame.body (Call.encode id request)).length ≤ Frame.maxBody) :
    Machine.Replies request (Machine.reply request) := by
  have hread := Frame.read_write_append (Call.fits hid h hbody) []
  have hparams := Call.within_params (Call.decode_canonical_encode id request)
    (Frame.within_read hread)
  exact Machine.replies_of_decode (CheckRequest.decode_canonical_encode h) hparams

namespace Server

theorem answerParams_canonical_encode (h : request.Fits) :
    answerParams request.encode.canonical = answerRequest request := by
  rw [answerParams, CheckRequest.decode_canonical_encode h]

theorem respond_canonical_encode (h : request.Fits) :
    respond (Call.encode id request).canonical =
      Response.mk (.natural id) <$> answerRequest request := by
  rw [respond, Call.decode_canonical_encode]
  simp only [if_true, answerParams_canonical_encode h, map_eq_pure_bind]

theorem readAll_input (hid : id < Word.limit 64) (h : request.Fits)
    (hbody : (Frame.body (Call.encode id request)).length ≤ Frame.maxBody) :
    Frame.readAll (Exchange.input id request) = ([(Call.encode id request).canonical], none) := by
  rw [Exchange.input, ← List.append_nil (Frame.write _),
    Frame.readAll_of_read_eq_ok (Frame.read_write_append (Call.fits hid h hbody) []),
    Frame.readAll_nil]

/-- The server answers a call, and nothing else. -/
theorem serve_input (hid : id < Word.limit 64) (h : request.Fits)
    (hbody : (Frame.body (Call.encode id request)).length ≤ Frame.maxBody) {body : ResponseBody}
    (hanswer : answerRequest request = .ok body) :
    serve (Exchange.input id request) = ⟨[⟨.natural id, body⟩], .closed⟩ := by
  simp only [serve, readAll_input hid h hbody, respondEach, respond_canonical_encode h, hanswer]
  rfl

/-- The server traps over a call before it has written anything. -/
theorem serve_input_of_trap (hid : id < Word.limit 64) (h : request.Fits)
    (hbody : (Frame.body (Call.encode id request)).length ≤ Frame.maxBody) {trap : Trap}
    (hanswer : answerRequest request = .error trap) :
    serve (Exchange.input id request) = ⟨[], .trapped trap⟩ := by
  simp only [serve, readAll_input hid h hbody, respondEach, respond_canonical_encode h, hanswer]
  rfl

/-- The server says of a request either its verdict or why it is refused. -/
inductive IsAnswer : ResponseBody → Prop where
  | result (verdict : Verdict) : IsAnswer (.result verdict)
  | refused (text : String) : IsAnswer (.error Response.refused text)

theorem isAnswer_of_answerRequest {body : ResponseBody} (h : answerRequest request = .ok body) :
    IsAnswer body := by
  obtain ⟨answer, -, hdone⟩ := Except.bind_eq_ok.1 h
  cases answer with
  | error text =>
    cases hdone
    exact .refused text
  | ok verdict =>
    cases hdone
    exact .result verdict

theorem fits_response (hid : id < Word.limit 64) {body : ResponseBody} (h : IsAnswer body)
    (hbody : (Frame.body (Response.encode ⟨.natural id, body⟩)).length ≤ Frame.maxBody) :
    Frame.Fits (Response.encode ⟨.natural id, body⟩) := by
  refine ⟨?_, Response.usable_encode 125 rfl, hbody⟩
  have hwhole : (Json.natural id).whole = true := Json.whole_natural hid
  cases h with
  | result verdict => exact Response.whole_encode_result hwhole _
  | refused text => exact Response.whole_encode_error hwhole _ (by decide) (by decide)

end Server

/-! ## The response -/

namespace Response

theorem isId_natural (expected id : Nat) : isId expected (.natural id) = (id == expected) := rfl

/-- A response brings the verdict that it carries to the call with its id. -/
theorem verdict_result (id : Nat) (answer : Verdict) :
    verdict id (encode ⟨.natural id, .result answer⟩).canonical = .ok answer := by
  simp [verdict, decodeParts_result, Json.canonical_natural, isId_natural]

/-- A refusal brings an invalid verdict to the call with its id. -/
theorem verdict_refused (id : Nat) (text : String) :
    verdict id (encode ⟨.natural id, .error refused text⟩).canonical =
      .ok (.invalid ("The checker rejected this proof: " ++ text)) := by
  simp [verdict, decodeParts_error _ refused _ (by decide) (by decide),
    Json.canonical_natural, isId_natural]

/-- A response brings no verdict to a call with another id. -/
theorem exists_verdict_eq_unreadable {id expected : Nat} (h : expected ≠ id)
    {body : ResponseBody} (hbody : Server.IsAnswer body) :
    ∃ reason, verdict expected (encode ⟨.natural id, body⟩).canonical =
      .error (.unreadable reason) := by
  have hother : isId expected (.natural id) = false := beq_eq_false_iff_ne.2 h.symm
  cases hbody with
  | refused text =>
    rw [verdict, decodeParts_error _ refused _ (by decide) (by decide)]
    simp [Json.canonical_natural, hother]
  | result answer =>
    rw [verdict, decodeParts_result]
    simp [Json.canonical_natural, hother]

end Response

/-! ## The exchange -/

namespace Exchange

/-- The response to a call, if there is one, is read as the verdict that it brings. -/
theorem verdict_output (limit expected : Nat) (hid : id < Word.limit 64) (h : request.Fits)
    (hcall : (Frame.body (Call.encode id request)).length ≤ Frame.maxBody)
    (hresponse : ∀ response ∈ (Server.serve (input id request)).responses,
      (Frame.body response.encode).length ≤ Frame.maxBody) {body : ResponseBody}
    (hanswer : Server.answerRequest request = .ok body) :
    (answered (Server.serve (input id request)).output).verdict limit expected =
      Response.verdict expected (Response.encode ⟨.natural id, body⟩).canonical := by
  rw [Server.serve_input hid h hcall hanswer] at hresponse ⊢
  have hfits := Server.fits_response hid (Server.isAnswer_of_answerRequest hanswer)
    (hresponse _ (.head _))
  rw [verdict, Server.Session.output, List.flatMap_cons, List.flatMap_nil,
    Frame.read_write_append hfits]

theorem verdict_output_of_trap (limit expected : Nat) (hid : id < Word.limit 64) (h : request.Fits)
    (hcall : (Frame.body (Call.encode id request)).length ≤ Frame.maxBody) {trap : Trap}
    (hanswer : Server.answerRequest request = .error trap) :
    (answered (Server.serve (input id request)).output).verdict limit expected =
      .error (.transport "checker exited without answering") := by
  rw [Server.serve_input_of_trap hid h hcall hanswer]
  rfl

/-- Client and server together compute the answer to the request. The server's response to a call
is read as the verdict that the rules alone give, and as an invalid verdict with the text of the
reason where they refuse the document or the target. To a call with any other id the response
brings a fault and no verdict. Only a reason that shows the last word has no text. The server traps
over it, and every call finds that there is no response. -/
theorem verdict_serve (limit : Nat) (hid : id < Word.limit 64) (h : request.Fits)
    (hcall : (Frame.body (Call.encode id request)).length ≤ Frame.maxBody)
    (hresponse : ∀ response ∈ (Server.serve (input id request)).responses,
      (Frame.body response.encode).length ≤ Frame.maxBody) :
    (∀ verdict, request.answer = .ok verdict →
      (answered (Server.serve (input id request)).output).verdict limit id = .ok verdict) ∧
    (∀ reason, request.answer = .error reason → Word.limit 64 - 1 ∉ reason.rows →
      reason.text = .ok (reason.wording (· + 1)) ∧
      (answered (Server.serve (input id request)).output).verdict limit id =
        .ok (.invalid ("The checker rejected this proof: " ++ reason.wording (· + 1)))) ∧
    ((∀ reason, request.answer = .error reason → Word.limit 64 - 1 ∉ reason.rows) →
      ∀ expected, expected ≠ id → ∃ reason,
        (answered (Server.serve (input id request)).output).verdict limit expected =
          .error (.unreadable reason)) ∧
    ∀ reason, request.answer = .error reason → Word.limit 64 - 1 ∈ reason.rows →
      (∃ line, reason = .badPremise line (Word.limit 64 - 1)) ∧ reason.text = .error .overflow ∧
      ∀ expected, (answered (Server.serve (input id request)).output).verdict limit expected =
        .error (.transport "checker exited without answering") := by
  have hreplies := Call.replies hid h hcall
  generalize hreply : Machine.reply request = replied at hreplies
  cases hreplies with
  | verdict verdict hanswer =>
    have hbody : Server.answerRequest request = .ok (.result verdict) := by
      rw [Server.answerRequest, hreply]
      rfl
    refine ⟨fun other hother => ?_, fun reason hreason => ?_, fun _ expected hne => ?_,
      fun reason hreason => ?_⟩
    · cases hanswer.symm.trans hother
      rw [verdict_output limit id hid h hcall hresponse hbody, Response.verdict_result]
    · cases hanswer.symm.trans hreason
    · rw [verdict_output limit expected hid h hcall hresponse hbody]
      exact Response.exists_verdict_eq_unreadable hne (.result verdict)
    · cases hanswer.symm.trans hreason
  | refused error hanswer _ hlast htext =>
    have hbody : Server.answerRequest request =
        .ok (.error Response.refused (error.wording (· + 1))) := by
      rw [Server.answerRequest, hreply]
      rfl
    refine ⟨fun other hother => ?_, fun reason hreason _ => ?_, fun _ expected hne => ?_,
      fun reason hreason hshown => ?_⟩
    · cases hanswer.symm.trans hother
    · cases hanswer.symm.trans hreason
      rw [verdict_output limit id hid h hcall hresponse hbody, Response.verdict_refused]
      exact ⟨htext, rfl⟩
    · rw [verdict_output limit expected hid h hcall hresponse hbody]
      exact Response.exists_verdict_eq_unreadable hne (.refused _)
    · cases hanswer.symm.trans hreason
      exact (hlast hshown).elim
  | trapped line hanswer _ htext =>
    have hshown : Word.limit 64 - 1 ∈
        (DocumentError.badPremise line (Word.limit 64 - 1)).rows := .tail _ (.head _)
    have hbody : Server.answerRequest request = .error .overflow := by
      rw [Server.answerRequest, hreply]
      rfl
    refine ⟨fun other hother => ?_, fun reason hreason hnot => ?_, fun hnot => ?_,
      fun reason hreason _ => ?_⟩
    · cases hanswer.symm.trans hother
    · cases hanswer.symm.trans hreason
      exact (hnot hshown).elim
    · exact (hnot _ hanswer hshown).elim
    · cases hanswer.symm.trans hreason
      exact ⟨⟨line, rfl⟩, htext, fun expected =>
        verdict_output_of_trap limit expected hid h hcall hbody⟩

/-- A call about the second line of a document, which repeats the first one. -/
def repeated (version : Nat) : CheckRequest where
  document := ⟨version, [], [⟨"P → Q", true, 0, [], none⟩,
    ⟨"P → Q", false, 0, [0], some .reiteration⟩], []⟩
  target := .line 1

theorem fits_repeated {version : Nat} (h : version < Word.limit 32) : (repeated version).Fits := by
  refine ⟨⟨h, rfl, ?_⟩, (by decide : 1 < Word.limit 64)⟩
  simp only [repeated, List.forall_mem_cons]
  exact ⟨⟨by decide, by decide⟩, ⟨by decide, by decide⟩, by simp⟩

/-- The line is correct in a document of the current version; one of another version is refused. -/
theorem verdict_serve_repeated :
    (answered (Server.serve (input 7 (repeated 1))).output).verdict 100 7 = .ok .valid ∧
    (answered (Server.serve (input 7 (repeated 2))).output).verdict 100 7 = .ok
      (.invalid "The checker rejected this proof: unsupported proof document version 2") ∧
    ∃ reason, (answered (Server.serve (input 7 (repeated 1))).output).verdict 100 8 =
      .error (.unreadable reason) := by
  have hid : 7 < Word.limit 64 := by decide
  have hone := fits_repeated (by decide : 1 < Word.limit 32)
  have htwo := fits_repeated (by decide : 2 < Word.limit 32)
  have hbodyOne : (Frame.body (Call.encode 7 (repeated 1))).length ≤ Frame.maxBody := by
    decide +kernel
  have hbodyTwo : (Frame.body (Call.encode 7 (repeated 2))).length ≤ Frame.maxBody := by
    decide +kernel
  have hanswerOne : Server.answerRequest (repeated 1) = .ok (.result .valid) := by decide +kernel
  have hanswerTwo : Server.answerRequest (repeated 2) =
      .ok (.error Response.refused "unsupported proof document version 2") := by decide +kernel
  obtain ⟨hvalid, -, hother, -⟩ := verdict_serve 100 hid hone hbodyOne (by
    rw [Server.serve_input hid hone hbodyOne hanswerOne]
    decide +kernel)
  obtain ⟨-, hrefused, -, -⟩ := verdict_serve 100 hid htwo hbodyTwo (by
    rw [Server.serve_input hid htwo hbodyTwo hanswerTwo]
    decide +kernel)
  have hanswer : (repeated 1).answer = .ok .valid := by decide +kernel
  refine ⟨hvalid .valid hanswer, (hrefused (.unsupportedVersion 2) (by decide +kernel)
    List.not_mem_nil).2, hother (fun reason hreason => ?_) 8 (by decide)⟩
  cases hanswer.symm.trans hreason

theorem fits_citesLast : Machine.citesLast.Fits := by
  refine ⟨⟨by decide, rfl, ?_⟩, (by decide : 0 < Word.limit 64)⟩
  simp only [Machine.citesLast, List.forall_mem_cons]
  exact ⟨⟨by decide, by decide⟩, by simp⟩

theorem answerRequest_citesLast : Server.answerRequest Machine.citesLast = .error .overflow := rfl

/-- A proof that cites the last word is refused, but the refusal never arrives, and a call with
another id is told the same. -/
theorem verdict_serve_citesLast :
    Machine.citesLast.answer = .error (.badPremise 0 18446744073709551615) ∧
    ∀ expected, (answered (Server.serve (input 7 Machine.citesLast)).output).verdict 100 expected =
      .error (.transport "checker exited without answering") :=
  ⟨rfl, fun expected => verdict_output_of_trap 100 expected (by decide) fits_citesLast
    (by decide +kernel) answerRequest_citesLast⟩

end Exchange

end NaturalDeduction
