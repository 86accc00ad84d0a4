/-
  Requests that arrive in frames.

  The body of a frame keeps to a limit, and so do the lists of a request that
  arrives in one. The machine therefore answers every request that arrives or
  refuses it with a text, unless the text would have to show the number of the
  last word.
-/

import NaturalDeduction.Proofs.Checker.Framing
import NaturalDeduction.Proofs.Checker.Refusal
import NaturalDeduction.Proofs.Document.Decoding
import NaturalDeduction.Proofs.Json.Extent

namespace NaturalDeduction

open Text

/-! ## Frames -/

/-- Every character takes at least one byte. -/
theorem Text.Utf8.length_toList_le (text : String) :
    text.toList.length ≤ (Utf8.encode text).length := by
  rw [Utf8.encode_eq_flatMap]
  induction text.toList with
  | nil => exact Nat.zero_le _
  | cons c cs ih =>
    have hpos : 0 < (String.utf8EncodeChar c).length :=
      List.length_pos_iff.2 String.utf8EncodeChar_ne_nil
    rw [List.flatMap_cons, List.length_append, List.length_cons]
    omega

namespace Frame

variable {bytes rest : List UInt8} {message : Json}

theorem within_readBody (h : readBody bytes = .ok message) : message.Within bytes.length := by
  unfold readBody at h
  split at h
  · rename_i read hread
    cases h
    obtain ⟨text, htext, hvalue⟩ := Option.bind_eq_some_iff.1 hread
    have hle := Utf8.length_toList_le text
    rw [Utf8.encode_of_decode? htext] at hle
    exact (Json.within_readValue? hvalue).mono hle
  · cases h

theorem within_readAfterHead {length? : Option Nat}
    (h : readAfterHead length? bytes = .ok (message, rest)) : message.Within maxBody := by
  unfold readAfterHead at h
  split at h
  · cases h
  · split at h
    · cases h
    split at h
    · cases h
    · rename_i length hlimit _
      obtain ⟨read, hread, hdone⟩ := Except.map_eq_ok.1 h
      cases hdone
      refine (within_readBody hread).mono ?_
      rw [List.length_take]
      omega

/-- No array in a frame has more items than a body may have bytes. -/
theorem within_read (h : read bytes = .ok (some (message, rest))) : message.Within maxBody := by
  match bytes with
  | [] => cases h
  | byte :: bytes =>
    simp only [read] at h
    split at h
    · cases h
    · obtain ⟨⟨read, left⟩, hread, hdone⟩ := Except.map_eq_ok.1 h
      cases hdone
      exact within_readAfterHead hread

end Frame

/-! ## Requests -/

variable {message : Json} {bound : Nat}

theorem Call.within_params {call : Call} (h : decode message = .ok call)
    (hmessage : message.Within bound) : call.params.Within bound := by
  obtain ⟨fields, hfields, h⟩ := Except.bind_eq_ok.1 h
  obtain ⟨id, -, h⟩ := Except.bind_eq_ok.1 h
  obtain ⟨method, -, h⟩ := Except.bind_eq_ok.1 h
  obtain ⟨params, hparams, hdone⟩ := Except.bind_eq_ok.1 h
  cases hdone
  rcases Json.exists_of_optional hparams (Json.within_of_asRecord hfields hmessage) with
    rfl | ⟨value, hvalue, hread⟩
  · exact .null
  · cases hread
    exact hvalue

/-- The lists of a document have no more elements than the arrays that they were read from. -/
theorem Document.length_le_of_decode {document : Document} (h : decode message = .ok document)
    (hmessage : message.Within bound) :
    document.lines.length ≤ bound ∧ document.goals.length ≤ bound := by
  obtain ⟨fields, hfields, h⟩ := Except.bind_eq_ok.1 h
  obtain ⟨version, -, h⟩ := Except.bind_eq_ok.1 h
  obtain ⟨restriction, -, h⟩ := Except.bind_eq_ok.1 h
  obtain ⟨lines, hlines, h⟩ := Except.bind_eq_ok.1 h
  obtain ⟨goals, hgoals, hdone⟩ := Except.bind_eq_ok.1 h
  cases hdone
  have hwithin := Json.within_of_asRecord hfields hmessage
  constructor
  · rcases Json.exists_of_optional hlines hwithin with rfl | ⟨value, hvalue, hread⟩
    · exact Nat.zero_le _
    · exact Json.length_le_of_asList hread hvalue
  · rcases Json.exists_of_optional hgoals hwithin with rfl | ⟨value, hvalue, hread⟩
    · exact Nat.zero_le _
    · exact Json.length_le_of_asList hread hvalue

/-- The machine replies to a request that arrives in a frame. -/
theorem Machine.replies_of_decode {request : CheckRequest}
    (h : CheckRequest.decode message = .ok request) (hmessage : message.Within Frame.maxBody) :
    Replies request (reply request) := by
  obtain ⟨fields, hfields, h⟩ := Except.bind_eq_ok.1 h
  obtain ⟨document, hdocument, h⟩ := Except.bind_eq_ok.1 h
  obtain ⟨target, -, hdone⟩ := Except.bind_eq_ok.1 h
  cases hdone
  obtain ⟨value, hvalue, hread⟩ :=
    Json.exists_of_required hdocument (Json.within_of_asRecord hfields hmessage)
  obtain ⟨hlines, hgoals⟩ := Document.length_le_of_decode hread hvalue
  have hlimit : Frame.maxBody + 1 < Word.limit 64 := by decide
  refine replies_reply ?_ ?_ fun record hrecord =>
    ((Document.fits_of_decode hread).lines record hrecord).premise_lt
  · exact Nat.lt_of_le_of_lt (Nat.succ_le_succ hlines) hlimit
  · exact Nat.lt_of_le_of_lt (Nat.succ_le_succ hgoals) hlimit

/-! ## Messages -/

namespace Server

/-- A message is a call of the one method, and brings a request. -/
def Brings (message : Json) (request : CheckRequest) : Prop :=
  ∃ call, Call.decode message = .ok call ∧ call.method = checkMethod ∧
    CheckRequest.decode call.params = .ok request

theorem Brings.unique {request request' : CheckRequest} (h : Brings message request)
    (h' : Brings message request') : request' = request := by
  obtain ⟨call, hcall, -, hparams⟩ := h
  obtain ⟨call', hcall', -, hparams'⟩ := h'
  cases hcall.symm.trans hcall'
  cases hparams.symm.trans hparams'
  rfl

/-- The id of the response to a message. -/
def responseId (message : Json) : Json :=
  match Call.decode message with
  | .ok call => call.id
  | .error _ => .null

/-- How the server responds to a message: with an error unless the message brings a request, and
as the machine replies to the request if it does. -/
inductive Responds (message : Json) : Trapping Response → Prop where
  | noRequest (code : Int) (text : String) (hnone : ∀ request, ¬ Brings message request) :
    Responds message (.ok ⟨responseId message, .error code text⟩)
  | verdict (request : CheckRequest) (verdict : Verdict) (hbrings : Brings message request)
    (hanswer : request.answer = .ok verdict) :
    Responds message (.ok ⟨responseId message, .result verdict⟩)
  | refused (request : CheckRequest) (error : DocumentError) (hbrings : Brings message request)
    (hanswer : request.answer = .error error) (hlast : Word.limit 64 - 1 ∉ error.rows) :
    Responds message (.ok ⟨responseId message, .error Response.refused (error.wording (· + 1))⟩)
  | trapped (request : CheckRequest) (line : Nat) (hbrings : Brings message request)
    (hanswer : request.answer = .error (.badPremise line (Word.limit 64 - 1))) :
    Responds message (.error .overflow)

theorem responds_respond (hmessage : message.Within Frame.maxBody) :
    Responds message (respond message) := by
  unfold respond
  cases hcall : Call.decode message with
  | error reason =>
    have hid : responseId message = .null := by rw [responseId, hcall]
    dsimp only
    rw [← hid]
    refine .noRequest _ _ ?_
    rintro request ⟨call, hcall', -⟩
    cases hcall.symm.trans hcall'
  | ok call =>
    have hid : responseId message = call.id := by rw [responseId, hcall]
    dsimp only
    rw [← hid]
    split
    · rename_i hmethod
      unfold answerParams
      cases hparams : CheckRequest.decode call.params with
      | error reason =>
        refine .noRequest _ _ ?_
        rintro request ⟨call', hcall', -, hparams'⟩
        cases hcall.symm.trans hcall'
        cases hparams.symm.trans hparams'
      | ok request =>
        have hbrings : Brings message request := ⟨call, hcall, hmethod, hparams⟩
        have hreplies := Machine.replies_of_decode hparams (Call.within_params hcall hmessage)
        dsimp only
        unfold answerRequest
        generalize Machine.reply request = replied at hreplies ⊢
        cases hreplies with
        | verdict verdict hanswer => exact .verdict request verdict hbrings hanswer
        | refused error hanswer _ hlast => exact .refused request error hbrings hanswer hlast
        | trapped line hanswer => exact .trapped request line hbrings hanswer
    · rename_i hmethod
      refine .noRequest _ _ ?_
      rintro request ⟨call', hcall', hmethod', -⟩
      cases hcall.symm.trans hcall'
      exact hmethod hmethod'

end Server

end NaturalDeduction
