/-
  What the server writes.

  The server answers the frames of its input one by one, and each answer is
  found from its own frame alone. So a message that is no call, asks for an
  unknown method or brings a proof that is refused costs one response like any
  other, and the frames around it are answered as if it were not there. What
  the server cannot answer is a request that is refused for citing the last
  word: it is gone before it has worded the refusal, and the frames from there
  on have no response.
-/

import NaturalDeduction.Checker.Connection
import NaturalDeduction.Proofs.Checker.Exchange

namespace NaturalDeduction

/-! ## One message -/

/-- The member of an object that has a name. -/
def Json.member? (name : String) : Json → Option Json
  | .object members => members.lookup name
  | _ => none

namespace Server

/-- The id that a message carries: a member of an object, or the first item of an array. -/
def idOf : Json → Json
  | .object members => (members.lookup "id").getD .null
  | .array items => items.head?.getD .null
  | _ => .null

/-- A message asks for a verdict that the rules alone give. -/
def AsksFor (message : Json) (verdict : Verdict) : Prop :=
  ∃ request, Brings message request ∧ request.answer = .ok verdict

/-- A message brings a request that is refused for citing the last word. -/
def CitesLast (message : Json) : Prop :=
  ∃ request line, Brings message request ∧
    request.answer = .error (.badPremise line (Word.limit 64 - 1))

/-- A response to a message: it carries a result or an error and not both, the result being the
verdict that the message asks for, and it has the id of the message if that is a call. -/
structure Answers (message response : Json) : Prop where
  carries_one : (response.member? "result").isSome ≠ (response.member? "error").isSome
  result_iff (result : Json) : response.member? "result" = some result ↔
    ∃ verdict, AsksFor message verdict ∧ result = Response.encodeVerdict verdict
  id_of_call (call : Call) : Call.decode message = .ok call →
    response.member? "id" = some (idOf message)
  id_of_other (reason : Json.DecodeError) : Call.decode message = .error reason →
    response.member? "id" = some .null

variable {message : Json} {call : Call}

/-- The first name of a record finds the first item of an array. -/
theorem lookup_zip_head {name : String} {names : List String} (items : List Json) :
    ((name :: names).zip items).lookup name = items.head? := by
  cases items <;> simp

theorem lookup_id_of_asRecord {names : List String} {fields : Json.Fields}
    (h : message.asRecord ("id" :: names) = .ok fields) :
    (fields.lookup "id").getD .null = idOf message := by
  unfold Json.asRecord at h
  split at h
  · dsimp only at h
    split at h
    · cases h
    · cases h
      rw [Json.lookup_filter_of_mem (.head _), idOf]
  · split at h
    · cases h
      rw [lookup_zip_head, idOf]
    · cases h
  · cases h

/-- A call has the id that its message carries. -/
theorem id_of_decode (h : Call.decode message = .ok call) : call.id = idOf message := by
  obtain ⟨fields, hfields, hrest⟩ := Except.bind_eq_ok.1 h
  obtain ⟨id, hid, hrest⟩ := Except.bind_eq_ok.1 hrest
  obtain ⟨_, -, hrest⟩ := Except.bind_eq_ok.1 hrest
  obtain ⟨_, -, hdone⟩ := Except.bind_eq_ok.1 hrest
  cases hdone
  rw [← lookup_id_of_asRecord hfields]
  unfold Json.Fields.optional at hid
  split at hid <;> rename_i hlookup <;> cases hid <;> rw [hlookup] <;> rfl

theorem member_id_encode (response : Response) :
    response.encode.member? "id" = some response.id := rfl

theorem carries_one_encode (response : Response) :
    (response.encode.member? "result").isSome ≠ (response.encode.member? "error").isSome := by
  obtain ⟨id, body⟩ := response
  cases body <;> simp [Response.encode, Json.member?, List.lookup_cons]

theorem member_result_encode_iff (response : Response) (result : Json) :
    response.encode.member? "result" = some result ↔
      ∃ verdict, response.body = .result verdict ∧ result = Response.encodeVerdict verdict := by
  obtain ⟨id, body⟩ := response
  cases body <;> simp [Response.encode, Json.member?, List.lookup_cons, eq_comm]

/-- Only a request that is not refused is answered by a result. -/
theorem Responds.result_iff {response : Response} {verdict : Verdict}
    (h : Responds message (.ok response)) :
    response.body = .result verdict ↔ AsksFor message verdict := by
  cases h with
  | noRequest code text hnone =>
    refine ⟨fun heq => ResponseBody.noConfusion heq, ?_⟩
    rintro ⟨request, hbrings, -⟩
    exact (hnone request hbrings).elim
  | verdict request answer hbrings hanswer =>
    constructor
    · intro heq
      cases heq
      exact ⟨request, hbrings, hanswer⟩
    · rintro ⟨request', hbrings', hanswer'⟩
      rw [hbrings.unique hbrings', hanswer] at hanswer'
      cases hanswer'
      rfl
  | refused request error hbrings hanswer =>
    refine ⟨fun heq => ResponseBody.noConfusion heq, ?_⟩
    rintro ⟨request', hbrings', hanswer'⟩
    rw [hbrings.unique hbrings', hanswer] at hanswer'
    cases hanswer'

theorem Responds.id_eq {response : Response} (h : Responds message (.ok response)) :
    response.id = responseId message := by
  cases h <;> rfl

/-- What the server writes for a message answers it. -/
theorem Responds.answers {response : Response} (h : Responds message (.ok response)) :
    Answers message response.encode where
  carries_one := carries_one_encode _
  result_iff result := by
    simp only [member_result_encode_iff, h.result_iff]
  id_of_call call hcall := by
    rw [member_id_encode, h.id_eq, responseId, hcall, ← id_of_decode hcall]
  id_of_other reason hcall := by
    rw [member_id_encode, h.id_eq, responseId, hcall]

/-- Only a message that cites the last word has no response. -/
theorem Responds.not_citesLast {response : Response} (h : Responds message (.ok response)) :
    ¬ CitesLast message := by
  rintro ⟨request', line, hbrings', hanswer'⟩
  cases h with
  | noRequest code text hnone => exact hnone request' hbrings'
  | verdict request verdict hbrings hanswer =>
    rw [hbrings.unique hbrings', hanswer] at hanswer'
    cases hanswer'
  | refused request error hbrings hanswer hlast =>
    rw [hbrings.unique hbrings', hanswer] at hanswer'
    cases hanswer'
    exact hlast (.tail _ (.head _))

theorem Responds.citesLast {trap : Trap} (h : Responds message (.error trap)) :
    trap = .overflow ∧ CitesLast message := by
  cases h with
  | trapped request line hbrings hanswer => exact ⟨rfl, request, line, hbrings, hanswer⟩

/-- A message is answered, or it cites the last word and the server traps over it. -/
theorem answer_cases (hmessage : message.Within Frame.maxBody) :
    (∃ response, answer message = .ok response ∧ Answers message response ∧
      ¬ CitesLast message) ∨
    answer message = .error .overflow ∧ CitesLast message := by
  have hresponds := responds_respond hmessage
  unfold answer
  generalize respond message = responded at hresponds ⊢
  cases responded with
  | ok response => exact .inl ⟨response.encode, rfl, hresponds.answers, hresponds.not_citesLast⟩
  | error trap =>
    obtain ⟨rfl, hlast⟩ := hresponds.citesLast
    exact .inr ⟨rfl, hlast⟩

/-! ## All messages -/

namespace Connection

variable {connection next : Connection}

theorem run_of_next (h : connection.turn = .next next) : connection.run = next.run := by
  rw [run]
  split <;> simp_all

theorem run_of_last {ending : Ending} (h : connection.turn = .last ending) :
    connection.run = (connection, ending) := by
  rw [run]
  split <;> simp_all

/-- A turn that goes on answers one more frame, the first one that is not read yet. -/
theorem turn_eq_next (h : connection.turn = .next next) :
    ∃ message response, message.Within Frame.maxBody ∧ answer message = .ok response ∧
      Frame.readAll connection.unread =
        (message :: (Frame.readAll next.unread).1, (Frame.readAll next.unread).2) ∧
      next.written = connection.written ++ Frame.write response ∧
      next.answered = connection.answered + 1 := by
  unfold turn at h
  split at h
  · cases h
  · cases h
  · rename_i message rest hread
    split at h
    · cases h
    · rename_i response hanswer
      cases h
      exact ⟨message, response, Frame.within_read hread, hanswer,
        Frame.readAll_of_read_eq_ok hread, rfl, rfl⟩

/-- The last turn finds no frame that can be read, or one that the server traps over. -/
theorem turn_eq_last {ending : Ending} (h : connection.turn = .last ending) :
    (∃ error?, Frame.readAll connection.unread = ([], error?) ∧ ending = .ofReading error?) ∨
    ∃ message trap, message.Within Frame.maxBody ∧ answer message = .error trap ∧
      (Frame.readAll connection.unread).1.head? = some message ∧ ending = .trapped trap := by
  unfold turn at h
  split at h
  · rename_i reason hread
    cases h
    exact .inl ⟨some reason, Frame.readAll_of_read_eq_error hread, rfl⟩
  · rename_i hread
    cases h
    refine .inl ⟨none, ?_, rfl⟩
    rw [Frame.readAll]
    split <;> simp_all
  · rename_i message rest hread
    split at h
    · rename_i trap hanswer
      cases h
      refine .inr ⟨message, trap, Frame.within_read hread, hanswer, ?_, rfl⟩
      rw [Frame.readAll_of_read_eq_ok hread, List.head?_cons]
    · cases h

/-- What the server has written when it ends, and how it ends, given the frames that it finds and
what ends the reading of them. It answers frame after frame, up to one that it traps over. -/
structure Serves (connection : Connection) (messages : List Json) (error? : Option FrameError)
    (responses : List Json) : Prop where
  written : connection.run.1.written = connection.written ++ responses.flatMap Frame.write
  answered : connection.run.1.answered = connection.answered + responses.length
  responds : List.Forall₂ (fun message response => answer message = .ok response ∧
    Answers message response ∧ ¬ CitesLast message) (messages.take responses.length) responses
  ending : responses.length = messages.length ∧ connection.run.2 = .ofReading error? ∨
    ∃ message, messages[responses.length]? = some message ∧ CitesLast message ∧
      answer message = .error .overflow ∧ connection.run.2 = .trapped .overflow

/-- The server answers the frames that can be read. -/
theorem exists_serves_readAll (connection : Connection) :
    ∃ responses, connection.Serves (Frame.readAll connection.unread).1
      (Frame.readAll connection.unread).2 responses := by
  -- The induction follows the turns: each one leaves fewer bytes to read.
  fun_induction run connection with
  | case1 connection ending hturn =>
    have hrun := run_of_last hturn
    refine ⟨[], by simp [hrun], by simp [hrun], .nil, ?_⟩
    rcases turn_eq_last hturn with
      ⟨error?, hread, rfl⟩ | ⟨message, trap, hmessage, htrap, hfirst, rfl⟩
    · exact .inl ⟨by rw [hread], by rw [hrun, hread]⟩
    · rcases answer_cases hmessage with ⟨response, hanswer, -⟩ | ⟨hanswer, hlast⟩
      · cases htrap.symm.trans hanswer
      · cases htrap.symm.trans hanswer
        refine .inr ⟨message, ?_, hlast, hanswer, by rw [hrun]⟩
        rw [List.length_nil, ← List.head?_eq_getElem?, hfirst]
  | case2 connection next hturn _ ih =>
    obtain ⟨responses, hserves⟩ := ih
    obtain ⟨message, response, hmessage, hanswer, hread, hwritten, hanswered⟩ := turn_eq_next hturn
    refine ⟨response :: responses, ?_, ?_, ?_, ?_⟩
    · rw [run_of_next hturn, hserves.written, hwritten, List.flatMap_cons, List.append_assoc]
    · rw [run_of_next hturn, hserves.answered, hanswered, List.length_cons]
      omega
    · rw [hread]
      refine .cons ?_ hserves.responds
      rcases answer_cases hmessage with ⟨other, hother, hanswers, hnot⟩ | ⟨htrap, -⟩
      · cases hanswer.symm.trans hother
        exact ⟨hanswer, hanswers, hnot⟩
      · cases hanswer.symm.trans htrap
    · rw [hread, run_of_next hturn]
      rcases hserves.ending with ⟨hall, hending⟩ | ⟨last, hlast, hcites, htrap, hending⟩
      · exact .inl ⟨by simp only [List.length_cons, hall], hending⟩
      · exact .inr ⟨last, by simpa using hlast, hcites, htrap, hending⟩

/-- The turns do what responding to the messages one after the other does. -/
theorem run_eq_respondEach (connection : Connection) :
    connection.run.1.written = connection.written ++
      (respondEach (Frame.readAll connection.unread).1).1.flatMap
        (fun response => Frame.write response.encode) ∧
    connection.run.2 = ((respondEach (Frame.readAll connection.unread).1).2.map
      Ending.trapped).getD (.ofReading (Frame.readAll connection.unread).2) := by
  fun_induction run connection with
  | case1 connection ending hturn =>
    rcases turn_eq_last hturn with ⟨error?, hread, rfl⟩ | ⟨message, trap, -, htrap, hfirst, rfl⟩
    · simp [hread, respondEach]
    · obtain ⟨others, hmessages⟩ := List.head?_eq_some_iff.1 hfirst
      have hrespond : respond message = .error trap := Except.map_eq_error.1 htrap
      simp [hmessages, respondEach, hrespond]
  | case2 connection next hturn _ ih =>
    obtain ⟨message, response, -, hanswer, hread, hwritten, -⟩ := turn_eq_next hturn
    obtain ⟨plain, hrespond, rfl⟩ := Except.map_eq_ok.1 hanswer
    rw [ih.1, ih.2, hread, hwritten]
    simp [respondEach, hrespond]

end Connection

/-- Turn by turn the server does what `serve` computes from all frames together. -/
theorem run_eq_serve (input : List UInt8) :
    (Connection.start input).run.1.written = (serve input).output ∧
      (Connection.start input).run.2 = (serve input).ending :=
  Connection.run_eq_respondEach (.start input)

/-- The server answers the frames that can be read exactly once, in order, up to the first one that
brings a request refused for citing the last word. Let the frames of an input be read up to its end
or to the first error. Then the server writes one response to each frame before that one, and
nothing else: the response is found from its own frame alone, carries a result or an error and not
both, and has the id of the frame if that is a call, and `null` otherwise. If all frames are
answered, the server ends without an error just when the input ends between two frames, and with
the error of the frame that cannot be read otherwise. If one is not, the server is gone. -/
theorem serves_every_frame (input : List UInt8) :
    ∃ responses : List Json,
      List.Forall₂ (fun message response => answer message = .ok response ∧
        Answers message response ∧ ¬ CitesLast message)
        ((Frame.readAll input).1.take responses.length) responses ∧
      (Connection.start input).run.1.written = responses.flatMap Frame.write ∧
      (Connection.start input).run.1.answered = responses.length ∧
      (responses.length = (Frame.readAll input).1.length ∧
          (Connection.start input).run.2 = .ofReading (Frame.readAll input).2 ∨
        ∃ message, (Frame.readAll input).1[responses.length]? = some message ∧
          CitesLast message ∧ answer message = .error .overflow ∧
          (Connection.start input).run.2 = .trapped .overflow) ∧
      ((∀ response ∈ responses, Frame.Fits response) →
        Frame.readAll (Connection.start input).run.1.written =
          (responses.map Json.canonical, none)) := by
  obtain ⟨responses, h⟩ := Connection.exists_serves_readAll (.start input)
  have hwritten : (Connection.start input).run.1.written = responses.flatMap Frame.write :=
    h.written
  refine ⟨responses, h.responds, hwritten, h.answered.trans (Nat.zero_add _), h.ending,
    fun hfits => ?_⟩
  rw [hwritten, ← List.append_nil (List.flatMap ..), Frame.readAll_flatMap_write_append hfits,
    Frame.readAll_nil, List.append_nil]

/-- Two calls, the first of which brings a request that is refused for citing the last word. -/
def citesLastFirst : List Json :=
  [Call.encode 7 Machine.citesLast, .object [("id", .natural 8), ("method", .string "ping")]]

theorem fits_citesLastFirst : ∀ message ∈ citesLastFirst, Frame.Fits message := by
  refine List.forall_mem_cons.2 ⟨?_, List.forall_mem_singleton.2 ⟨rfl, rfl, by decide +kernel⟩⟩
  exact Call.fits (by decide) Exchange.fits_citesLast (by decide +kernel)

/-- Both calls can be read, and none is answered. -/
theorem run_citesLastFirst :
    Frame.readAll (citesLastFirst.flatMap Frame.write) =
      (citesLastFirst.map Json.canonical, none) ∧
    (Connection.start (citesLastFirst.flatMap Frame.write)).run.1.written = [] ∧
    (Connection.start (citesLastFirst.flatMap Frame.write)).run.2 = .trapped .overflow := by
  have hread : Frame.readAll (citesLastFirst.flatMap Frame.write) =
      (citesLastFirst.map Json.canonical, none) := by
    rw [← List.append_nil (List.flatMap ..),
      Frame.readAll_flatMap_write_append fits_citesLastFirst, Frame.readAll_nil, List.append_nil]
  have hrespond : respond (Call.encode 7 Machine.citesLast).canonical = .error .overflow := by
    rw [respond_canonical_encode Exchange.fits_citesLast, Exchange.answerRequest_citesLast]
    rfl
  have hrun := run_eq_serve (citesLastFirst.flatMap Frame.write)
  rw [serve, hread] at hrun
  simp only [citesLastFirst, List.map_cons, respondEach, hrespond] at hrun
  exact ⟨hread, hrun⟩

end Server

end NaturalDeduction
