/-
  Streams of frames.

  A frame tells by itself where it ends, so frames can stand one after the other
  in a stream: they are read one by one, and what follows them is read as if it
  stood alone. A frame that is cut off anywhere is never taken for a whole one,
  nor for the end of the stream.
-/

import NaturalDeduction.Proofs.Checker.Head
import NaturalDeduction.Proofs.Json.Canonical

namespace NaturalDeduction.Frame

open Text

/-- A value that a frame can hold: its numbers are whole numbers of 64 bits, its parts are nested no
deeper than the reader goes, and its text keeps to the limit. -/
structure Fits (message : Json) : Prop where
  whole : message.whole = true
  usable : message.usable Json.maxDepth = true
  length_body_le : (body message).length ≤ maxBody

variable {message : Json} {messages : List Json} {bytes rest : List UInt8}

/-! ## One frame -/

theorem read_eq_of_ne_nil (h : bytes ≠ []) :
    read bytes = (readHead none bytes).bind fun found =>
      (readAfterHead found.1 found.2).map some := by
  obtain ⟨byte, bytes, rfl⟩ := List.exists_cons_of_ne_nil h
  rw [read]
  cases readHead none (byte :: bytes) <;> rfl

theorem write_ne_nil (message : Json) : write message ≠ [] := by
  rw [write, head_eq]
  simp

/-- The body of a frame is read back, with the members of its objects in order. -/
theorem readBody_body (h : Fits message) : readBody (body message) = .ok message.canonical := by
  rw [readBody, body, Utf8.decode?_encode, Option.bind_some,
    Json.readValue?_render_canonical h.whole h.usable]

theorem readAfterHead_body (h : Fits message) (rest : List UInt8) :
    readAfterHead (some (body message).length) (body message ++ rest) =
      .ok (message.canonical, rest) := by
  have henough : ¬ (body message ++ rest).length < (body message).length := by simp
  rw [readAfterHead, if_neg (Nat.not_lt.2 h.length_body_le), if_neg henough, List.take_left,
    List.drop_left, readBody_body h]
  rfl

/-- The length of a body that a frame can hold fits its numeral. -/
theorem Fits.length_body_lt (h : Fits message) : (body message).length < Word.limit 64 :=
  Nat.lt_of_le_of_lt h.length_body_le (by decide)

/-- A frame is read, and what follows it is left. -/
theorem read_write_append (h : Fits message) (rest : List UInt8) :
    read (write message ++ rest) = .ok (some (message.canonical, rest)) := by
  rw [read_eq_of_ne_nil (by simp [write_ne_nil]), write, List.append_assoc,
    readHead_head h.length_body_lt, Except.bind, readAfterHead_body h]
  rfl

/-! ## A frame that is cut off -/

/-- A body that has not arrived in full is not read. -/
theorem exists_readAfterHead_eq_error {length : Nat} (h : bytes.length < length) :
    ∃ reason, readAfterHead (some length) bytes = .error reason := by
  rw [readAfterHead, if_pos h]
  split <;> exact ⟨_, rfl⟩

/-- A frame that is cut off is an error. -/
theorem exists_read_eq_error_of_cut (h : Fits message) {cut : List UInt8} (hnil : cut ≠ [])
    (hcut : cut <+: write message) (hne : cut ≠ write message) :
    ∃ reason, read cut = .error reason := by
  -- What is found behind the head is no body, and no length without one is enough.
  have hafter : ∀ found, readHead none cut = .ok found →
      ∃ reason, readAfterHead found.1 found.2 = .error reason := by
    intro found hfound
    have hbody : 0 < (body message).length := by
      obtain ⟨c, tail, hcs, -⟩ := (Json.spells_render _ (Json.whole_canonical h.whole)).exists_cons
      rw [body, Utf8.encode_eq_flatMap, hcs, List.flatMap_cons, List.length_append]
      exact Nat.add_pos_left (List.length_pos_iff.2 (String.utf8EncodeChar_ne_nil)) _
    rcases prefix_append_cases hcut with hhead | ⟨part, rfl, hpart⟩
    · by_cases hwhole : cut = head (body message).length
      · rw [hwhole, ← List.append_nil (head _), readHead_head h.length_body_lt] at hfound
        cases hfound
        exact exists_readAfterHead_eq_error hbody
      · rcases eq_of_readHead_cut h.length_body_lt hhead hwhole hfound with rfl | rfl
        · exact ⟨_, rfl⟩
        · exact exists_readAfterHead_eq_error hbody
    · rw [readHead_head h.length_body_lt] at hfound
      cases hfound
      refine exists_readAfterHead_eq_error (Nat.lt_of_le_of_ne hpart.length_le fun heq => hne ?_)
      rw [write, hpart.eq_of_length heq]
  rw [read_eq_of_ne_nil hnil]
  cases hhead : readHead none cut with
  | error reason => exact ⟨reason, rfl⟩
  | ok found =>
    obtain ⟨reason, hreason⟩ := hafter found hhead
    exact ⟨reason, by rw [Except.bind, hreason]; rfl⟩

/-! ## Streams -/

theorem readAll_nil : readAll [] = ([], none) := by
  rw [readAll]
  split
  · rename_i hread
    cases hread
  · rfl
  · rename_i hread
    cases hread

theorem readAll_of_read_eq_ok (h : read bytes = .ok (some (message, rest))) :
    readAll bytes = (message :: (readAll rest).1, (readAll rest).2) := by
  rw [readAll]
  split <;> simp_all

theorem readAll_of_read_eq_error {reason : FrameError} (h : read bytes = .error reason) :
    readAll bytes = ([], some reason) := by
  rw [readAll]
  split <;> simp_all

/-- Frames are read one by one, and what follows them is read as if it stood alone. -/
theorem readAll_flatMap_write_append (h : ∀ message ∈ messages, Fits message)
    (rest : List UInt8) :
    readAll (messages.flatMap write ++ rest) =
      (messages.map Json.canonical ++ (readAll rest).1, (readAll rest).2) := by
  induction messages with
  | nil => rfl
  | cons message messages ih =>
    have hrest := ih fun other hother => h other (.tail _ hother)
    rw [List.flatMap_cons, List.append_assoc,
      readAll_of_read_eq_ok (read_write_append (h message (.head _)) _), hrest]
    rfl

/-- Frames tell where they end. Frames one after the other are read to their values in order, and
then the stream goes on as what follows them alone; a stream that ends inside a frame gives the
values of the frames before it and then an error. Members of an object are read in the order of
their keys, whatever their order was. -/
theorem readAll_written (messages : List Json) (h : ∀ message ∈ messages, Fits message) :
    (∀ rest, readAll (messages.flatMap write ++ rest) =
      (messages.map Json.canonical ++ (readAll rest).1, (readAll rest).2)) ∧
    ∀ before message after cut, messages = before ++ message :: after → cut ≠ [] →
      cut <+: write message → cut ≠ write message →
        ∃ reason, readAll (before.flatMap write ++ cut) =
          (before.map Json.canonical, some reason) := by
  refine ⟨readAll_flatMap_write_append h, fun before message after cut hsplit hnil hcut hne => ?_⟩
  subst hsplit
  obtain ⟨reason, hreason⟩ :=
    exists_read_eq_error_of_cut (h message (by simp)) hnil hcut hne
  refine ⟨reason, ?_⟩
  rw [readAll_flatMap_write_append fun other hother => h other (List.mem_append_left _ hother),
    readAll_of_read_eq_error hreason, List.append_nil]

/-- The stream ends inside the digits of the second length, and `2` would be a length too. -/
theorem readAll_written_cut_in_digits :
    ∃ reason, readAll (write (.string "P → Q") ++ Utf8.encode "Content-Length: 2") =
      ([.string "P → Q"], some reason) := by
  have hfits : ∀ message ∈ [Json.string "P → Q",
      .object [("result", .string "P → Q"), ("id", .natural 1)]], Fits message := by
    simp only [List.forall_mem_cons]
    exact ⟨⟨by decide, by decide, by decide⟩, ⟨by decide, by decide, by decide⟩, by simp⟩
  have hwritten := (readAll_written _ hfits).2 [Json.string "P → Q"]
    (.object [("result", .string "P → Q"), ("id", .natural 1)]) []
    (Utf8.encode "Content-Length: 2") rfl (by decide) (by decide +kernel) (by decide +kernel)
  simpa [Json.canonical] using hwritten

end NaturalDeduction.Frame
