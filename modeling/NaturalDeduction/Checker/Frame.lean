/-
  Frames: JSON values in a stream of bytes.

  A frame is a head, which gives the length of the body in bytes, and a body,
  which is one JSON value. The head is made of header lines and ends with a
  blank one. Only the length is looked at; other headers and lines that are no
  headers are skipped, and of several lengths the last one counts.
-/

import NaturalDeduction.Json.Decode
import NaturalDeduction.Json.Printer
import NaturalDeduction.Text.Blank
import NaturalDeduction.Text.Numeral
import NaturalDeduction.Text.Quoted
import NaturalDeduction.Text.Utf8

namespace NaturalDeduction

/-- Why no frame can be read. -/
inductive FrameError where
  | undecodableHead
  | endInHead
  | badLength (text : String) (reason : Text.NumeralError)
  | noLength
  | tooLong (length : Nat)
  | endInBody
  | badBody
  deriving DecidableEq, Repr

namespace Frame

/-- The name of the header that gives the length. -/
def lengthHeader : String := "Content-Length"

/-- The largest body in bytes. -/
def maxBody : Nat := 4194304

end Frame

namespace FrameError

/-- The wording of each reason. -/
def message : FrameError → String
  | undecodableHead => "reading frame header: stream did not contain valid UTF-8"
  | endInHead => "stream ended inside frame headers"
  | badLength text reason =>
    "bad " ++ Frame.lengthHeader ++ " value " ++ Text.quote text ++ ": " ++ reason.message
  | noLength => "frame has no " ++ Frame.lengthHeader ++ " header"
  | tooLong length =>
    "frame of " ++ toString length ++ " bytes exceeds the " ++ toString Frame.maxBody
      ++ " byte limit"
  | endInBody => "reading frame body: early eof"
  | badBody => "decoding frame body: " ++ Json.DecodeError.noValue.message

end FrameError

namespace Frame

/-! ## Writing -/

/-- The body of the frame of a value: the value without white space and with ascending keys. -/
def body (message : Json) : List UInt8 :=
  Text.Utf8.encode message.canonical.render

/-- The head of a frame with a body of the given length. -/
def head (length : Nat) : List UInt8 :=
  Text.Utf8.encode (lengthHeader ++ ": " ++ toString length ++ "\r\n\r\n")

/-- The frame of a value. -/
def write (message : Json) : List UInt8 :=
  head (body message).length ++ body message

/-! ## Reading a head -/

/-- The byte that ends a line. -/
def lineFeed : UInt8 := 10

/-- The first line, up to its line feed or to the end, and the bytes after it. -/
def splitLine : List UInt8 → List UInt8 × List UInt8
  | [] => ([], [])
  | byte :: bytes =>
    -- The line feed stays with its line.
    if byte = lineFeed then ([byte], bytes)
    else
      let (line, rest) := splitLine bytes
      (byte :: line, rest)

/-- A line takes nothing away and adds nothing. -/
theorem splitLine_append (bytes : List UInt8) :
    (splitLine bytes).1 ++ (splitLine bytes).2 = bytes := by
  induction bytes with
  | nil => rfl
  | cons byte bytes ih =>
    simp only [splitLine]
    split
    · rfl
    · simp [ih]

theorem length_splitLine_lt (byte : UInt8) (bytes : List UInt8) :
    (splitLine (byte :: bytes)).2.length < bytes.length + 1 := by
  simp only [splitLine]
  split
  · simp
  · have h := congrArg List.length (splitLine_append bytes)
    simp only [List.length_append] at h
    show (splitLine bytes).2.length < bytes.length + 1
    omega

/-- The name and the value of a header, which a colon separates. -/
def header? (line : String) : Option (String × String) :=
  match line.toList.dropWhile (· ≠ ':') with
  | [] => none
  | _ :: value =>
    some (Text.trim (String.ofList (line.toList.takeWhile (· ≠ ':'))),
      Text.trim (String.ofList value))

/-- The length that a line gives, if it gives one, and otherwise the length from before it. -/
def lengthAfter (length? : Option Nat) (line : String) : Except FrameError (Option Nat) :=
  match header? line with
  | none => .ok length?
  | some (name, value) =>
    if Text.sameName name lengthHeader then
      match Text.readCount value with
      | .ok length => .ok (some length)
      | .error reason => .error (.badLength value reason)
    else .ok length?

/-- Reads lines up to a blank one. The answer is the last length that was given and the bytes
after the head. -/
def readHead (length? : Option Nat) : List UInt8 → Except FrameError (Option Nat × List UInt8)
  | [] => .error .endInHead
  | byte :: bytes =>
    match Text.Utf8.decode? (splitLine (byte :: bytes)).1 with
    | none => .error .undecodableHead
    | some line =>
      if Text.isBlankText line then .ok (length?, (splitLine (byte :: bytes)).2)
      else
        match lengthAfter length? (Text.trim line) with
        | .error reason => .error reason
        | .ok length? => readHead length? (splitLine (byte :: bytes)).2
  termination_by bytes => bytes.length
  decreasing_by exact length_splitLine_lt byte bytes

theorem length_readHead_lt {length? length'? : Option Nat} {bytes rest : List UInt8}
    (h : readHead length? bytes = .ok (length'?, rest)) : rest.length < bytes.length := by
  fun_induction readHead length? bytes with
  | case1 => simp at h
  | case2 => simp at h
  | case3 length? byte bytes line =>
    simp only [Except.ok.injEq, Prod.mk.injEq] at h
    simpa [← h.2] using length_splitLine_lt byte bytes
  | case4 => simp at h
  | case5 length? byte bytes line _ _ next _ ih =>
    exact Nat.lt_trans (ih h) (by simpa using length_splitLine_lt byte bytes)

/-! ## Reading frames -/

/-- Reads a body. -/
def readBody (bytes : List UInt8) : Except FrameError Json :=
  match (Text.Utf8.decode? bytes).bind fun text => Json.readValue? text.toList with
  | some message => .ok message
  | none => .error .badBody

/-- Reads the body of the given length, and leaves the bytes after it. -/
def readAfterHead (length? : Option Nat) (bytes : List UInt8) :
    Except FrameError (Json × List UInt8) :=
  match length? with
  | none => .error .noLength
  | some length =>
    -- The limit comes first, so that a long body is refused before it has arrived.
    if maxBody < length then .error (.tooLong length)
    else if bytes.length < length then .error .endInBody
    else (readBody (bytes.take length)).map fun message => (message, bytes.drop length)

/-- Reads the frame at the start of a stream; the answer holds the rest of the stream. There is no
frame when the stream is empty. -/
def read : List UInt8 → Except FrameError (Option (Json × List UInt8))
  | [] => .ok none
  | byte :: bytes =>
    match readHead none (byte :: bytes) with
    | .error reason => .error reason
    | .ok (length?, rest) => (readAfterHead length? rest).map some

theorem length_readAfterHead_le {length? : Option Nat} {bytes rest : List UInt8} {message : Json}
    (h : readAfterHead length? bytes = .ok (message, rest)) : rest.length ≤ bytes.length := by
  unfold readAfterHead at h
  split at h
  · simp at h
  · split at h
    · simp at h
    · split at h
      · simp at h
      · rename_i length _ _
        cases hbody : readBody (bytes.take length) with
        | error reason => simp [hbody, Except.map] at h
        | ok value =>
          simp only [hbody, Except.map, Except.ok.injEq, Prod.mk.injEq] at h
          rw [← h.2, List.length_drop]
          omega

theorem length_read_lt {bytes rest : List UInt8} {message : Json}
    (h : read bytes = .ok (some (message, rest))) : rest.length < bytes.length := by
  match bytes with
  | [] => simp [read] at h
  | byte :: bytes =>
    simp only [read] at h
    split at h
    · simp at h
    · rename_i length? after hhead
      cases hafter : readAfterHead length? after with
      | error reason => simp [hafter, Except.map] at h
      | ok pair =>
        simp only [hafter, Except.map, Except.ok.injEq, Option.some.injEq] at h
        subst h
        exact Nat.lt_of_le_of_lt (length_readAfterHead_le hafter) (length_readHead_lt hhead)

/-- Reads all frames of a stream, up to its end or to the first error. -/
def readAll (bytes : List UInt8) : List Json × Option FrameError :=
  match h : read bytes with
  | .error reason => ([], some reason)
  | .ok none => ([], none)
  | .ok (some (message, rest)) =>
    have : rest.length < bytes.length := length_read_lt h
    let (messages, error?) := readAll rest
    (message :: messages, error?)
  termination_by bytes.length

end Frame

end NaturalDeduction
