/-
  The check server at work.

  The server takes turns: it reads one frame and writes the response to it
  before it looks at the next one. It stops where its input ends between two
  frames, fails where no frame can be read, and is gone where it traps over a
  frame; what it wrote before stays written.
-/

import NaturalDeduction.Checker.Server

namespace NaturalDeduction.Server

/-- The server between two turns: what it has not read yet, what it wrote, and how many frames it
answered. -/
structure Connection where
  unread : List UInt8
  written : List UInt8
  answered : Nat

/-- What comes of a turn: the server goes on, or it ends. -/
inductive Turn where
  | next (connection : Connection)
  | last (ending : Ending)

/-- The message that answers a message. -/
def answer (message : Json) : Trapping Json :=
  Response.encode <$> respond message

namespace Connection

/-- The server before its first turn. -/
def start (input : List UInt8) : Connection :=
  ⟨input, [], 0⟩

/-- Reads a frame and answers it. -/
def turn (connection : Connection) : Turn :=
  match Frame.read connection.unread with
  | .error reason => .last (.unreadable reason)
  | .ok none => .last .closed
  | .ok (some (message, rest)) =>
    match answer message with
    | .error trap => .last (.trapped trap)
    | .ok response =>
      .next ⟨rest, connection.written ++ Frame.write response, connection.answered + 1⟩

theorem length_unread_lt {connection next : Connection} (h : connection.turn = .next next) :
    next.unread.length < connection.unread.length := by
  unfold turn at h
  split at h
  · cases h
  · cases h
  · rename_i hread
    split at h
    · cases h
    · cases h
      exact Frame.length_read_lt hread

/-- Takes turns as long as the server goes on. The answer also tells how it ends. -/
def run (connection : Connection) : Connection × Ending :=
  match h : connection.turn with
  | .last ending => (connection, ending)
  | .next next =>
    have : next.unread.length < connection.unread.length := length_unread_lt h
    next.run
  termination_by connection.unread.length

end Connection

end NaturalDeduction.Server
