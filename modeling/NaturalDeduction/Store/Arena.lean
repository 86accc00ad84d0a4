/-
  Where the lines of a proof are kept.

  The store keeps the lines of a proof in two structures. The order lists their
  identities from the first line to the last, and the arena holds every line
  under its identity. Lines are reached by their positions through both: a
  position leads to an identity, and the identity to a line. An identity in the
  order without a line in the arena stops whoever looks for it.

  Rows, positions and citations are kept beside them, as a proof keeps them.
-/

import NaturalDeduction.Proof.Basic
import NaturalDeduction.Word.Trap

namespace NaturalDeduction

/-! ## The arena -/

/-- Lines under their identities. -/
abbrev Arena := List (LineId × Line)

namespace Arena

/-- The identities that a line is held under. -/
def ids (arena : Arena) : List LineId :=
  arena.map Prod.fst

/-- The line that is held under an identity, if there is one. -/
def line? (arena : Arena) (id : LineId) : Option Line :=
  arena.lookup id

/-- The line that is held under an identity. -/
def fetch (arena : Arena) (id : LineId) : Trapping Line :=
  match arena.line? id with
  | some line => .ok line
  | none => .error .outOfRange

/-- Holds a line under an identity, in place of the one before, if there was one. -/
def hold (id : LineId) (line : Line) : Arena → Arena
  | [] => [(id, line)]
  | (key, old) :: rest => if key = id then (id, line) :: rest else (key, old) :: hold id line rest

/-- Lets go of the line under an identity. -/
def release (id : LineId) (arena : Arena) : Arena :=
  arena.filter fun (key, _) => key ≠ id

/-- Holds lines under their own identities. -/
def holdAll (lines : List Line) (arena : Arena) : Arena :=
  lines.foldl (fun arena line => arena.hold line.id line) arena

/-- Lets go of the lines under identities. -/
def releaseAll (ids : List LineId) (arena : Arena) : Arena :=
  ids.foldl (fun arena id => arena.release id) arena

end Arena

/-! ## The store -/

/-- A proof as it is stored. All fields but the first two are those of the proof. -/
structure Store where
  order : List LineId
  arena : Arena
  layout : Layout
  positions : Positions
  citations : Citations
  goals : List Goal
  restriction : List Rule
  nextLine : LineId
  nextGoal : GoalId
  edits : Nat
  consulted : List CheckRequest
  now : Nat
  deriving DecidableEq, Repr

namespace Store

/-- A store without lines and goals. -/
def empty (restriction : List Rule) : Store where
  order := []
  arena := []
  layout := []
  positions := []
  citations := []
  goals := []
  restriction
  nextLine := 1
  nextGoal := 1
  edits := 0
  consulted := []
  now := 0

/-- A proof with the given lines and everything else from the store. -/
def around (store : Store) (lines : List Line) : Proof where
  lines
  layout := store.layout
  positions := store.positions
  citations := store.citations
  goals := store.goals
  restriction := store.restriction
  nextLine := store.nextLine
  nextGoal := store.nextGoal
  edits := store.edits
  consulted := store.consulted
  now := store.now

/-- The proof that is stored: its lines are fetched one after the other, in order. -/
def proof (store : Store) : Trapping Proof := do
  return store.around (← store.order.mapM store.arena.fetch)

/-- Puts the parts of a proof back. Every line goes where its identity says, and the order stays
as it is. -/
def putBack (store : Store) (proof : Proof) : Store where
  order := store.order
  arena := store.arena.holdAll proof.lines
  layout := proof.layout
  positions := proof.positions
  citations := proof.citations
  goals := proof.goals
  restriction := proof.restriction
  nextLine := proof.nextLine
  nextGoal := proof.nextGoal
  edits := proof.edits
  consulted := proof.consulted
  now := proof.now

end Store

end NaturalDeduction
