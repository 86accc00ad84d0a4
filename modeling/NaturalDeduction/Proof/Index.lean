/-
  Where lines stand, and who cites them.

  Beside its lines a proof keeps two tables keyed by identity: the position of
  every line, and the lines that cite it. Both are built afresh from the lines
  when lines move. When a single citation is added or taken back, only the
  entry of the cited line changes; a line that nobody cites has an empty entry
  or none.
-/

import NaturalDeduction.Proof.Ascending
import NaturalDeduction.Proof.Line

namespace NaturalDeduction

/-! ## Positions -/

/-- The position of every line. -/
abbrev Positions := List (LineId × Nat)

/-- The positions of the lines of a list. -/
def Positions.ofLines (lines : List Line) : Positions :=
  lines.mapIdx fun index line => (line.id, index)

/-! ## Citations -/

/-- For every cited line the lines that cite it, in ascending order. -/
abbrev Citations := List (LineId × List LineId)

namespace Citations

/-- The lines that cite a line. -/
def citing (citations : Citations) (id : LineId) : List LineId :=
  (citations.lookup id).getD []

/-- Changes the entry of a line, which is empty if there is none. -/
def alter (id : LineId) (change : List LineId → List LineId) : Citations → Citations
  | [] => [(id, change [])]
  | (key, ids) :: rest =>
    if key = id then (key, change ids) :: rest else (key, ids) :: alter id change rest

/-- Notes that a line cites a premise. -/
def add (premise line : LineId) : Citations → Citations :=
  alter premise (Ascending.insert line)

/-- Notes that a line no longer cites a premise. -/
def remove (premise line : LineId) : Citations → Citations :=
  alter premise fun ids => ids.filter (· ≠ line)

/-- The citations of the lines of a list. -/
def ofLines (lines : List Line) : Citations :=
  lines.foldl (fun citations line =>
    line.premises.foldl (fun noted premise => noted.add premise line.id) citations) []

end Citations

end NaturalDeduction
