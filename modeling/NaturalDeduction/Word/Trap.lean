/-
  Computations that may trap.

  Counters and indices are words of 64 bits, and lists are looked up by index. A
  sum that does not fit a word, a difference below zero, a look-up beyond the
  end and an assertion that does not hold stop a computation for good.
-/

namespace NaturalDeduction

/-! ## Words -/

namespace Word

/-- One more than the largest number of so many bits. -/
def limit (bits : Nat) : Nat := Nat.pow 2 bits

theorem limit_pos (bits : Nat) : 0 < limit bits := Nat.pow_pos (by decide)

end Word

/-! ## Traps -/

/-- What stops a computation. -/
inductive Trap where
  | overflow
  | underflow
  | outOfRange
  | assertion
  deriving DecidableEq, Repr

/-- The outcome of a computation that may trap. -/
abbrev Trapping := Except Trap

namespace Trapping

/-! ## Single steps -/

/-- The sum of two words. -/
def sum (a b : Nat) : Trapping Nat :=
  if a + b < Word.limit 64 then .ok (a + b) else .error .overflow

/-- The difference of two words. -/
def difference (a b : Nat) : Trapping Nat :=
  if b ≤ a then .ok (a - b) else .error .underflow

/-- The element at an index. -/
def lookUp {α : Type} (as : List α) (index : Nat) : Trapping α :=
  match as[index]? with
  | some a => .ok a
  | none => .error .outOfRange

/-- The list with a change of the element at an index. -/
def replace {α : Type} (as : List α) (index : Nat) (change : α → α) : Trapping (List α) :=
  if index < as.length then .ok (as.modify index change) else .error .outOfRange

/-- The list with an element put in at an index. -/
def insertAt {α : Type} (as : List α) (index : Nat) (a : α) : Trapping (List α) :=
  if index ≤ as.length then .ok (as.insertIdx index a) else .error .outOfRange

/-- The elements from an index up to another one, and the list without them. -/
def drain {α : Type} (as : List α) (start stop : Nat) : Trapping (List α × List α) :=
  if start ≤ stop ∧ stop ≤ as.length then
    .ok ((as.take stop).drop start, as.take start ++ as.drop stop)
  else .error .outOfRange

/-- Goes on where a condition holds. -/
def require (condition : Bool) : Trapping Unit :=
  if condition then .ok () else .error .assertion

/-! ## Lists -/

/-- The elements that a test accepts, in order. -/
def filter {α : Type} (test : α → Trapping Bool) : List α → Trapping (List α)
  | [] => .ok []
  | a :: as => do
    let accepted ← test a
    let others ← filter test as
    return if accepted then a :: others else others

/-- The first element that a test accepts. -/
def find? {α : Type} (test : α → Trapping Bool) : List α → Trapping (Option α)
  | [] => .ok none
  | a :: as => do
    if ← test a then return some a
    find? test as

/-- The values of the elements in order, up to the first one without a value. -/
def collect {α β ε : Type} (value : α → Trapping (Except ε β)) :
    List α → Trapping (Except ε (List β))
  | [] => .ok (.ok [])
  | a :: as => do
    match ← value a with
    | .error reason => return .error reason
    | .ok b => return (← collect value as).map (b :: ·)

/-! ## Numbers in texts -/

/-- The text of a wording in which rows are counted from 1, given the rows that it shows. A row
that has no number stops it. -/
def numbered (rows : List Nat) (wording : (Nat → Nat) → String) : Trapping String := do
  let _ ← rows.mapM fun row => sum row 1
  return wording (· + 1)

end Trapping

end NaturalDeduction
