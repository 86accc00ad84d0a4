/-
  Operations on the store.

  An edit of the structure works on the order and the arena by itself: it puts
  an identity into the one and a line into the other, or takes both out again,
  and then visits every line in order to settle it at its place. Every other
  operation reaches lines through the order and changes them where they are, so
  it is an operation on the proof that is stored, the parts of which are put
  back. Look-ups that find nothing stop an operation, and so do a debug
  assertion that does not hold and an index beyond the end.
-/

import NaturalDeduction.Proof.Operation
import NaturalDeduction.Store.Arena

namespace NaturalDeduction.Store

open Trapping

/-- The result of an operation: its answer, the store afterwards, and what was announced. -/
structure Outcome (α : Type) where
  answer : α
  store : Store
  events : List Event

/-- What comes of an operation that may be refused. -/
abbrev Attempt (α : Type) := Except StructureError (Outcome α)

/-- Counts an edit. -/
def edited {α : Type} (outcome : Outcome α) : Outcome α :=
  { outcome with store := { outcome.store with edits := outcome.store.edits + 1 } }

/-! ## Settling lines -/

/-- The lines of every subproof, keyed by the line that opens it. -/
def subproofs (store : Store) : Trapping (List (LineId × List LineId)) := do
  let openers ← filter (fun index => Row.opensSubproof <$> lookUp store.layout index)
    (List.range store.order.length)
  openers.mapM fun index => do
    let opener ← lookUp store.order index
    return (opener, ← (store.layout.subproofRange index).mapM (lookUp store.order))

/-- Settles a line at a position, given the positions and rows of all lines: it is moved there, and
the citations that are not allowed there are dropped. -/
def settle (positions : Positions) (rows : Layout) (index : Nat) (line : Line) :
    Line × List Event :=
  let (moved, events) := line.setNumber index
  let kept := line.premises.filter fun id =>
    (positions.lookup id).any (rows.isAccessible · index)
  if kept = line.premises then (moved, events)
  else
    let (cut, more) := moved.setPremises kept
    let (invalid, last) := cut.invalidate
    (invalid, events ++ more ++ last)

/-- Visits the lines with the identities, the first of which stands at the given position. Each one
is settled where the arena holds it, and noted with the lines that it cites from there on. -/
def settleEach (positions : Positions) (rows : Layout) : Nat → List LineId → Arena → Citations →
    Trapping (Arena × Citations × List Event)
  | _, [], arena, citations => .ok (arena, citations, [])
  | index, id :: ids, arena, citations => do
    let line ← arena.fetch id
    let (settled, events) := settle positions rows index line
    let noted := settled.premises.foldl (fun noted premise => noted.add premise id) citations
    let (arena, citations, more) ←
      settleEach positions rows (index + 1) ids (arena.hold id settled) noted
    return (arena, citations, events ++ more)

/-- Installs rows, and builds positions and citations afresh. -/
def relayout (rows : Layout) (store : Store) : Trapping (Store × List Event) := do
  require (rows.length == store.order.length)
  let positions := store.order.mapIdx fun index id => (id, index)
  let (arena, citations, events) ← settleEach positions rows 0 store.order store.arena []
  return ({ store with arena, layout := rows, positions, citations }, events)

/-- Invalidates the lines that the arena holds under the identities. -/
def invalidateEach : List LineId → Store → Store × List Event
  | [], store => (store, [])
  | id :: ids, store =>
    match store.arena.line? id with
    | none => invalidateEach ids store
    | some line =>
      let (changed, events) := line.invalidate
      let (last, more) := invalidateEach ids { store with arena := store.arena.hold id changed }
      (last, events ++ more)

/-- Invalidates the lines that cite a subproof which has other lines than it had before. -/
def invalidateReshaped (before : List (LineId × List LineId)) (store : Store) :
    Trapping (Store × List Event) := do
  let reshaped := (← store.subproofs).filter fun (opener, lines) =>
    before.lookup opener != some lines
  return invalidateEach (reshaped.flatMap fun (opener, _) => store.citations.citing opener) store

/-- Drops the marks of all goals. -/
def resetGoals (store : Store) : Store × List Event :=
  let (goals, events) := noting Goal.reset store.goals
  ({ store with goals }, events)

/-- Settles a store after its lines were rearranged, given the subproofs as they were before and the
rows as they are now. -/
def rearranged (before : List (LineId × List LineId)) (rows : Layout) (store : Store) :
    Trapping (Store × List Event) := do
  let (laid, events) ← store.relayout rows
  let (stale, more) ← laid.invalidateReshaped before
  let (settled, last) := stale.resetGoals
  return (settled, events ++ more ++ last)

/-! ## Adding and removing lines -/

/-- Accepts the index of a line. -/
def checkLine (store : Store) (index : Nat) : Except StructureError Unit :=
  if index < store.order.length then .ok ()
  else .error (.indexOutOfBounds index store.order.length)

/-- Adds a blank line at a position, given the rows with the one that it gets. -/
def insertValid (store : Store) (index : Nat) (rows : Layout) : Trapping (Outcome LineId) := do
  let before ← store.subproofs
  let row ← lookUp rows index
  let id := store.nextLine
  let arena := store.arena.hold id (Line.new id index row)
  let order ← insertAt store.order index id
  let (settled, events) ←
    { store with order, arena, nextLine := id + 1 }.rearranged before rows
  return ⟨id, settled, .lineAdded id index row.level row.assumption :: events⟩

/-- Adds a blank line at a position, if the position exists and the row fits there. -/
def insert (store : Store) (index : Nat) (row : Row) : Trapping (Attempt LineId) := do
  if store.order.length < index then
    return .error (.indexOutOfBounds index store.order.length)
  let rows ← insertAt store.layout index row
  match Layout.validate rows with
  | .error reason => return .error reason
  | .ok () => return .ok (edited (← store.insertValid index rows))

/-- Adds a premise after the existing ones. -/
def addPremise (store : Store) : Trapping (Outcome LineId) := do
  let index := store.layout.premiseCount
  let rows ← insertAt store.layout index ⟨0, true⟩
  require (Layout.validate rows).isOk
  return edited (← store.insertValid index rows)

/-- Opens a subproof one level below a line, right after it but never among the premises. -/
def startSubproof (store : Store) (index : Nat) : Trapping (Attempt LineId) := do
  match store.checkLine index with
  | .error reason => return .error reason
  | .ok () =>
    let row ← lookUp store.layout index
    store.insert (max (index + 1) store.layout.premiseCount) ⟨row.level + 1, true⟩

/-- Adds a line one level up, right after the innermost subproof of a line. -/
def endSubproof (store : Store) (index : Nat) : Trapping (Attempt LineId) := do
  match store.checkLine index with
  | .error reason => return .error reason
  | .ok () =>
    match store.layout.enclosingEnd index with
    | .error reason => return .error reason
    | .ok position =>
      let row ← lookUp store.layout index
      store.insert position ⟨← difference row.level 1, false⟩

/-- Removes a line, or its whole subproof if it opens one. The answer is what was removed. -/
def delete (store : Store) (index : Nat) : Trapping (Attempt (List LineId)) := do
  match store.checkLine index with
  | .error reason => return .error reason
  | .ok () =>
    let stop := index + (store.layout.subproofRange index).length
    let (_, rows) ← drain store.layout index stop
    match Layout.validate rows with
    | .error reason => return .error reason
    | .ok () =>
      let before ← store.subproofs
      let (removed, order) ← drain store.order index stop
      let arena := store.arena.releaseAll removed
      let citations := store.citations.filter fun (id, _) => !removed.contains id
      let (settled, events) ← { store with order, arena, citations }.rearranged before rows
      return .ok (edited ⟨removed, settled, removed.map .lineRemoved ++ events⟩)

/-! ## Operations -/

/-- Carries out an operation that changes lines where they are. -/
def inPlace {α : Type} (operate : Proof → Proof.Attempt (NaturalDeduction.Outcome α))
    (store : Store) : Trapping (Attempt α) := do
  match operate (← store.proof) with
  | .error reason => return .error reason
  | .ok outcome => return .ok ⟨outcome.answer, store.putBack outcome.proof, outcome.events⟩

/-- Changes the answer of an outcome. -/
def Outcome.map {α β : Type} (f : α → β) (outcome : Outcome α) : Outcome β :=
  ⟨f outcome.answer, outcome.store, outcome.events⟩

/-- Carries out an operation, unless it is refused. -/
def perform (setting : Setting) (store : Store) : Operation → Trapping (Attempt Reply)
  | .addPremise => return .ok ((← store.addPremise).map .line)
  | .addLine index row => return (← store.insert index row).map (Outcome.map .line)
  | .startSubproof index => return (← store.startSubproof index).map (Outcome.map .line)
  | .endSubproof index => return (← store.endSubproof index).map (Outcome.map .line)
  | .delete index => return (← store.delete index).map (Outcome.map .removed)
  | operation => store.inPlace fun proof => proof.perform setting operation

/-- The store after an operation was tried, and what was announced. -/
def attempt (setting : Setting) (store : Store) (operation : Operation) :
    Trapping (Store × List Event) := do
  match ← store.perform setting operation with
  | .error _ => return (store, [])
  | .ok outcome => return (outcome.store, outcome.events)

/-- Tries operations one after the other. -/
def run (setting : Setting) : Store → List Operation → Trapping (Store × List Event)
  | store, [] => .ok (store, [])
  | store, operation :: operations => do
    let (next, events) ← store.attempt setting operation
    let (last, more) ← run setting next operations
    return (last, events ++ more)

/-! ## Where work begins -/

/-- An empty store with one blank goal. -/
def new (restriction : List Rule) : Store :=
  { empty (Rule.setOf restriction) with goals := [Goal.new 1 0], nextGoal := 2 }

/-- Puts the lines that records describe behind the others, still without their citations. -/
def appendEach : List LineRecord → Store → Store
  | [], store => store
  | record :: records, store =>
    let id := store.nextLine
    let blank := Line.new id store.order.length ⟨record.depth, record.assumption⟩
    let line := ((blank.setText record.text).1.setRule record.rule?).1
    appendEach records { store with
      order := store.order ++ [id]
      arena := store.arena.hold id line
      nextLine := id + 1 }

/-- Puts the citations of records into the lines, the first of which stands at a position. -/
def citeEach : Nat → List LineRecord → Store → Trapping Store
  | _, [], store => .ok store
  | index, record :: records, store => do
    let premises ← record.premises.mapM (lookUp store.order)
    let id ← lookUp store.order index
    let line ← store.arena.fetch id
    let citing := (line.setPremises (Ascending.ofList premises)).1
    citeEach (index + 1) records { store with arena := store.arena.hold id citing }

/-- Puts goals with the texts behind the others. -/
def appendGoals : List String → Store → Store
  | [], store => store
  | text :: texts, store =>
    let id := store.nextGoal
    let goal := ((Goal.new id store.goals.length).setText text).1
    appendGoals texts { store with goals := store.goals ++ [goal], nextGoal := id + 1 }

/-- The store of the proof that a valid document describes. Nothing in it is verified. -/
def ofDocument (document : Document) : Trapping (Except DocumentError Store) := do
  match document.validate with
  | .error error => return .error error
  | .ok () =>
    let appended := appendEach document.lines (empty document.restriction)
    let cited ← citeEach 0 document.lines appended
    let (laid, _) ← cited.relayout document.layout
    return .ok (appendGoals document.goals laid)

/-- What work begins with: nothing, or a document. -/
inductive Origin where
  | blank (restriction : List Rule)
  | loaded (document : Document)

namespace Origin

/-- Whether work can begin. -/
def Accepted : Origin → Prop
  | .blank _ => True
  | .loaded document => document.validate = .ok ()

/-- The store that work begins with. -/
def store : Origin → Trapping (Except DocumentError Store)
  | .blank restriction => .ok (.ok (new restriction))
  | .loaded document => ofDocument document

end Origin

end NaturalDeduction.Store
