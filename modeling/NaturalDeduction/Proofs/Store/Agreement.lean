/-
  Order, arena and tables agree.

  Whatever operations are tried on a store, none stops, and the structures that
  it keeps side by side go on agreeing: the order lists the identities that the
  arena holds lines under, positions invert the order, and rows and citations
  are those of the lines. The lines are those that work began with and those
  announced since, each with the row it was created with, and no identity was
  issued twice.
-/

import NaturalDeduction.Proofs.Store.Loaded
import NaturalDeduction.Proofs.Store.Simulation

namespace NaturalDeduction

/-! ## Lines by identity -/

/-- The arena is the lines, each under its identity, in some order. -/
theorem Arena.Holds.perm {arena : Arena} {order : List LineId} {lines : List Line}
    (h : arena.Holds order lines) : arena.Perm (lines.map fun line => (line.id, line)) := by
  have hids : (lines.map fun line => (line.id, line)).map Prod.fst = order := by
    rw [List.map_map, ← h.ids_eq]
    rfl
  refine (List.perm_ext_iff_of_nodup h.ids_nodup.of_map (hids ▸ h.order_nodup).of_map).2 ?_
  rintro ⟨id, line⟩
  rw [← lookup_eq_some_iff_mem h.ids_nodup, List.mem_map]
  constructor
  · intro hline
    obtain ⟨hmem, rfl⟩ := h.mem_of_line? hline
    exact ⟨line, hmem, rfl⟩
  · rintro ⟨other, hmem, heq⟩
    cases heq
    exact h.line?_eq line hmem

namespace Store

/-- The line that order and arena lead to from a position. -/
def lineAt? (store : Store) (index : Nat) : Option Line :=
  store.order[index]?.bind store.arena.line?

/-- A store whose structures agree, with rows that are well nested, citations that are allowed, and
goals numbered in order. -/
structure WellFormed (store : Store) : Prop where
  order_nodup : store.order.Nodup
  ids_nodup : store.arena.ids.Nodup
  mem_order_iff : ∀ id, id ∈ store.order ↔ id ∈ store.arena.ids
  id_eq : ∀ id line, store.arena.line? id = some line → line.id = id
  id_lt : ∀ id ∈ store.order, id < store.nextLine
  position_iff : ∀ id index,
    store.positions.lookup id = some index ↔ store.order[index]? = some id
  number_eq : ∀ index line, store.lineAt? index = some line → line.number = index
  row_eq : ∀ index : Nat, store.layout[index]? = (store.lineAt? index).map Line.row
  valid : store.layout.validate = .ok ()
  premise_accessible : ∀ index line, store.lineAt? index = some line → ∀ id ∈ line.premises,
    ∃ premise : Nat, store.order[premise]? = some id ∧
      store.layout.isAccessible premise index = true
  premises_ascending : ∀ index line, store.lineAt? index = some line →
    line.premises.Pairwise (· < ·)
  premises_eq_nil : ∀ index line, store.lineAt? index = some line → line.assumption = true →
    line.premises = []
  mem_citing : ∀ id citer, citer ∈ store.citations.citing id ↔
    ∃ line, store.arena.line? citer = some line ∧ id ∈ line.premises
  citing_ascending : ∀ id, (store.citations.citing id).Pairwise (· < ·)
  goalIds_nodup : (store.goals.map Goal.id).Nodup
  goalId_lt : ∀ goal ∈ store.goals, goal.id < store.nextGoal
  goalNumber_eq : ∀ (index : Nat) goal, store.goals[index]? = some goal → goal.number = index

/-- The lines that were there at the start and those announced since, with the rows they were
created with. -/
def created (start : Store) (events : List Event) : List (LineId × Row) :=
  (start.arena.map fun (id, line) => (id, line.row)) ++ events.filterMap Event.addedLine?

/-- The goals that were there at the start and those announced since. -/
def createdGoals (start : Store) (events : List Event) : List GoalId :=
  start.goals.map Goal.id ++ events.filterMap Event.addedGoal?

variable {store : Store} {p : Proof}

namespace Represents

/-! ## A store and its proof -/

theorem lineAt?_eq (h : store.Represents p) (index : Nat) :
    store.lineAt? index = p.lines[index]? := by
  rw [lineAt?, h.getElem?_order, Proof.lineId?]
  cases hline : p.lines[index]? with
  | none => rfl
  | some line => exact h.line?_eq_some hline

theorem line?_eq_some_iff (h : store.Represents p) {id : LineId} {line : Line} :
    store.arena.line? id = some line ↔ line ∈ p.lines ∧ line.id = id := by
  constructor
  · exact h.holds.mem_of_line?
  · rintro ⟨hmem, rfl⟩
    exact h.holds.line?_eq line hmem

/-- A store that represents a well-formed proof is well-formed. -/
theorem wellFormed (h : store.Represents p) (hp : p.WellFormed) : store.WellFormed := by
  have hfields := h.around_eq
  have hpositions : store.positions = p.positions := congrArg Proof.positions hfields
  have hlayout := h.layout_eq
  have hcitations : store.citations = p.citations := congrArg Proof.citations hfields
  have hgoals : store.goals = p.goals := congrArg Proof.goals hfields
  have hnextLine : store.nextLine = p.nextLine := congrArg Proof.nextLine hfields
  have hnextGoal : store.nextGoal = p.nextGoal := congrArg Proof.nextGoal hfields
  have hmem : ∀ {index : Nat} {line : Line}, store.lineAt? index = some line → line ∈ p.lines :=
    fun hline => List.mem_of_getElem? (h.lineAt?_eq _ ▸ hline)
  refine ⟨h.holds.order_nodup, h.holds.ids_nodup, fun id => (h.holds.mem_iff id).symm, ?_, ?_, ?_,
    ?_, ?_, hlayout ▸ hp.valid, ?_, ?_, ?_, ?_, ?_, hgoals ▸ hp.goalIds_nodup, ?_, ?_⟩
  · exact fun id line hline => (h.holds.mem_of_line? hline).2
  · intro id hid
    rw [← h.holds.ids_eq] at hid
    obtain ⟨line, hline, rfl⟩ := List.mem_map.1 hid
    exact hnextLine ▸ hp.id_lt line hline
  · intro id index
    rw [hpositions, h.getElem?_order]
    exact hp.position_iff id index
  · intro index line hline
    exact hp.number_eq index line (h.lineAt?_eq index ▸ hline)
  · intro index
    rw [h.lineAt?_eq, hlayout, hp.layout_eq, List.getElem?_map]
  · intro index line hline id hid
    obtain ⟨premise, hpremise, haccessible⟩ :=
      hp.premise_accessible index line (h.lineAt?_eq index ▸ hline) id hid
    refine ⟨premise, ?_, hlayout ▸ haccessible⟩
    rw [h.getElem?_order]
    exact (hp.position_iff id premise).1 hpremise
  · exact fun index line hline => hp.premises_ascending line (hmem hline)
  · exact fun index line hline => hp.premises_eq_nil (hmem hline)
  · intro id citer
    simp only [h.line?_eq_some_iff, hcitations, and_assoc]
    exact hp.mem_citing id citer
  · intro id
    rw [hcitations]
    exact hp.citing_ascending id
  · rw [hgoals, hnextGoal]
    exact hp.goalId_lt
  · rw [hgoals]
    exact hp.goalNumber_eq

/-- What was created is the same, up to the order in which the arena holds it. -/
theorem created_perm (h : store.Represents p) (events : List Event) :
    (store.created events).Perm (p.created events) := by
  have hentries := h.holds.perm.map fun (entry : LineId × Line) => (entry.1, entry.2.row)
  rw [List.map_map] at hentries
  exact hentries.append_right _

theorem createdGoals_eq (h : store.Represents p) (events : List Event) :
    store.createdGoals events = p.createdGoals events := by
  rw [← h.around_eq]
  rfl

end Represents

/-! ## Every state -/

/-- What work begins with represents a proof that work begins with. -/
theorem Origin.exists_store_eq_ok {origin : Origin} (h : origin.Accepted) :
    ∃ start p, origin.store = .ok (.ok start) ∧ Proof.Initial p ∧ start.Represents p := by
  cases origin with
  | blank restriction => exact ⟨_, .new restriction, rfl, .new restriction, .intro [] .empty⟩
  | loaded document =>
    have hloaded := Proof.ofDocument_eq_ok_iff.2 ⟨h, rfl⟩
    obtain ⟨start, hstart, hrepresents⟩ := ofDocument_eq_ok hloaded
    exact ⟨start, _, hstart, .loaded hloaded, hrepresents⟩

/-- Whatever operations are tried, none stops, and they lead to a well-formed store, in which order
and arena hold what the operations make of the proof that was stored. Its lines and goals are among
those that work began with and those that were announced since, every line with the level and the
assumption flag it was created with, and no identity was issued twice. -/
theorem wellFormed_run (setting : Setting) (operations : List Operation) {origin : Origin}
    (h : origin.Accepted) :
    ∃ start store events p, origin.store = .ok (.ok start) ∧
      start.run setting operations = .ok (store, events) ∧ store.WellFormed ∧
      start.proof = .ok p ∧ store.proof = .ok (p.run setting operations).1 ∧
      events = (p.run setting operations).2 ∧
      (∀ index line, store.lineAt? index = some line →
        (line.id, line.row) ∈ start.created events) ∧
      ((start.created events).map Prod.fst).Nodup ∧
      (∀ goal ∈ store.goals, goal.id ∈ start.createdGoals events) ∧
      (start.createdGoals events).Nodup := by
  obtain ⟨start, p, hstart, hinitial, hbegin⟩ := Origin.exists_store_eq_ok h
  have hwell := Proof.WellFormed.initial hinitial
  obtain ⟨hp, hissues⟩ := hwell.run setting operations
  obtain ⟨store, hrun, hstore⟩ := run_eq_ok hbegin hwell setting operations
  have hcreated := hbegin.created_perm (p.run setting operations).2
  refine ⟨start, store, _, p, hstart, hrun, hstore.wellFormed hp, hbegin.proof_eq, hstore.proof_eq,
    rfl, fun index line hline => ?_, ?_, fun goal hgoal => ?_, ?_⟩
  · rw [hstore.lineAt?_eq] at hline
    exact hcreated.mem_iff.2
      (hissues.entries_subset (List.mem_map.2 ⟨line, List.mem_of_getElem? hline, rfl⟩))
  · exact (hcreated.map Prod.fst).nodup_iff.2 (hwell.nodup_created hissues)
  · rw [hbegin.createdGoals_eq]
    rw [show store.goals = _ from congrArg Proof.goals hstore.around_eq] at hgoal
    exact hissues.goals_subset (List.mem_map.2 ⟨goal, hgoal, rfl⟩)
  · rw [hbegin.createdGoals_eq]
    exact hwell.nodup_createdGoals hissues

/-- A premise and a line that cites it are added, and the premise is deleted. -/
theorem wellFormed_run_delete : (Origin.blank []).Accepted ∧
    ∃ store events,
      (new []).run {} [.addPremise, .addLine 1 ⟨0, false⟩, .togglePremise 1 0, .delete 0] =
        .ok (store, events) ∧ store.WellFormed ∧
      store.order = [2] ∧ store.arena.ids = [2] ∧
      (∀ index line, store.lineAt? index = some line →
        (line.id, line.row) ∈ (new []).created events) ∧
      (new []).created events = [(1, ⟨0, true⟩), (2, ⟨0, false⟩)] ∧
      (new []).createdGoals events = [1] := by
  have haccepted : (Origin.blank []).Accepted := trivial
  obtain ⟨start, store, events, p, hstart, hrun, hwell, -, -, -, hrows, -⟩ := wellFormed_run {}
    [.addPremise, .addLine 1 ⟨0, false⟩, .togglePremise 1 0, .delete 0] haccepted
  cases hstart
  have hcomputed : ((new []).run {} [.addPremise, .addLine 1 ⟨0, false⟩, .togglePremise 1 0,
      .delete 0]).map (fun last => (last.1.order, last.1.arena.ids,
        (new []).created last.2, (new []).createdGoals last.2)) =
      .ok ([2], [2], [(1, ⟨0, true⟩), (2, ⟨0, false⟩)], [1]) := by
    decide +kernel
  rw [hrun] at hcomputed
  injection hcomputed with hcomputed
  simp only [Prod.mk.injEq] at hcomputed
  obtain ⟨horder, hids, hcreated, hgoals⟩ := hcomputed
  exact ⟨haccepted, store, events, hrun, hwell, horder, hids, hrows, hcreated, hgoals⟩

end Store

end NaturalDeduction
