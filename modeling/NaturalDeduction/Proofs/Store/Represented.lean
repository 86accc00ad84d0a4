/-
  The stored proof under rearrangement.

  A store represents a proof when its arena holds the lines of the proof under
  the identities in its order, and everything else is the same. The operations
  that visit lines by identity then go through, look-ups included, and leave a
  store that represents what the same operation makes of the proof.
-/

import NaturalDeduction.Proofs.Layout.BlockTable
import NaturalDeduction.Proofs.Layout.Edit
import NaturalDeduction.Proofs.Store.Arena
import NaturalDeduction.Store.Edit

namespace NaturalDeduction.Store

open Trapping

variable {store : Store} {p : Proof} {arena : Arena} {lines : List Line} {positions : Positions}
  {rows : Layout}

/-- The store holds the lines of the proof, and the rest of it as it is. -/
inductive Represents (store : Store) : Proof → Prop where
  | intro (lines : List Line) (h : store.arena.Holds store.order lines) :
    Represents store (store.around lines)

theorem Represents.holds (h : store.Represents p) : store.arena.Holds store.order p.lines := by
  cases h with
  | intro lines h => exact h

theorem Represents.around_eq (h : store.Represents p) : store.around p.lines = p := by
  cases h with
  | intro lines h => rfl

theorem Represents.proof_eq (h : store.Represents p) : store.proof = .ok p := by
  rw [proof, h.holds.mapM_fetch]
  exact congrArg Except.ok h.around_eq

theorem Represents.length_order (h : store.Represents p) : store.order.length = p.lines.length :=
  h.holds.length_eq.symm

theorem Represents.getElem?_order (h : store.Represents p) (index : Nat) :
    store.order[index]? = p.lineId? index :=
  h.holds.getElem?_order index

theorem Represents.layout_eq (h : store.Represents p) : store.layout = p.layout :=
  congrArg Proof.layout h.around_eq

/-! ## Settling lines -/

@[simp] theorem id_settle (positions : Positions) (rows : Layout) (index : Nat) (line : Line) :
    (settle positions rows index line).1.id = line.id :=
  Proof.id_place { Proof.new [] with positions, layout := rows } index line

/-- The lines, the first of which stands at a position, settled there. -/
def settledFrom (positions : Positions) (rows : Layout) (index : Nat) (lines : List Line) :
    List Line :=
  (lines.zipIdx index).map fun (line, index) => (settle positions rows index line).1

theorem ids_settledFrom (positions : Positions) (rows : Layout) (index : Nat) (lines : List Line) :
    (settledFrom positions rows index lines).map Line.id = lines.map Line.id := by
  induction lines generalizing index with
  | nil => rfl
  | cons line lines ih =>
    have hothers := ih (index + 1)
    rw [settledFrom] at hothers
    rw [settledFrom, List.zipIdx_cons, List.map_cons, List.map_cons, List.map_cons, hothers,
      id_settle]

/-- Each line is found when its turn comes, since only lines before it have been replaced. -/
theorem settleEach_eq_ok (positions : Positions) (rows : Layout) (index : Nat)
    (citations : Citations) (hnodup : (lines.map Line.id).Nodup)
    (hlines : ∀ line ∈ lines, arena.line? line.id = some line) :
    settleEach positions rows index (lines.map Line.id) arena citations =
      .ok (arena.holdAll (settledFrom positions rows index lines),
        (settledFrom positions rows index lines).foldl (fun noted line =>
          line.premises.foldl (fun noted premise => noted.add premise line.id) noted) citations,
        (lines.zipIdx index).flatMap fun (line, index) =>
          (settle positions rows index line).2) := by
  -- The induction is on the lines still to come. The arena changes under it, but not for them.
  induction lines generalizing index arena citations with
  | nil => rfl
  | cons line lines ih =>
    obtain ⟨hnot, hnodup⟩ := List.nodup_cons.1 hnodup
    obtain ⟨hfirst, hothers⟩ := List.forall_mem_cons.1 hlines
    have hfetch : arena.fetch line.id = .ok line := by rw [Arena.fetch, hfirst]
    have hrest : ∀ other ∈ lines, (arena.hold line.id (settle positions rows index line).1).line?
        other.id = some other := by
      intro other hother
      have hne : other.id ≠ line.id := fun heq => hnot (heq ▸ List.mem_map_of_mem hother)
      rw [Arena.line?_hold_of_ne arena _ hne]
      exact hothers other hother
    rw [List.map_cons, settleEach, hfetch]
    simp only [bind, Except.bind, ih _ _ hnodup hrest]
    simp only [settledFrom, List.zipIdx_cons, List.map_cons, List.flatMap_cons, Arena.holdAll,
      List.foldl_cons, id_settle]
    rfl

theorem positions_eq_ofLines (lines : List Line) :
    (lines.map Line.id).mapIdx (fun index id => (id, index)) = Positions.ofLines lines := by
  apply List.ext_getElem?
  intro i
  cases h : lines[i]? <;> simp [Positions.ofLines, h]

/-- The store with its lines settled in rows, and with the tables of these lines. -/
def laid (store : Store) (rows : Layout) (lines : List Line) : Store :=
  let settled := settledFrom (.ofLines lines) rows 0 lines
  { store with
    arena := store.arena.holdAll settled
    layout := rows
    positions := .ofLines lines
    citations := .ofLines settled }

theorem placeAll_around (store : Store) (rows : Layout) (lines : List Line) :
    ((store.around lines).placeAll rows).1 =
      (store.laid rows lines).around (settledFrom (.ofLines lines) rows 0 lines) := by
  simp only [Proof.placeAll, noting_fst, List.map_map]
  rfl

/-- All lines are settled, and the tables are built afresh. -/
theorem relayout_eq_ok (h : store.Represents p) (hrows : rows.length = p.lines.length) :
    ∃ after, store.relayout rows = .ok (after, (p.placeAll rows).2) ∧
      after.Represents (p.placeAll rows).1 := by
  cases h with
  | intro lines h =>
    have hlength : (rows.length == store.order.length) = true :=
      beq_iff_eq.2 (hrows.trans h.length_eq)
    have hpositions : store.order.mapIdx (fun index id => (id, index)) =
        Positions.ofLines lines := by
      rw [← h.ids_eq, positions_eq_ofLines]
    have hsettled := settleEach_eq_ok (.ofLines lines) rows 0 [] (h.ids_eq ▸ h.order_nodup)
      h.line?_eq
    rw [h.ids_eq] at hsettled
    refine ⟨store.laid rows lines, ?_, ?_⟩
    · rw [relayout, require_eq_ok hlength, hpositions]
      simp only [bind, Except.bind, hsettled, Proof.placeAll, noting_snd]
      rfl
    · rw [placeAll_around]
      exact .intro _ (h.holdAll ((ids_settledFrom _ _ _ _).trans h.ids_eq))

/-! ## Invalidating lines -/

/-- Where lines stand by their identities. -/
def Indexed (p : Proof) : Prop :=
  ∀ id index, p.position? id = some index ↔ p.lineId? index = some id

theorem indexed_placeAll (hids : (p.lines.map Line.id).Nodup) (rows : Layout) :
    Indexed (p.placeAll rows).1 := by
  intro id index
  have hid : (p.placeAll rows).1.lineId? = p.lineId? :=
    Proof.lineId?_congr (Proof.map_lines_placeAll fun _ _ => Proof.id_place _ _ _)
  rw [hid]
  exact Positions.lookup_ofLines hids

theorem Represents.line?_eq_none (h : store.Represents p) (hp : Indexed p) {id : LineId}
    (hid : p.position? id = none) : store.arena.line? id = none := by
  cases hline : store.arena.line? id with
  | none => rfl
  | some line =>
    obtain ⟨hmem, rfl⟩ := h.holds.mem_of_line? hline
    obtain ⟨index, hindex⟩ := List.mem_iff_getElem?.1 hmem
    have hat : p.lineId? index = some line.id := congrArg (·.map Line.id) hindex
    cases hid.symm.trans ((hp line.id index).2 hat)

theorem Represents.line?_eq_some (h : store.Represents p) {index : Nat} {line : Line}
    (hline : p.lines[index]? = some line) : store.arena.line? line.id = some line :=
  h.holds.line?_eq line (List.mem_of_getElem? hline)

/-- A line is replaced by one with its identity. -/
theorem Represents.hold (h : store.Represents p) {index : Nat} {old line : Line}
    (hold : p.lines[index]? = some old) (hid : line.id = old.id) :
    Represents { store with arena := store.arena.hold old.id line }
      { p with lines := p.lines.set index line } := by
  cases h with
  | intro lines h => exact .intro (lines.set index line) (h.hold hold hid)

theorem invalidateEach_eq (ids : List LineId) (h : store.Represents p) (hp : Indexed p) :
    (invalidateEach ids store).2 = (p.invalidateEach ids).2 ∧
      (invalidateEach ids store).1.Represents (p.invalidateEach ids).1 := by
  induction ids generalizing store p with
  | nil => exact ⟨rfl, h⟩
  | cons id ids ih =>
    rw [invalidateEach, Proof.invalidateEach, Proof.notingLine]
    cases hposition : p.position? id with
    | none =>
      rw [h.line?_eq_none hp hposition]
      exact ih h hp
    | some index =>
      obtain ⟨line, hline, rfl⟩ := Option.map_eq_some_iff.1 ((hp id index).1 hposition)
      rw [h.line?_eq_some hline]
      simp only [notingAt, hline]
      have hid : line.invalidate.1.id = line.id := rfl
      have hids : (p.lines.set index line.invalidate.1).map Line.id = p.lines.map Line.id :=
        Proof.map_set_eq hline hid
      have hindexed : Indexed { p with lines := p.lines.set index line.invalidate.1 } := by
        intro other at'
        rw [Proof.lineId?_congr hids]
        exact hp other at'
      obtain ⟨hevents, hafter⟩ := ih (h.hold hline hid) hindexed
      exact ⟨congrArg (line.invalidate.2 ++ ·) hevents, hafter⟩

/-! ## Subproofs -/

theorem Represents.lookUp_order (h : store.Represents p) {index : Nat}
    (hindex : index < p.lines.length) : ∃ id, p.lineId? index = some id ∧
      lookUp store.order index = .ok id := by
  have hat : p.lineId? index = some (p.lines[index]).id := by
    rw [Proof.lineId?, List.getElem?_eq_getElem hindex]
    rfl
  exact ⟨_, hat, lookUp_eq_ok ((h.getElem?_order index).trans hat)⟩

theorem Represents.mapM_lookUp_order (h : store.Represents p) {indices : List Nat}
    (hindices : ∀ index ∈ indices, index < p.lines.length) :
    indices.mapM (lookUp store.order) = .ok (indices.filterMap p.lineId?) := by
  induction indices with
  | nil => rfl
  | cons index indices ih =>
    obtain ⟨hfirst, hothers⟩ := List.forall_mem_cons.1 hindices
    obtain ⟨id, hid, hlook⟩ := h.lookUp_order hfirst
    rw [List.mapM_cons, hlook, ih hothers, List.filterMap_cons, hid]
    rfl

theorem subproofs_eq_ok (h : store.Represents p) (hlength : p.layout.length = p.lines.length) :
    store.subproofs = .ok p.subproofs := by
  have hopeners : filter (fun index => Row.opensSubproof <$> lookUp store.layout index)
      (List.range store.order.length) =
        .ok ((List.range p.lines.length).filter p.layout.opens) := by
    rw [h.length_order, h.layout_eq]
    refine filter_eq_ok fun index hindex => ?_
    have hrow := List.getElem?_eq_getElem (hlength ▸ List.mem_range.1 hindex)
    rw [lookUp_eq_ok hrow, Layout.opens, hrow]
    rfl
  rw [subproofs, hopeners, Proof.subproofs]
  -- Each opener has an identity, and so have the lines of its subproof.
  generalize hindices : (List.range p.lines.length).filter p.layout.opens = indices
  have hlt : ∀ index ∈ indices, index < p.lines.length := by
    rintro index hindex
    rw [← hindices] at hindex
    exact List.mem_range.1 (List.mem_of_mem_filter hindex)
  clear hindices hopeners
  induction indices with
  | nil => rfl
  | cons index indices ih =>
    obtain ⟨hfirst, hothers⟩ := List.forall_mem_cons.1 hlt
    obtain ⟨id, hid, hlook⟩ := h.lookUp_order hfirst
    have hrange : ∀ other ∈ p.layout.subproofRange index, other < p.lines.length := by
      intro other hother
      rw [← hlength] at hfirst ⊢
      exact Layout.lt_length_of_mem_subproofRange hfirst hother
    have hlines := h.mapM_lookUp_order hrange
    have hrest := ih hothers
    simp only [bind, Except.bind, h.layout_eq] at hrest ⊢
    rw [List.mapM_cons, hlook, List.filterMap_cons, hid]
    simp only [bind, Except.bind, hlines, hrest]
    rfl

theorem invalidateReshaped_eq_ok (before : List (LineId × List LineId)) (h : store.Represents p)
    (hp : Indexed p) (hlength : p.layout.length = p.lines.length) :
    ∃ after, store.invalidateReshaped before =
        .ok (after, (p.invalidateEach (p.citingReshaped before)).2) ∧
      after.Represents (p.invalidateEach (p.citingReshaped before)).1 := by
  have hciting : store.citations = p.citations := congrArg Proof.citations h.around_eq
  obtain ⟨hevents, hafter⟩ := invalidateEach_eq (p.citingReshaped before) h hp
  refine ⟨_, ?_, hafter⟩
  rw [invalidateReshaped, subproofs_eq_ok h hlength, ← hevents, hciting]
  rfl

theorem resetGoals_eq (h : store.Represents p) : store.resetGoals.2 = p.resetGoals.2 ∧
    store.resetGoals.1.Represents p.resetGoals.1 := by
  cases h with
  | intro lines h => exact ⟨rfl, .intro lines h⟩

/-- Settling a store after its lines were rearranged goes through. -/
theorem rearranged_eq_ok (before : List (LineId × List LineId)) (h : store.Represents p)
    (hrows : rows.length = p.lines.length) :
    ∃ after, store.rearranged before rows = .ok (after, (p.rearranged before rows).2) ∧
      after.Represents (p.rearranged before rows).1 := by
  have hids : (p.lines.map Line.id).Nodup := h.holds.ids_eq ▸ h.holds.order_nodup
  obtain ⟨laid, hlaid, hplaced⟩ := relayout_eq_ok h hrows
  have hlength : (p.placeAll rows).1.layout.length = (p.placeAll rows).1.lines.length := by
    rw [Proof.lines_placeAll, List.length_mapIdx, ← hrows]
    rfl
  obtain ⟨stale, hstale, hinvalid⟩ :=
    invalidateReshaped_eq_ok before hplaced (indexed_placeAll hids rows) hlength
  obtain ⟨hevents, hsettled⟩ := resetGoals_eq hinvalid
  simp only [rearranged, Proof.rearranged, hlaid, bind, Except.bind, hstale]
  exact ⟨stale.resetGoals.1, by rw [hevents]; rfl, hsettled⟩

end NaturalDeduction.Store
