/-
  What the arena holds.

  A list of identities and an arena agree when no identity stands twice in the
  list, none is held twice, and those in the list are exactly those that are
  held. `Holds` says so, and which lines are found under them. It is kept when a
  line is replaced by one with its identity, when a new identity is put into
  both, and when identities are taken out of both.
-/

import Mathlib.Data.List.Forall2
import Mathlib.Data.List.InsertIdx
import NaturalDeduction.Proofs.Store.Placing
import NaturalDeduction.Proofs.Word.Trapping
import NaturalDeduction.Store.Arena

namespace NaturalDeduction.Arena

variable {arena : Arena} {order ids : List LineId} {lines : List Line} {id key : LineId}
  {line : Line} {index : Nat}

/-! ## One line -/

theorem line?_cons (entry : LineId × Line) (arena : Arena) (key : LineId) :
    line? (entry :: arena) key = if key = entry.1 then some entry.2 else arena.line? key := by
  by_cases hkey : key = entry.1
  · obtain ⟨id, line⟩ := entry
    simp [line?, hkey]
  · rw [line?, List.lookup_cons, beq_eq_false_iff_ne.2 hkey, if_neg hkey]
    rfl

theorem line?_hold (arena : Arena) (id : LineId) (line : Line) (key : LineId) :
    (arena.hold id line).line? key = if key = id then some line else arena.line? key := by
  induction arena with
  | nil => exact line?_cons _ _ _
  | cons entry arena ih =>
    rw [hold]
    split
    · rename_i hid
      -- The line put in takes the place of the one before.
      simp only [line?_cons, hid]
      split <;> rfl
    · rename_i hid
      simp only [line?_cons, ih]
      by_cases hkey : key = entry.1
      · simp only [hkey, if_true, if_neg hid]
      · simp only [if_neg hkey]

theorem line?_hold_self (arena : Arena) (id : LineId) (line : Line) :
    (arena.hold id line).line? id = some line := by
  rw [line?_hold, if_pos rfl]

theorem line?_hold_of_ne (arena : Arena) (line : Line) (h : key ≠ id) :
    (arena.hold id line).line? key = arena.line? key := by
  rw [line?_hold, if_neg h]

theorem line?_release (arena : Arena) (id key : LineId) :
    (arena.release id).line? key = if key = id then none else arena.line? key := by
  induction arena with
  | nil => exact (ite_self _).symm
  | cons entry arena ih =>
    simp only [release] at ih
    by_cases hid : entry.1 = id
    · rw [release, List.filter_cons_of_neg (by simpa using hid), ih, line?_cons, hid]
      split <;> rfl
    · rw [release, List.filter_cons_of_pos (by simpa using hid), line?_cons, line?_cons, ih]
      by_cases hkey : key = entry.1
      · simp only [hkey, if_true, if_neg hid]
      · simp only [if_neg hkey]

theorem mem_ids_iff : id ∈ arena.ids ↔ ∃ line, arena.line? id = some line := by
  induction arena with
  | nil => simp [ids, line?]
  | cons entry arena ih =>
    simp only [ids, List.map_cons, List.mem_cons, line?_cons] at ih ⊢
    by_cases hid : id = entry.1 <;> simp [hid, ih]

theorem ids_hold_of_mem (h : id ∈ arena.ids) (line : Line) :
    (arena.hold id line).ids = arena.ids := by
  induction arena with
  | nil => cases h
  | cons entry arena ih =>
    rw [hold]
    split
    · rename_i hid
      simp only [ids, List.map_cons, hid]
    · rename_i hid
      simp only [ids, List.map_cons, List.mem_cons] at h ih ⊢
      rw [ih (h.resolve_left (Ne.symm hid))]

theorem ids_hold_of_not_mem (h : id ∉ arena.ids) (line : Line) :
    (arena.hold id line).ids = arena.ids ++ [id] := by
  induction arena with
  | nil => rfl
  | cons entry arena ih =>
    simp only [ids, List.map_cons, List.mem_cons, not_or] at h ih
    rw [hold, if_neg (Ne.symm h.1)]
    simp only [ids, List.map_cons, ih h.2, List.cons_append]

theorem ids_release (arena : Arena) (id : LineId) :
    (arena.release id).ids = arena.ids.filter (· ≠ id) := by
  rw [ids, release, ids, List.filter_map]
  rfl

/-! ## Several lines -/

/-- Of lines with different identities every one is found, and the others stay. -/
theorem line?_holdAll (arena : Arena) (h : (lines.map Line.id).Nodup) :
    (∀ line ∈ lines, (arena.holdAll lines).line? line.id = some line) ∧
      ∀ key, key ∉ lines.map Line.id → (arena.holdAll lines).line? key = arena.line? key := by
  induction lines generalizing arena with
  | nil => exact ⟨List.forall_mem_nil _, fun _ _ => rfl⟩
  | cons line lines ih =>
    obtain ⟨hnot, hnodup⟩ := List.nodup_cons.1 h
    obtain ⟨hfound, hothers⟩ := ih (arena.hold line.id line) hnodup
    refine ⟨List.forall_mem_cons.2 ⟨?_, hfound⟩, fun key hkey => ?_⟩
    · exact (hothers line.id hnot).trans (line?_hold_self arena line.id line)
    · simp only [List.map_cons, List.mem_cons, not_or] at hkey
      exact (hothers key hkey.2).trans (line?_hold_of_ne arena line hkey.1)

theorem ids_holdAll (h : ∀ line ∈ lines, line.id ∈ arena.ids) :
    (arena.holdAll lines).ids = arena.ids := by
  induction lines generalizing arena with
  | nil => rfl
  | cons line lines ih =>
    obtain ⟨hfirst, hothers⟩ := List.forall_mem_cons.1 h
    have hids := ids_hold_of_mem hfirst line
    have hheld : ∀ other ∈ lines, other.id ∈ (arena.hold line.id line).ids :=
      fun other hother => hids ▸ hothers other hother
    exact (ih hheld).trans hids

theorem line?_releaseAll (arena : Arena) (ids : List LineId) (key : LineId) :
    (arena.releaseAll ids).line? key = if key ∈ ids then none else arena.line? key := by
  induction ids generalizing arena with
  | nil => rfl
  | cons id ids ih =>
    rw [show arena.releaseAll (id :: ids) = (arena.release id).releaseAll ids from rfl, ih,
      line?_release]
    by_cases hid : key = id <;> simp [hid]

theorem ids_releaseAll (arena : Arena) (ids : List LineId) :
    (arena.releaseAll ids).ids = arena.ids.filter (· ∉ ids) := by
  induction ids generalizing arena with
  | nil => simp [releaseAll]
  | cons id ids ih =>
    rw [show arena.releaseAll (id :: ids) = (arena.release id).releaseAll ids from rfl, ih,
      ids_release, List.filter_filter]
    simp [Bool.and_comm]

/-! ## Order and arena -/

/-- The arena holds the lines, which have the identities in the order, and no other ones. -/
structure Holds (arena : Arena) (order : List LineId) (lines : List Line) : Prop where
  ids_eq : lines.map Line.id = order
  order_nodup : order.Nodup
  ids_nodup : arena.ids.Nodup
  mem_iff : ∀ id, id ∈ arena.ids ↔ id ∈ order
  line?_eq : ∀ line ∈ lines, arena.line? line.id = some line

namespace Holds

theorem empty : Holds [] [] [] where
  ids_eq := rfl
  order_nodup := .nil
  ids_nodup := .nil
  mem_iff _ := Iff.rfl
  line?_eq := List.forall_mem_nil _

theorem length_eq (h : arena.Holds order lines) : lines.length = order.length := by
  rw [← h.ids_eq, List.length_map]

theorem id_mem (h : arena.Holds order lines) (hline : line ∈ lines) : line.id ∈ arena.ids :=
  (h.mem_iff line.id).2 (h.ids_eq ▸ List.mem_map_of_mem hline)

/-- What is found under an identity is the line with that identity. -/
theorem mem_of_line? (h : arena.Holds order lines) (hline : arena.line? id = some line) :
    line ∈ lines ∧ line.id = id := by
  have hmem : id ∈ order := (h.mem_iff id).1 (mem_ids_iff.2 ⟨line, hline⟩)
  rw [← h.ids_eq] at hmem
  obtain ⟨other, hother, rfl⟩ := List.mem_map.1 hmem
  obtain rfl : other = line := Option.some.inj ((h.line?_eq other hother).symm.trans hline)
  exact ⟨hother, rfl⟩

theorem getElem?_order (h : arena.Holds order lines) (index : Nat) :
    order[index]? = lines[index]?.map Line.id := by
  rw [← h.ids_eq, List.getElem?_map]

/-- The lines are fetched one after the other. -/
theorem mapM_fetch (h : arena.Holds order lines) : order.mapM arena.fetch = .ok lines := by
  rw [Except.mapM_eq_ok, ← h.ids_eq, List.forall₂_map_left_iff, List.forall₂_same]
  intro line hline
  rw [fetch, h.line?_eq line hline]

theorem fetch_eq_ok (h : arena.Holds order lines) (hline : lines[index]? = some line) :
    arena.fetch line.id = .ok line := by
  rw [fetch, h.line?_eq line (List.mem_of_getElem? hline)]

/-- Lines with the identities that are held already take the place of the former ones. -/
theorem holdAll (h : arena.Holds order lines) {others : List Line}
    (hids : others.map Line.id = order) : (arena.holdAll others).Holds order others where
  ids_eq := hids
  order_nodup := h.order_nodup
  ids_nodup := by
    rw [ids_holdAll fun line hline => (h.mem_iff _).2 (hids ▸ List.mem_map_of_mem hline)]
    exact h.ids_nodup
  mem_iff id := by
    rw [ids_holdAll fun line hline => (h.mem_iff _).2 (hids ▸ List.mem_map_of_mem hline)]
    exact h.mem_iff id
  line?_eq := (line?_holdAll arena (hids ▸ h.order_nodup)).1

/-- The same for a single line. -/
theorem hold (h : arena.Holds order lines) {old : Line} (hold : lines[index]? = some old)
    (hid : line.id = old.id) : (arena.hold old.id line).Holds order (lines.set index line) := by
  have hids := ids_hold_of_mem (h.id_mem (List.mem_of_getElem? hold)) line
  refine ⟨?_, h.order_nodup, hids ▸ h.ids_nodup, fun id => hids ▸ h.mem_iff id, ?_⟩
  · rw [Proof.map_set_eq hold hid, h.ids_eq]
  · intro other hother
    obtain ⟨j, hj⟩ := List.mem_iff_getElem?.1 hother
    rw [List.getElem?_set] at hj
    split at hj
    · split at hj
      · cases hj
        rw [hid, line?_hold_self]
      · cases hj
    · rename_i hne
      -- Another position has another identity.
      have hother' : other.id ≠ old.id := by
        intro heq
        have hindex : order[index]? = some old.id := by rw [h.getElem?_order, hold]; rfl
        have hat : order[j]? = some old.id := by rw [h.getElem?_order, hj, ← heq]; rfl
        exact hne ((List.getElem?_inj (List.getElem?_eq_some_iff.1 hindex).1 h.order_nodup).1
          (hindex.trans hat.symm))
      rw [line?_hold_of_ne arena line hother']
      exact h.line?_eq other (List.mem_of_getElem? hj)

/-- A line with a new identity is put into both. -/
theorem insertIdx (h : arena.Holds order lines) (hindex : index ≤ order.length)
    (hnew : line.id ∉ order) : (arena.hold line.id line).Holds (order.insertIdx index line.id)
      (lines.insertIdx index line) := by
  have hmem : line.id ∉ arena.ids := fun hmem => hnew ((h.mem_iff _).1 hmem)
  have hids := ids_hold_of_not_mem hmem line
  refine ⟨?_, ?_, ?_, fun id => ?_, fun other hother => ?_⟩
  · rw [List.map_insertIdx, h.ids_eq]
  · rw [(List.perm_insertIdx _ _ hindex).nodup_iff, List.nodup_cons]
    exact ⟨hnew, h.order_nodup⟩
  · rw [hids, List.nodup_append]
    refine ⟨h.ids_nodup, List.nodup_singleton _, fun a ha b hb => ?_⟩
    rw [List.mem_singleton.1 hb]
    exact fun heq => hmem (heq ▸ ha)
  · rw [hids, List.mem_append, List.mem_singleton, h.mem_iff, List.mem_insertIdx hindex, or_comm]
  · rcases List.eq_or_mem_of_mem_insertIdx hother with rfl | hother
    · exact line?_hold_self arena _ _
    · have hne : other.id ≠ line.id := fun heq =>
        hnew (heq ▸ h.ids_eq ▸ List.mem_map_of_mem hother)
      rw [line?_hold_of_ne arena line hne]
      exact h.line?_eq other hother

/-- Lines are taken out of both. -/
theorem releaseAll {front cut back : List Line}
    (h : arena.Holds order (front ++ cut ++ back)) :
    (arena.releaseAll (cut.map Line.id)).Holds (front.map Line.id ++ back.map Line.id)
      (front ++ back) := by
  have hids := h.ids_eq
  rw [List.map_append, List.map_append] at hids
  have hnodup : (front.map Line.id ++ cut.map Line.id ++ back.map Line.id).Nodup :=
    hids ▸ h.order_nodup
  have hperm : (front.map Line.id ++ cut.map Line.id ++ back.map Line.id).Perm
      (cut.map Line.id ++ (front.map Line.id ++ back.map Line.id)) := by
    rw [← List.append_assoc]
    exact List.perm_append_comm.append_right _
  obtain ⟨-, hleft, hapart⟩ := List.nodup_append.1 (hperm.nodup_iff.1 hnodup)
  have hkept : ∀ id ∈ front.map Line.id ++ back.map Line.id, id ∉ cut.map Line.id :=
    fun id hid hcut => hapart id hcut id hid rfl
  refine ⟨List.map_append, hleft, ?_, fun id => ?_, fun line hline => ?_⟩
  · rw [ids_releaseAll]
    exact h.ids_nodup.filter _
  · rw [ids_releaseAll, List.mem_filter, h.mem_iff, ← hids, hperm.mem_iff, List.mem_append,
      decide_eq_true_iff]
    constructor
    · rintro ⟨hcut | hleft, hnot⟩
      · exact (hnot hcut).elim
      · exact hleft
    · exact fun hid => ⟨.inr hid, hkept id hid⟩
  · have hid : line.id ∉ cut.map Line.id :=
      hkept line.id (List.map_append ▸ List.mem_map_of_mem hline)
    rw [line?_releaseAll, if_neg hid]
    refine h.line?_eq line ?_
    simp only [List.mem_append] at hline ⊢
    tauto

end Holds

end NaturalDeduction.Arena
