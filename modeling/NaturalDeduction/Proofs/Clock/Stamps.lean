/-
  What operations do to texts and pending verifications.

  Of a line, timers have to do with its identity, its text, and when its pending
  verification is due. An operation changes these in at most three ways: it
  replaces a text, which makes a verification due; it verifies lines, after
  which nothing is pending for them; and it adds and removes lines. Everything
  else, such as renumbering, marks and rules, leaves them alone.
-/

import NaturalDeduction.Proof.Timers
import NaturalDeduction.Proofs.Store.Identity
import NaturalDeduction.Proofs.Store.Ledger
import NaturalDeduction.Proofs.Store.Structure

namespace NaturalDeduction

/-- The identity of a line, its text, and when its pending verification is due. -/
structure Stamp where
  id : LineId
  text : String
  due? : Option Nat
  deriving DecidableEq, Repr

def Line.stamp (line : Line) : Stamp := ⟨line.id, line.text, line.due?⟩

/-- The stamp with nothing pending. -/
def Stamp.settled (stamp : Stamp) : Stamp := { stamp with due? := none }

/-- The stamp, with nothing pending if its line is among those that are verified. -/
def Stamp.settledIn (ids : List LineId) (stamp : Stamp) : Stamp :=
  if stamp.id ∈ ids then stamp.settled else stamp

@[simp] theorem Stamp.id_settledIn (ids : List LineId) (stamp : Stamp) :
    (stamp.settledIn ids).id = stamp.id := by
  unfold settledIn
  split <;> rfl

@[simp] theorem Stamp.settledIn_nil : Stamp.settledIn [] = fun stamp => stamp := rfl

theorem Stamp.settledIn_append (ids more : List LineId) :
    Stamp.settledIn (ids ++ more) = Stamp.settledIn more ∘ Stamp.settledIn ids := by
  funext stamp
  simp only [settledIn, List.mem_append, Function.comp_apply]
  by_cases hid : stamp.id ∈ ids <;> by_cases hmore : stamp.id ∈ more <;>
    simp [hid, hmore, settled]

namespace Proof

variable {setting : Setting} {p q : Proof} {index : Nat}

/-- The stamps of all lines, in order. -/
def stamps (p : Proof) : List Stamp := p.lines.map Line.stamp

theorem map_id_stamps (p : Proof) : p.stamps.map Stamp.id = p.lines.map Line.id := by
  rw [stamps, List.map_map]
  rfl

/-! ## Single changes -/

theorem stamps_notingLine (p : Proof) (id : LineId) :
    (p.notingLine id Line.invalidate).1.stamps = p.stamps := by
  unfold notingLine
  split
  · rfl
  · simp only [stamps, notingAt_fst]
    exact map_modify_eq (fun line => show line.invalidate.1.stamp = line.stamp from rfl) _ _

@[simp] theorem stamps_invalidateEach (p : Proof) (ids : List LineId) :
    (p.invalidateEach ids).1.stamps = p.stamps := by
  induction ids generalizing p with
  | nil => rfl
  | cons id ids ih => rw [invalidateEach, ih, stamps_notingLine]

theorem stamps_resetGoals (p : Proof) : p.resetGoals.1.stamps = p.stamps := rfl

theorem stamp_place (p : Proof) (index : Nat) (line : Line) :
    (p.place index line).1.stamp = line.stamp := by
  rw [place_fst]
  split <;> rfl

@[simp] theorem stamps_rearranged (before : List (LineId × List LineId)) (rows : Layout)
    (p : Proof) : (p.rearranged before rows).1.stamps = p.stamps := by
  have hplaced : (p.placeAll rows).1.stamps = p.stamps := map_lines_placeAll (stamp_place _)
  simp only [rearranged, stamps_resetGoals, stamps_invalidateEach, hplaced]

theorem stamps_insertLine (p : Proof) (index : Nat) (row : Row) :
    (p.insertLine index row).proof.stamps = p.stamps.insertIdx index ⟨p.nextLine, "", none⟩ := by
  rw [proof_insertLine, stamps_rearranged]
  simp only [stamps, List.map_insertIdx]
  rfl

theorem stamps_cutLines (hp : WellFormedLines p) (index : Nat) :
    (p.cutLines index).proof.stamps = p.stamps.filter (·.id ∉ p.deleted index) := by
  have hleft : (p.cutLines index).proof.stamps = (p.withoutLines index).lines.map Line.stamp := by
    rw [proof_cutLines, stamps_rearranged]
    rfl
  rw [hleft, ← filter_deleted hp, stamps, List.filter_map]
  rfl

/-- A verified line has nothing pending. -/
theorem stamps_verifyLineAt (setting : Setting) (p : Proof) (index : Nat) :
    (verifyLineAt setting p index).proof.stamps = p.stamps.modify index Stamp.settled := by
  cases hline : p.lines[index]? with
  | none =>
    have hbeyond : p.stamps.length ≤ index := by
      simpa [stamps] using List.getElem?_eq_none_iff.1 hline
    rw [List.modify_eq_self hbeyond]
    simp only [verifyLineAt, hline]
  | some line =>
    obtain ⟨consulted, hverified⟩ := exists_verifyLineAt_eq setting hline
    rw [hverified]
    apply List.ext_getElem?
    intro i
    simp only [stamps, List.getElem?_map, List.getElem?_modify]
    by_cases hi : index = i
    · subst hi
      obtain ⟨hlt, rfl⟩ := List.getElem?_eq_some_iff.1 hline
      simp only [List.getElem?_set_self hlt, List.getElem?_eq_getElem hlt, Option.map_some, if_true]
      rfl
    · simp [hi]

/-- A written line waits for its verification. -/
theorem stamps_writeLine (setting : Setting) (p : Proof) (index : Nat) (text : String) :
    (writeLine setting p index text).1.stamps = p.stamps.modify index fun stamp =>
      { stamp with text, due? := setting.debounce?.map (p.now + ·) } := by
  simp only [writeLine, notingAt_fst, stamps_resetGoals, stamps_invalidateEach]
  refine map_modify_of_comm fun other _ => ?_
  unfold Line.setText
  split
  · rename_i htext
    rw [← htext]
    rfl
  · rfl

theorem stamps_with_lines (p : Proof) {change : Line → Line}
    (h : ∀ line, (change line).stamp = line.stamp) :
    ({ p with lines := p.lines.modify index change } : Proof).stamps = p.stamps :=
  map_modify_eq h _ _

theorem stamps_chooseRule (setting : Setting) (p : Proof) (index : Nat) (rule? : Option Rule) :
    (chooseRule setting p index rule?).proof.stamps = p.stamps.modify index Stamp.settled := by
  simp only [chooseRule, notingAt_fst, stamps_verifyLineAt, stamps_resetGoals]
  rw [stamps_with_lines]
  intro line
  unfold Line.setRule
  split <;> rfl

theorem stamps_toggleCitation (setting : Setting) (p : Proof) (index : Nat) (line : Line)
    (id : LineId) :
    (toggleCitation setting p index line id).proof.stamps =
      p.stamps.modify index Stamp.settled := by
  simp only [toggleCitation, notingAt_fst, stamps_verifyLineAt, stamps_resetGoals]
  congr 1
  refine map_modify_eq (fun other => ?_) _ _
  rw [Line.setPremises_fst]
  rfl

theorem stamps_restrict (p : Proof) (rules : List Rule) :
    (p.restrict rules).proof.stamps = p.stamps := by
  change (noting Line.invalidate p.lines).1.map Line.stamp = p.lines.map Line.stamp
  rw [noting_fst, List.map_map]
  rfl

/-! ## Lines changed by identity -/

theorem lineId?_eq_map_stamps (p : Proof) (index : Nat) :
    p.lineId? index = p.stamps[index]?.map Stamp.id := by
  rw [stamps, List.getElem?_map, Option.map_map]
  rfl

/-- Changing the line at a position is changing the line with its identity. -/
theorem modify_stamps (hp : WellFormedLines p) (index : Nat) (change : Stamp → Stamp) :
    p.stamps.modify index change = p.stamps.map fun stamp =>
      if p.lineId? index = some stamp.id then change stamp else stamp := by
  apply List.ext_getElem?
  intro i
  rw [List.getElem?_modify, List.getElem?_map]
  cases hstamp : p.stamps[i]? with
  | none => rfl
  | some stamp =>
    have hid : p.lineId? i = some stamp.id := by rw [lineId?_eq_map_stamps, hstamp]; rfl
    have hiff : index = i ↔ p.lineId? index = some stamp.id :=
      ⟨fun h => h ▸ hid, fun h => hp.eq_of_lineId? h hid⟩
    by_cases hi : index = i
    · simp [hi, hid]
    · have hne : ¬ p.lineId? index = some stamp.id := fun h => hi (hiff.2 h)
      simp [hi, hne]

/-- A verified line has nothing pending, wherever it stands. -/
theorem stamps_verifyLineAt_map (setting : Setting) (hp : WellFormedLines p) (index : Nat) :
    (verifyLineAt setting p index).proof.stamps =
      p.stamps.map (Stamp.settledIn (p.lineId? index).toList) := by
  rw [stamps_verifyLineAt, modify_stamps hp]
  refine List.map_congr_left fun stamp _ => ?_
  simp only [Stamp.settledIn, Option.mem_toList]

theorem lineId?_of_stamps_eq_map {ids : List LineId}
    (h : q.stamps = p.stamps.map (Stamp.settledIn ids)) : q.lineId? = p.lineId? := by
  apply lineId?_congr
  rw [← map_id_stamps, ← map_id_stamps, h, List.map_map]
  exact List.map_congr_left fun stamp _ => Stamp.id_settledIn ids stamp

/-- Visited lines have nothing pending. -/
theorem stamps_visit (setting : Setting) (hp : WellFormedLines p) (indices : List Nat) :
    (visit setting p indices).stamps =
      p.stamps.map (Stamp.settledIn (indices.filterMap p.lineId?)) := by
  induction indices generalizing p with
  | nil => simp
  | cons index indices ih =>
    have hfirst := stamps_verifyLineAt_map setting hp index
    have hnext : WellFormedLines (verifyLineAt setting p index).proof :=
      hp.congr_outline (outline_eq_of_content_eq (content_verifyLineAt ..))
    have hids : (index :: indices).filterMap p.lineId? =
        (p.lineId? index).toList ++ indices.filterMap p.lineId? := by
      rw [List.filterMap_cons]
      cases p.lineId? index <;> rfl
    rw [visit_cons, ih hnext, lineId?_of_stamps_eq_map hfirst, hfirst, List.map_map, hids,
      Stamp.settledIn_append]

theorem stamps_verifyGoalAt (setting : Setting) (hp : WellFormedLines p) (index : Nat) :
    (verifyGoalAt setting p index).proof.stamps =
      p.stamps.map (Stamp.settledIn ((p.visitedFor setting index).filterMap p.lineId?)) := by
  obtain ⟨consulted, goals, hverified⟩ := exists_verifyGoalAt_eq setting p index
  have hasked : WellFormedLines { p with consulted } :=
    hp.congr_outline (p := p) (outline_eq_of_content_eq rfl)
  rw [hverified]
  exact stamps_visit setting hasked _

theorem stamps_verifyGoals (hp : WellFormedLines p) (goals : List Nat) :
    (verifyEach (verifyGoalAt setting) p goals).proof.stamps =
      p.stamps.map (Stamp.settledIn ((visitedForEach setting p goals).filterMap p.lineId?)) := by
  induction goals generalizing p with
  | nil => simp [verifyEach, visitedForEach]
  | cons goal goals ih =>
    have hfirst := stamps_verifyGoalAt setting hp goal
    have hnext : WellFormedLines (verifyGoalAt setting p goal).proof :=
      hp.congr_outline (outline_eq_of_content_eq (content_verifyGoalAt ..))
    simp only [verifyEach, visitedForEach]
    rw [ih hnext, lineId?_of_stamps_eq_map hfirst, hfirst, List.map_map, List.filterMap_append,
      Stamp.settledIn_append]

theorem stamps_verifyAll (hp : WellFormedLines p) :
    (p.verifyAll setting).proof.stamps =
      p.stamps.map (Stamp.settledIn ((p.visitedForAll setting).filterMap p.lineId?)) := by
  have hlines := stamps_visit setting hp (List.range p.lines.length)
  have hnext : WellFormedLines (visit setting p (List.range p.lines.length)) :=
    visit_keep WellFormedLines
      (fun index h => h.congr_outline (outline_eq_of_content_eq (content_verifyLineAt ..))) _ hp
  simp only [verifyAll, visitedForAll, proof_verifyEach]
  rw [stamps_verifyGoals hnext, lineId?_of_stamps_eq_map hlines, hlines, List.map_map,
    List.filterMap_append, Stamp.settledIn_append]

end Proof

end NaturalDeduction
