/-
  The order in which verifications become due.

  Lines that have become due are verified by time, and those of one time in the
  order of the lines. Going through the lines and putting each into its place,
  behind those of the same time, gives this order, and it is the only one.
-/

import NaturalDeduction.Proofs.Clock.Slots
import NaturalDeduction.Proofs.Clock.Stamps

namespace NaturalDeduction.Proof

variable {p : Proof} {id : LineId} {due time : Nat}

/-! ## What lines wait for -/

/-- A verification of the line is pending, and due at this time. -/
def Waits (p : Proof) (id : LineId) (due : Nat) : Prop :=
  ∃ stamp ∈ p.stamps, stamp.id = id ∧ stamp.due? = some due

theorem waits_iff : p.Waits id due ↔ ∃ line ∈ p.lines, line.id = id ∧ line.due? = some due := by
  constructor
  · rintro ⟨_, hstamp, hid, hdue⟩
    obtain ⟨line, hline, rfl⟩ := List.mem_map.1 hstamp
    exact ⟨line, hline, hid, hdue⟩
  · rintro ⟨line, hline, hid, hdue⟩
    exact ⟨line.stamp, List.mem_map_of_mem hline, hid, hdue⟩

/-! ## The order of time and lines -/

theorem standing_of_getElem? (hp : WellFormedLines p) {index : Nat} {line : Line}
    (hline : p.lines[index]? = some line) : p.standing line.id = index := by
  have hid : p.lineId? index = some line.id := by rw [lineId?, hline]; rfl
  rw [standing, (hp.position_iff line.id index).2 hid, Option.getD_some]

/-- Lines that stand at one position are one line. -/
theorem eq_of_standing_eq (hp : WellFormedLines p) {line other : Line} (hline : line ∈ p.lines)
    (hother : other ∈ p.lines) (h : p.standing line.id = p.standing other.id) : line = other := by
  obtain ⟨i, hi⟩ := List.mem_iff_getElem?.1 hline
  obtain ⟨j, hj⟩ := List.mem_iff_getElem?.1 hother
  rw [standing_of_getElem? hp hi, standing_of_getElem? hp hj] at h
  rw [h, hj] at hi
  exact (Option.some.inj hi).symm

theorem Precedes.trans {a b c : Nat × LineId} (hab : p.Precedes a b) (hbc : p.Precedes b c) :
    p.Precedes a c := by
  unfold Precedes at *
  omega

theorem Precedes.total (p : Proof) (a b : Nat × LineId) : p.Precedes a b ∨ p.Precedes b a := by
  unfold Precedes
  omega

/-! ## Putting verifications into their places -/

theorem perm_insertDue (entry : Nat × LineId) (ordered : List (Nat × LineId)) :
    (insertDue entry ordered).Perm (entry :: ordered) := by
  induction ordered with
  | nil => exact .refl _
  | cons other rest ih =>
    unfold insertDue
    split
    · exact .refl _
    · exact (ih.cons other).trans (.swap entry other rest)

/-- An entry for a later line than all others goes behind those of its time. -/
theorem pairwise_insertDue {entry : Nat × LineId} {ordered : List (Nat × LineId)}
    (hordered : ordered.Pairwise p.Precedes)
    (hlast : ∀ other ∈ ordered, p.standing other.2 ≤ p.standing entry.2) :
    (insertDue entry ordered).Pairwise p.Precedes := by
  induction ordered with
  | nil => exact List.pairwise_singleton _ _
  | cons other rest ih =>
    obtain ⟨hother, hrest⟩ := List.pairwise_cons.1 hordered
    unfold insertDue
    split
    · rename_i hlt
      refine List.pairwise_cons.2 ⟨fun later hlater => ?_, hordered⟩
      rcases List.mem_cons.1 hlater with rfl | hmem
      · exact .inl hlt
      · exact Precedes.trans (.inl hlt) (hother later hmem)
    · rename_i hle
      refine List.pairwise_cons.2 ⟨fun later hlater => ?_,
        ih hrest fun later hmem => hlast later (.tail _ hmem)⟩
      rcases List.mem_cons.1 ((perm_insertDue entry rest).mem_iff.1 hlater) with rfl | hmem
      · have hstands := hlast other (.head _)
        unfold Precedes
        omega
      · exact hother later hmem

theorem perm_foldl_insertDue (entries ordered : List (Nat × LineId)) :
    (entries.foldl (fun ordered entry => insertDue entry ordered) ordered).Perm
      (entries ++ ordered) := by
  induction entries generalizing ordered with
  | nil => exact .refl _
  | cons entry entries ih =>
    exact (ih _).trans (((perm_insertDue entry ordered).append_left entries).trans
      List.perm_middle)

theorem pairwise_foldl_insertDue {entries ordered : List (Nat × LineId)}
    (hordered : ordered.Pairwise p.Precedes)
    (hentries : entries.Pairwise fun first second => p.standing first.2 ≤ p.standing second.2)
    (hlast : ∀ other ∈ ordered, ∀ entry ∈ entries, p.standing other.2 ≤ p.standing entry.2) :
    (entries.foldl (fun ordered entry => insertDue entry ordered) ordered).Pairwise
      p.Precedes := by
  induction entries generalizing ordered with
  | nil => exact hordered
  | cons entry entries ih =>
    obtain ⟨hentry, hrest⟩ := List.pairwise_cons.1 hentries
    refine ih (pairwise_insertDue hordered fun other hother => hlast other hother entry (.head _))
      hrest fun other hother later hlater => ?_
    rcases List.mem_cons.1 ((perm_insertDue entry ordered).mem_iff.1 hother) with rfl | hmem
    · exact hentry later hlater
    · exact hlast other hmem later (.tail _ hlater)

/-! ## The verifications that are due by a time -/

/-- What is pending of a line by a time. -/
def pendingBy (time : Nat) (line : Line) : Option (Nat × LineId) :=
  (line.due?.filter (· ≤ time)).map fun due => (due, line.id)

theorem pendingBy_eq_some {line : Line} {entry : Nat × LineId} :
    pendingBy time line = some entry ↔
      line.due? = some entry.1 ∧ entry.1 ≤ time ∧ line.id = entry.2 := by
  rcases entry with ⟨due, id⟩
  simp only [pendingBy, Option.map_eq_some_iff, Option.filter_eq_some_iff, decide_eq_true_eq,
    Prod.mk.injEq]
  constructor
  · rintro ⟨_, ⟨hdue, hle⟩, rfl, rfl⟩
    exact ⟨hdue, hle, rfl⟩
  · rintro ⟨hdue, hle, hid⟩
    exact ⟨due, ⟨hdue, hle⟩, rfl, hid⟩

theorem perm_dueBy (p : Proof) (time : Nat) :
    (p.dueBy time).Perm (p.lines.filterMap (pendingBy time)) := by
  have hperm := perm_foldl_insertDue (p.lines.filterMap (pendingBy time)) []
  rwa [List.append_nil] at hperm

theorem mem_dueBy : (due, id) ∈ p.dueBy time ↔ p.Waits id due ∧ due ≤ time := by
  rw [(perm_dueBy p time).mem_iff, List.mem_filterMap, waits_iff]
  simp only [pendingBy_eq_some]
  constructor
  · rintro ⟨line, hline, hdue, hle, hid⟩
    exact ⟨⟨line, hline, hid, hdue⟩, hle⟩
  · rintro ⟨⟨line, hline, hid, hdue⟩, hle⟩
    exact ⟨line, hline, hdue, hle, hid⟩

theorem pairwise_lines (hp : WellFormedLines p) :
    p.lines.Pairwise fun first second => p.standing first.id < p.standing second.id := by
  refine List.pairwise_iff_getElem.2 fun i j hi hj hij => ?_
  rwa [standing_of_getElem? hp (List.getElem?_eq_getElem hi),
    standing_of_getElem? hp (List.getElem?_eq_getElem hj)]

theorem pairwise_pendingBy (hp : WellFormedLines p) (time : Nat) :
    (p.lines.filterMap (pendingBy time)).Pairwise
      fun first second => p.standing first.2 < p.standing second.2 := by
  refine List.pairwise_filterMap.2 ((pairwise_lines hp).imp ?_)
  intro line other hlt first hfirst second hsecond
  rwa [← (pendingBy_eq_some.1 hfirst).2.2, ← (pendingBy_eq_some.1 hsecond).2.2]

theorem nodup_dueBy (hp : WellFormedLines p) (time : Nat) : (p.dueBy time).Nodup := by
  refine (perm_dueBy p time).nodup_iff.2 ((pairwise_pendingBy hp time).imp ?_)
  intro first second hlt hsame
  rw [hsame] at hlt
  exact Nat.lt_irrefl _ hlt

theorem pairwise_dueBy (hp : WellFormedLines p) (time : Nat) :
    (p.dueBy time).Pairwise p.Precedes :=
  pairwise_foldl_insertDue .nil ((pairwise_pendingBy hp time).imp Nat.le_of_lt)
    fun _ hother => absurd hother List.not_mem_nil

/-- The verifications that are due by a time, in their order, are listed in only one way. -/
theorem eq_dueBy (hp : WellFormedLines p) {entries : List (Nat × LineId)} (hnodup : entries.Nodup)
    (hordered : entries.Pairwise p.Precedes)
    (hmem : ∀ due id, (due, id) ∈ entries ↔ p.Waits id due ∧ due ≤ time) :
    entries = p.dueBy time := by
  have hperm : entries.Perm (p.dueBy time) :=
    (List.perm_ext_iff_of_nodup hnodup (nodup_dueBy hp time)).2 fun ⟨due, id⟩ => by
      rw [hmem, mem_dueBy]
  refine List.Perm.eq_of_pairwise (fun a b ha hb hab hba => ?_) hordered (pairwise_dueBy hp time)
    hperm
  -- Entries that come before each other are of one time and one line.
  obtain ⟨line, hline, hid, -⟩ := waits_iff.1 ((hmem a.1 a.2).1 ha).1
  obtain ⟨other, hother, hsame, -⟩ := waits_iff.1 (mem_dueBy.1 hb).1
  unfold Precedes at hab hba
  have hstands : p.standing line.id = p.standing other.id := by rw [hid, hsame]; omega
  have hlines := eq_of_standing_eq hp hline hother hstands
  refine Prod.ext (by omega) ?_
  rw [← hid, ← hsame, hlines]

end NaturalDeduction.Proof
