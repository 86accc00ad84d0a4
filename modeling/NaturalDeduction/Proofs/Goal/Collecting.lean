/-
  What a derivation consists of.

  A line is supported by itself, by the lines that a supporting line cites, and
  by all lines of a subproof that one cites as a whole. The derivation of a line
  holds exactly its supporting lines, each once and in order, and none of them
  stands below the line. Collecting them with a stack comes to an end and gives
  the same derivation: a position puts only earlier ones on the stack.
-/

import Mathlib.Data.List.Sort
import Mathlib.Logic.Function.Iterate
import NaturalDeduction.Proof.Verify
import NaturalDeduction.Proofs.Goal.Derivation

namespace NaturalDeduction.Proof

variable {p : Proof} {index cited root i j : Nat}

/-! ## Supporting lines -/

/-- The line at a position cites the one at another. -/
def Cites (p : Proof) (index cited : Nat) : Prop :=
  ∃ line, p.lines[index]? = some line ∧ cited ∈ p.premiseNumbers line

/-- The least set of positions that holds the root and, for each line in it, the lines that this
line cites and, where it cites an assumption one level deeper, all lines of that subproof. -/
inductive Supports (p : Proof) (root : Nat) : Nat → Prop where
  | root : Supports p root root
  | cited {index cited : Nat} (h : Supports p root index) (hcites : p.Cites index cited) :
      Supports p root cited
  | subproof {index cited position : Nat} (h : Supports p root index)
      (hcites : p.Cites index cited) (hassumption : p.layout.isAssumption cited = true)
      (hlevel : p.layout.levelAt cited = p.layout.levelAt index + 1)
      (hposition : position ∈ p.layout.subproofRange cited) : Supports p root position

theorem isSubproofPremise_iff : p.layout.isSubproofPremise cited index = true ↔
    p.layout.isAssumption cited = true ∧
      p.layout.levelAt cited = p.layout.levelAt index + 1 := by
  simp [Layout.isSubproofPremise]

theorem mem_subproofRange_self (opener : Nat) : opener ∈ p.layout.subproofRange opener := by
  cases hopens : p.layout.opens opener with
  | true => exact (Layout.mem_subproofRange hopens).2 (Layout.Contains.self hopens)
  | false => simp [Layout.subproofRange, hopens]

/-- What a supporting line rests on supports the root as well. -/
theorem Supports.restsOn (h : p.Supports root i) (hj : j ∈ p.restsOn i) : p.Supports root j := by
  cases hline : p.lines[i]? with
  | none => simp [Proof.restsOn, hline] at hj
  | some line =>
    obtain ⟨cited, hcited, hrests⟩ := (mem_restsOn hline).1 hj
    have hcites : p.Cites i cited := ⟨line, hline, hcited⟩
    split at hrests
    · rename_i hsubproof
      obtain ⟨hassumption, hlevel⟩ := isSubproofPremise_iff.1 hsubproof
      exact h.subproof hcites hassumption hlevel hrests
    · rw [hrests]
      exact h.cited hcites

/-- A set that holds the root and is closed holds all supporting lines. -/
theorem Supports.of_closed (P : Nat → Prop) (h : p.Supports root i) (hroot : P root)
    (hclosed : ∀ i j, P i → j ∈ p.restsOn i → P j) : P i := by
  induction h with
  | root => exact hroot
  | @cited index cited _ hcites ih =>
    obtain ⟨line, hline, hcited⟩ := hcites
    refine hclosed index cited ih ((mem_restsOn hline).2 ⟨cited, hcited, ?_⟩)
    split
    · exact mem_subproofRange_self cited
    · rfl
  | @subproof index cited position _ hcites hassumption hlevel hposition ih =>
    obtain ⟨line, hline, hcited⟩ := hcites
    refine hclosed index position ih ((mem_restsOn hline).2 ⟨cited, hcited, ?_⟩)
    rwa [if_pos (isSubproofPremise_iff.2 ⟨hassumption, hlevel⟩)]

/-- No supporting line stands below the line that it supports. -/
theorem WellFormedLines.le_of_supports (hp : WellFormedLines p) (h : p.Supports root i) :
    i ≤ root := by
  have hclosed : ∀ i j, i ≤ root → j ∈ p.restsOn i → j ≤ root := fun i j hi hj =>
    Nat.le_trans (Nat.le_of_lt (hp.lt_of_mem_restsOn hj)) hi
  exact h.of_closed (· ≤ root) (Nat.le_refl root) hclosed

/-! ## The derivation -/

theorem supports_of_mem_collectBelow (bound : Nat) {derivation : List Nat}
    (hderivation : ∀ i ∈ derivation, p.Supports root i)
    (h : i ∈ p.collectBelow bound derivation) : p.Supports root i := by
  induction bound generalizing derivation with
  | zero => exact hderivation i h
  | succ bound ih =>
    rw [collectBelow] at h
    refine ih (fun j hj => ?_) h
    split at hj
    · rename_i hbound
      rcases Ascending.mem_foldr_insert.1 hj with hrests | hj
      · exact (hderivation bound (by simpa using hbound)).restsOn hrests
      · exact hderivation j hj
    · exact hderivation j hj

/-- The derivation of a line holds exactly its supporting lines. -/
theorem WellFormedLines.mem_derivation_iff (hp : WellFormedLines p) :
    i ∈ p.derivation root ↔ p.Supports root i := by
  constructor
  · refine supports_of_mem_collectBelow _ fun j hj => ?_
    rw [List.mem_singleton.1 hj]
    exact .root
  · intro h
    exact h.of_closed (· ∈ p.derivation root) (hp.mem_derivation_self root) fun _ _ hi hj =>
      hp.mem_derivation_of_restsOn hi hj

theorem pairwise_collectBelow (p : Proof) (bound : Nat) {derivation : List Nat}
    (h : derivation.Pairwise (· < ·)) : (p.collectBelow bound derivation).Pairwise (· < ·) := by
  induction bound generalizing derivation with
  | zero => exact h
  | succ bound ih =>
    rw [collectBelow]
    refine ih ?_
    split
    · exact Ascending.pairwise_foldr_insert h
    · exact h

theorem pairwise_derivation (p : Proof) (root : Nat) : (p.derivation root).Pairwise (· < ·) :=
  pairwise_collectBelow p (root + 1) (List.pairwise_singleton _ _)

/-! ## Collecting with a stack -/

theorem mem_pushed : j ∈ p.pushed i ↔ j ∈ p.restsOn i := by
  cases hline : p.lines[i]? with
  | none => simp only [pushed, restsOn, hline]
  | some line =>
    simp only [pushed, restsOn, hline, List.mem_flatMap, premiseNumbers, Ascending.mem_ofList]

/-- What holds of the collected positions and of the stack at any time. -/
structure Collects (p : Proof) (root : Nat) (state : Collecting) : Prop where
  ascending : state.collected.Pairwise (· < ·)
  root_mem : root ∈ state.collected ∨ root ∈ state.pending
  supports : ∀ i, i ∈ state.collected ∨ i ∈ state.pending → p.Supports root i
  closed : ∀ i ∈ state.collected, ∀ j ∈ p.restsOn i, j ∈ state.collected ∨ j ∈ state.pending

theorem Collects.initial (p : Proof) (root : Nat) : Collects p root ⟨[], [root]⟩ where
  ascending := .nil
  root_mem := .inr (.head _)
  supports := by
    rintro i (h | h)
    · cases h
    · rw [List.mem_singleton.1 h]
      exact .root
  closed := by simp

/-- Each turn keeps this. -/
theorem Collects.next {state : Collecting} (h : Collects p root state) :
    Collects p root (p.collectNext state) := by
  obtain ⟨collected, pending⟩ := state
  cases pending with
  | nil => exact h
  | cons index pending =>
    obtain ⟨hascending, hroot, hsupports, hclosed⟩ := h
    simp only [List.mem_cons] at hroot hsupports hclosed
    rw [collectNext]
    split
    · -- The position was collected before, so nothing is lost with it.
      rename_i hcontains
      have hindex : index ∈ collected := by simpa using hcontains
      have hdrop : ∀ i, i ∈ collected ∨ i = index ∨ i ∈ pending → i ∈ collected ∨ i ∈ pending := by
        rintro i (h | rfl | h)
        · exact .inl h
        · exact .inl hindex
        · exact .inr h
      exact ⟨hascending, hdrop _ hroot, fun i hi => hsupports i (hi.imp_right .inr),
        fun i hi j hj => hdrop j (hclosed i hi j hj)⟩
    · have hmove : ∀ i, i ∈ collected ∨ i = index ∨ i ∈ pending →
          i ∈ Ascending.insert index collected ∨ i ∈ (p.pushed index).reverse ++ pending := by
        rintro i (h | rfl | h)
        · exact .inl (Ascending.mem_insert.2 (.inr h))
        · exact .inl (Ascending.mem_insert.2 (.inl rfl))
        · exact .inr (List.mem_append_right _ h)
      refine ⟨Ascending.pairwise_insert hascending, hmove _ hroot, ?_, ?_⟩
      · rintro i (hi | hi)
        · rcases Ascending.mem_insert.1 hi with rfl | hi
          · exact hsupports i (.inr (.inl rfl))
          · exact hsupports i (.inl hi)
        · rcases List.mem_append.1 hi with hi | hi
          · exact (hsupports index (.inr (.inl rfl))).restsOn (mem_pushed.1 (List.mem_reverse.1 hi))
          · exact hsupports i (.inr (.inr hi))
      · intro i hi j hj
        rcases Ascending.mem_insert.1 hi with rfl | hi
        · exact .inr (List.mem_append_left _ (List.mem_reverse.2 (mem_pushed.2 hj)))
        · exact hmove j (hclosed i hi j hj)

theorem Collects.turns {state : Collecting} (h : Collects p root state) (turns : Nat) :
    Collects p root (p.collectNext^[turns] state) := by
  induction turns generalizing state with
  | zero => exact h
  | succ turns ih => exact ih h.next

/-- When the stack is empty, what is collected is the derivation. -/
theorem WellFormedLines.collected_eq_derivation (hp : WellFormedLines p) {collected : List Nat}
    (h : Collects p root ⟨collected, []⟩) : collected = p.derivation root := by
  have hroot : root ∈ collected := h.root_mem.elim id (by simp)
  have hmem : ∀ i, i ∈ collected ↔ i ∈ p.derivation root := by
    intro i
    rw [hp.mem_derivation_iff]
    have hclosed : ∀ i j, i ∈ collected → j ∈ p.restsOn i → j ∈ collected := fun i j hi hj =>
      (h.closed i hi j hj).elim id (by simp)
    exact ⟨fun hi => h.supports i (.inl hi), fun hi => hi.of_closed (· ∈ collected) hroot hclosed⟩
  exact h.ascending.eq_of_mem_iff (pairwise_derivation p root) fun i => hmem i

/-- Some turns take a number of positions off the stack, if this can be done with each of them. -/
theorem exists_turns_of_forall {positions : List Nat}
    (h : ∀ i ∈ positions, ∀ collected pending, ∃ turns after,
      p.collectNext^[turns] ⟨collected, i :: pending⟩ = ⟨after, pending⟩)
    (collected pending : List Nat) :
    ∃ turns after, p.collectNext^[turns] ⟨collected, positions ++ pending⟩ = ⟨after, pending⟩ := by
  induction positions generalizing collected with
  | nil => exact ⟨0, collected, rfl⟩
  | cons i positions ih =>
    obtain ⟨hi, hpositions⟩ := List.forall_mem_cons.1 h
    obtain ⟨turns, after, hfirst⟩ := hi collected (positions ++ pending)
    obtain ⟨more, last, hmore⟩ := ih hpositions after
    refine ⟨more + turns, last, ?_⟩
    rw [Function.iterate_add_apply, List.cons_append, hfirst, hmore]

/-- Some turns take a position off the stack, with all that it puts there. -/
theorem WellFormedLines.exists_turns (hp : WellFormedLines p) (index : Nat)
    (collected pending : List Nat) :
    ∃ turns after, p.collectNext^[turns] ⟨collected, index :: pending⟩ = ⟨after, pending⟩ := by
  -- The induction is on positions: what a position puts on the stack stands before it.
  induction index using Nat.strongRecOn generalizing collected pending with
  | ind index ih =>
    cases hcontains : collected.contains index with
    | true => exact ⟨1, collected, by rw [Function.iterate_one, collectNext, if_pos hcontains]⟩
    | false =>
      have hpushed : ∀ i ∈ (p.pushed index).reverse, ∀ collected pending, ∃ turns after,
          p.collectNext^[turns] ⟨collected, i :: pending⟩ = ⟨after, pending⟩ := fun i hi =>
        ih i (hp.lt_of_mem_restsOn (mem_pushed.1 (List.mem_reverse.1 hi)))
      obtain ⟨turns, after, hturns⟩ :=
        exists_turns_of_forall hpushed (Ascending.insert index collected) pending
      refine ⟨turns + 1, after, ?_⟩
      rw [Function.iterate_succ_apply, collectNext, if_neg (by simpa using hcontains), hturns]

/-- Collecting comes to an end, with the derivation. -/
theorem WellFormedLines.exists_turns_derivation (hp : WellFormedLines p) (root : Nat) :
    ∃ turns, p.collectNext^[turns] ⟨[], [root]⟩ = ⟨p.derivation root, []⟩ := by
  obtain ⟨turns, collected, hturns⟩ := hp.exists_turns root [] []
  have hcollects := (Collects.initial p root).turns turns
  rw [hturns] at hcollects
  exact ⟨turns, by rw [hturns, hp.collected_eq_derivation hcollects]⟩

end NaturalDeduction.Proof
