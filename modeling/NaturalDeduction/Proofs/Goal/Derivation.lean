/-
  The derivation of a line.

  `derivation` goes through the positions once, from the line upwards. Because
  a line rests only on lines before it, the result is closed: with every line
  it holds all lines that this line rests on.
-/

import NaturalDeduction.Proofs.Layout.InForce
import NaturalDeduction.Proofs.Store.WellFormed

namespace NaturalDeduction.Proof

variable {p : Proof} {index cited root : Nat}

/-! ## What a line rests on -/

/-- The lines that a line of a well-formed proof cites are accessible. -/
theorem WellFormedLines.isAccessible_of_mem (hp : WellFormedLines p) {line : Line}
    (hline : p.lines[index]? = some line) (hcited : cited ∈ p.premiseNumbers line) :
    p.layout.isAccessible cited index = true := by
  obtain ⟨id, hid, hposition⟩ := mem_premiseNumbers.1 hcited
  obtain ⟨premise, hpremise, haccessible⟩ := hp.premise_accessible index line hline id hid
  rw [hposition] at hpremise
  cases hpremise
  exact haccessible

theorem mem_restsOn {line : Line} (hline : p.lines[index]? = some line) {position : Nat} :
    position ∈ p.restsOn index ↔ ∃ cited ∈ p.premiseNumbers line,
      if p.layout.isSubproofPremise cited index then position ∈ p.layout.subproofRange cited
      else position = cited := by
  simp only [restsOn, hline, List.mem_flatMap]
  refine exists_congr fun cited => and_congr_right fun _ => ?_
  split <;> simp

/-- A line rests only on lines before it. -/
theorem WellFormedLines.lt_of_mem_restsOn (hp : WellFormedLines p) {position : Nat}
    (h : position ∈ p.restsOn index) : position < index := by
  cases hline : p.lines[index]? with
  | none => simp [restsOn, hline] at h
  | some line =>
    obtain ⟨cited, hcited, hrests⟩ := (mem_restsOn hline).1 h
    have haccessible := hp.isAccessible_of_mem hline hcited
    split at hrests
    · rename_i hsubproof
      have hbeside := Layout.isFinishedBeside_of_isSubproofPremise haccessible hsubproof
      obtain ⟨hopens, hend, -⟩ := Layout.isFinishedBeside_iff.1 hbeside
      exact Nat.lt_of_lt_of_le ((Layout.mem_subproofRange hopens).1 hrests).lt_end hend
    · rw [hrests]
      exact Layout.lt_of_isAccessible haccessible

/-! ## Closure -/

/-- The pass keeps what it has, adds nothing from its bound on, and closes what lies below. -/
theorem WellFormedLines.collectBelow_closed (hp : WellFormedLines p) (bound : Nat)
    (derivation : List Nat) :
    (∀ i ∈ derivation, i ∈ p.collectBelow bound derivation) ∧
      (∀ i ∈ p.collectBelow bound derivation, bound ≤ i → i ∈ derivation) ∧
      ∀ i ∈ p.collectBelow bound derivation, i < bound →
        ∀ j ∈ p.restsOn i, j ∈ p.collectBelow bound derivation := by
  induction bound generalizing derivation with
  | zero => exact ⟨fun i hi => hi, fun i hi _ => hi, fun i _ hlt => absurd hlt (Nat.not_lt_zero i)⟩
  | succ bound ih =>
    rw [collectBelow]
    split
    · rename_i hcontains
      obtain ⟨hkeeps, hadds, hcloses⟩ := ih ((p.restsOn bound).foldr Ascending.insert derivation)
      refine ⟨fun i hi => hkeeps i (Ascending.mem_foldr_insert.2 (.inr hi)), fun i hi hle => ?_,
        fun i hi hlt j hj => ?_⟩
      · rcases Ascending.mem_foldr_insert.1 (hadds i hi (by omega)) with hrests | hmem
        · have := hp.lt_of_mem_restsOn hrests
          omega
        · exact hmem
      · rcases Nat.lt_succ_iff_lt_or_eq.1 hlt with hlt | rfl
        · exact hcloses i hi hlt j hj
        · exact hkeeps j (Ascending.mem_foldr_insert.2 (.inl hj))
    · rename_i hcontains
      obtain ⟨hkeeps, hadds, hcloses⟩ := ih derivation
      refine ⟨hkeeps, fun i hi hle => hadds i hi (by omega), fun i hi hlt j hj => ?_⟩
      rcases Nat.lt_succ_iff_lt_or_eq.1 hlt with hlt | rfl
      · exact hcloses i hi hlt j hj
      · have hmem := hadds i hi (Nat.le_refl i)
        exact absurd (by simpa using hmem) hcontains

theorem WellFormedLines.mem_derivation_self (hp : WellFormedLines p) (root : Nat) :
    root ∈ p.derivation root :=
  (hp.collectBelow_closed (root + 1) [root]).1 root (.head _)

/-- A derivation holds every line that one of its lines rests on. -/
theorem WellFormedLines.mem_derivation_of_restsOn (hp : WellFormedLines p) {i j : Nat}
    (hi : i ∈ p.derivation root) (hj : j ∈ p.restsOn i) : j ∈ p.derivation root := by
  obtain ⟨-, hadds, hcloses⟩ := hp.collectBelow_closed (root + 1) [root]
  refine hcloses i hi ?_ j hj
  by_contra hle
  have hroot := hadds i hi (by omega)
  rw [List.mem_singleton] at hroot
  omega

end NaturalDeduction.Proof
