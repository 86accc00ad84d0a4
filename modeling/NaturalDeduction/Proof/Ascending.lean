/-
  Finite sets of numbers.

  Citations are sets: they have no order of their own and no repeats. Such a
  set is kept as an ascending list, so that equal sets are equal lists and the
  order in which its members are announced is fixed.
-/

namespace NaturalDeduction.Ascending

/-- Adds a number to an ascending list, unless it is there. -/
def insert (n : Nat) : List Nat → List Nat
  | [] => [n]
  | m :: ms =>
    if n < m then n :: m :: ms
    else if n = m then m :: ms
    else m :: insert n ms

/-- The set of the numbers in a list. -/
def ofList (ns : List Nat) : List Nat :=
  ns.foldr insert []

theorem mem_insert {n k : Nat} {ms : List Nat} : k ∈ insert n ms ↔ k = n ∨ k ∈ ms := by
  induction ms with
  | nil => simp [insert]
  | cons m ms ih =>
    simp only [insert]
    split
    · simp
    · split
      · rename_i h
        subst h
        simp
      · simp only [List.mem_cons, ih]
        constructor
        · rintro (h | h | h) <;> simp [h]
        · rintro (h | h | h) <;> simp [h]

theorem mem_foldr_insert {k : Nat} {ns ms : List Nat} :
    k ∈ ns.foldr insert ms ↔ k ∈ ns ∨ k ∈ ms := by
  induction ns with
  | nil => simp
  | cons n ns ih => simp [mem_insert, ih, or_assoc]

theorem mem_ofList {k : Nat} {ns : List Nat} : k ∈ ofList ns ↔ k ∈ ns := by
  rw [ofList, mem_foldr_insert]
  simp

/-- The list stays ascending. -/
theorem pairwise_insert {n : Nat} {ms : List Nat} (h : ms.Pairwise (· < ·)) :
    (insert n ms).Pairwise (· < ·) := by
  induction ms with
  | nil => simp [insert]
  | cons m ms ih =>
    obtain ⟨hm, hms⟩ := List.pairwise_cons.1 h
    simp only [insert]
    split
    · rename_i hlt
      refine List.pairwise_cons.2 ⟨fun k hk => ?_, h⟩
      rcases List.mem_cons.1 hk with rfl | hk
      · exact hlt
      · exact Nat.lt_trans hlt (hm k hk)
    · split
      · exact h
      · refine List.pairwise_cons.2 ⟨fun k hk => ?_, ih hms⟩
        rcases mem_insert.1 hk with rfl | hk
        · omega
        · exact hm k hk

theorem pairwise_foldr_insert {ns ms : List Nat} (h : ms.Pairwise (· < ·)) :
    (ns.foldr insert ms).Pairwise (· < ·) := by
  induction ns with
  | nil => exact h
  | cons n ns ih => exact pairwise_insert ih

theorem pairwise_ofList (ns : List Nat) : (ofList ns).Pairwise (· < ·) :=
  pairwise_foldr_insert .nil

end NaturalDeduction.Ascending
