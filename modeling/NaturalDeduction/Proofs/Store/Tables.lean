/-
  What the tables of a proof hold.

  `positions` is the inverse of the order of lines, and `citations` holds for
  every line the lines that cite it. Both facts are stated for the tables as
  they are built from the lines; for the citations there is also what a single
  entry becomes when a citation is added or taken back.
-/

import Mathlib.Data.List.Nodup
import NaturalDeduction.Proof.Index

namespace NaturalDeduction

/-- In a table without repeated keys, looking a key up finds the one entry that it has. -/
theorem lookup_eq_some_iff_mem {β : Type} {entries : List (Nat × β)} {key : Nat} {value : β}
    (h : (entries.map Prod.fst).Nodup) :
    entries.lookup key = some value ↔ (key, value) ∈ entries := by
  induction entries with
  | nil => simp
  | cons entry entries ih =>
    obtain ⟨key', value'⟩ := entry
    rw [List.map_cons, List.nodup_cons] at h
    rw [List.lookup_cons, List.mem_cons, Prod.mk.injEq]
    cases hkey : key == key' with
    | true =>
      obtain rfl : key = key' := by simpa using hkey
      -- The first entry has the key, so no later one does.
      have hnot : (key, value) ∉ entries := fun hmem =>
        h.1 (List.mem_map.2 ⟨(key, value), hmem, rfl⟩)
      simp [hnot, eq_comm]
    | false =>
      have hne : key ≠ key' := by simpa using hkey
      simp [hne, ih h.2]

/-! ## Positions -/

namespace Positions

theorem keys_ofLines (lines : List Line) : (ofLines lines).map Prod.fst = lines.map Line.id := by
  apply List.ext_getElem?
  intro i
  cases h : lines[i]? <;> simp [ofLines, h]

theorem mem_ofLines {lines : List Line} {id : LineId} {index : Nat} :
    (id, index) ∈ ofLines lines ↔ lines[index]?.map Line.id = some id := by
  simp only [ofLines, List.mem_mapIdx, Prod.mk.injEq, Option.map_eq_some_iff]
  constructor
  · rintro ⟨i, hi, rfl, rfl⟩
    exact ⟨lines[i], List.getElem?_eq_getElem hi, rfl⟩
  · rintro ⟨line, hline, rfl⟩
    obtain ⟨hi, rfl⟩ := List.getElem?_eq_some_iff.1 hline
    exact ⟨index, hi, rfl, rfl⟩

/-- The table is the inverse of the order of lines, when no two lines share an identity. -/
theorem lookup_ofLines {lines : List Line} (h : (lines.map Line.id).Nodup) {id : LineId}
    {index : Nat} :
    (ofLines lines).lookup id = some index ↔ lines[index]?.map Line.id = some id := by
  rw [← keys_ofLines] at h
  rw [lookup_eq_some_iff_mem h, mem_ofLines]

end Positions

/-! ## Citations -/

namespace Citations

/-- Changing an entry leaves the others as they are. -/
theorem citing_alter (id : LineId) (change : List LineId → List LineId) (citations : Citations)
    (key : LineId) :
    (citations.alter id change).citing key =
      if key = id then change (citations.citing id) else citations.citing key := by
  induction citations with
  | nil =>
    by_cases h : key = id
    · simp [alter, citing, h]
    · simp [alter, citing, h, List.lookup_cons, beq_false_of_ne h]
  | cons entry citations ih =>
    obtain ⟨other, ids⟩ := entry
    simp only [citing] at ih
    simp only [alter, citing]
    -- The first entry is the one to change, or it is passed.
    by_cases hother : other = id
    · subst hother
      rw [if_pos rfl]
      by_cases h : key = other
      · simp [h]
      · simp [h, List.lookup_cons, beq_false_of_ne h]
    · rw [if_neg hother]
      by_cases hkey : key = other
      · subst hkey
        simp [hother]
      · by_cases hid : id = other
        · exact absurd hid.symm hother
        · simp [List.lookup_cons, beq_false_of_ne hkey, beq_false_of_ne hid, ih]

theorem mem_citing_add {citations : Citations} {premise line id citer : LineId} :
    citer ∈ (citations.add premise line).citing id ↔
      (id = premise ∧ citer = line) ∨ citer ∈ citations.citing id := by
  rw [add, citing_alter]
  by_cases h : id = premise
  · subst h
    simp [Ascending.mem_insert]
  · simp [h]

theorem mem_citing_remove {citations : Citations} {premise line id citer : LineId} :
    citer ∈ (citations.remove premise line).citing id ↔
      citer ∈ citations.citing id ∧ (id = premise → citer ≠ line) := by
  rw [remove, citing_alter]
  by_cases h : id = premise
  · subst h
    simp
  · simp [h]

theorem pairwise_citing_add {citations : Citations}
    (h : ∀ id, (citations.citing id).Pairwise (· < ·)) (premise line id : LineId) :
    ((citations.add premise line).citing id).Pairwise (· < ·) := by
  rw [add, citing_alter]
  split
  · exact Ascending.pairwise_insert (h premise)
  · exact h id

theorem pairwise_citing_remove {citations : Citations}
    (h : ∀ id, (citations.citing id).Pairwise (· < ·)) (premise line id : LineId) :
    ((citations.remove premise line).citing id).Pairwise (· < ·) := by
  rw [remove, citing_alter]
  split
  · exact (h premise).filter _
  · exact h id

/-! ### Citations built from lines -/

/-- Notes all citations of one line. -/
theorem mem_citing_foldl_add {premises : List LineId} {citations : Citations}
    {line id citer : LineId} :
    citer ∈ (premises.foldl (fun noted premise => noted.add premise line) citations).citing id ↔
      citer ∈ citations.citing id ∨ (id ∈ premises ∧ citer = line) := by
  induction premises generalizing citations with
  | nil => simp
  | cons premise premises ih =>
    rw [List.foldl_cons, ih, mem_citing_add]
    simp only [List.mem_cons]
    tauto

theorem pairwise_citing_foldl_add {premises : List LineId} {citations : Citations}
    (h : ∀ id, (citations.citing id).Pairwise (· < ·)) (line id : LineId) :
    ((premises.foldl (fun noted premise => noted.add premise line) citations).citing id).Pairwise
      (· < ·) := by
  induction premises generalizing citations with
  | nil => exact h id
  | cons premise premises ih => exact ih fun id => pairwise_citing_add h premise line id

/-- The table holds exactly the citations of the lines. -/
theorem mem_citing_ofLines {lines : List Line} {id citer : LineId} :
    citer ∈ (ofLines lines).citing id ↔
      ∃ line ∈ lines, line.id = citer ∧ id ∈ line.premises := by
  -- The fold is started from any table, so that the induction goes through.
  have hfold : ∀ citations : Citations,
      citer ∈ (lines.foldl (fun citations line =>
        line.premises.foldl (fun noted premise => noted.add premise line.id) citations)
        citations).citing id ↔
      citer ∈ citations.citing id ∨ ∃ line ∈ lines, line.id = citer ∧ id ∈ line.premises := by
    induction lines with
    | nil => simp
    | cons line lines ih =>
      intro citations
      rw [List.foldl_cons, ih, mem_citing_foldl_add, or_assoc]
      simp only [List.exists_mem_cons_iff]
      tauto
  rw [ofLines, hfold]
  simp [citing]

theorem pairwise_citing_ofLines (lines : List Line) (id : LineId) :
    ((ofLines lines).citing id).Pairwise (· < ·) := by
  -- The same generalisation as for the members.
  have hfold : ∀ citations : Citations, (∀ id, (citations.citing id).Pairwise (· < ·)) →
      ∀ id, ((lines.foldl (fun citations line =>
        line.premises.foldl (fun noted premise => noted.add premise line.id) citations)
        citations).citing id).Pairwise (· < ·) := by
    induction lines with
    | nil => exact fun _ h => h
    | cons line lines ih =>
      intro citations h
      exact ih _ fun id => pairwise_citing_foldl_add h line.id id
  exact hfold [] (fun _ => by simp [citing]) id

end Citations

end NaturalDeduction
