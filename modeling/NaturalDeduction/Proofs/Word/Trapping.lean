/-
  Computations that do not trap.

  Every step goes through where its condition holds, and then gives what it
  stands for. A computation over a list goes through when it does so at each
  element, and gives what the same computation gives that cannot trap.
-/

import NaturalDeduction.Proofs.Success
import NaturalDeduction.Word.Trap

namespace NaturalDeduction.Trapping

variable {α β ε : Type}

/-! ## Single steps -/

theorem sum_eq_ok {a b : Nat} (h : a + b < Word.limit 64) : sum a b = .ok (a + b) :=
  if_pos h

theorem difference_eq_ok {a b : Nat} (h : b ≤ a) : difference a b = .ok (a - b) :=
  if_pos h

theorem lookUp_eq_ok {as : List α} {index : Nat} {a : α} (h : as[index]? = some a) :
    lookUp as index = .ok a := by
  rw [lookUp, h]

theorem replace_eq_ok {as : List α} {index : Nat} (change : α → α) (h : index < as.length) :
    replace as index change = .ok (as.modify index change) :=
  if_pos h

theorem insertAt_eq_ok {as : List α} {index : Nat} (a : α) (h : index ≤ as.length) :
    insertAt as index a = .ok (as.insertIdx index a) :=
  if_pos h

theorem drain_eq_ok {as : List α} {start stop : Nat} (h : start ≤ stop) (hstop : stop ≤ as.length) :
    drain as start stop = .ok ((as.take stop).drop start, as.take start ++ as.drop stop) :=
  if_pos ⟨h, hstop⟩

theorem require_eq_ok {condition : Bool} (h : condition = true) : require condition = .ok () :=
  if_pos h

/-! ## Lists -/

variable {as : List α}

theorem filter_eq_ok {test : α → Trapping Bool} {accepts : α → Bool}
    (h : ∀ a ∈ as, test a = .ok (accepts a)) : filter test as = .ok (as.filter accepts) := by
  induction as with
  | nil => rfl
  | cons a as ih =>
    obtain ⟨hfirst, hothers⟩ := List.forall_mem_cons.1 h
    rw [filter, hfirst, ih hothers, List.filter_cons]
    rfl

theorem find?_eq_ok {test : α → Trapping Bool} {accepts : α → Bool}
    (h : ∀ a ∈ as, test a = .ok (accepts a)) : find? test as = .ok (as.find? accepts) := by
  induction as with
  | nil => rfl
  | cons a as ih =>
    obtain ⟨hfirst, hothers⟩ := List.forall_mem_cons.1 h
    rw [find?, hfirst, ih hothers, List.find?_cons]
    cases accepts a <;> rfl

theorem collect_eq_ok {value : α → Trapping (Except ε β)} {found : α → Except ε β}
    (h : ∀ a ∈ as, value a = .ok (found a)) : collect value as = .ok (as.mapM found) := by
  induction as with
  | nil => rfl
  | cons a as ih =>
    obtain ⟨hfirst, hothers⟩ := List.forall_mem_cons.1 h
    rw [collect, hfirst, ih hothers, List.mapM_cons]
    cases found a with
    | error reason => rfl
    | ok b => cases as.mapM found <;> rfl

theorem mapM_eq_ok {value : α → Trapping β} {result : α → β}
    (h : ∀ a ∈ as, value a = .ok (result a)) : as.mapM value = .ok (as.map result) := by
  induction as with
  | nil => rfl
  | cons a as ih =>
    obtain ⟨hfirst, hothers⟩ := List.forall_mem_cons.1 h
    rw [List.mapM_cons, hfirst, ih hothers, List.map_cons]
    rfl

end NaturalDeduction.Trapping
