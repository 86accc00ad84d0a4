/-
  When computations that may fail succeed.

  A sequence of computations succeeds when each of them does. These facts are
  used from the left to the right, to take apart what is known of a success, or
  of a failure.
-/

import Mathlib.Data.List.Forall2

namespace NaturalDeduction

variable {ε α β : Type}

theorem Except.bind_eq_ok {x : Except ε α} {f : α → Except ε β} {b : β} :
    (x >>= f) = .ok b ↔ ∃ a, x = .ok a ∧ f a = .ok b := by
  cases x with
  | error e => simp [bind, Except.bind]
  | ok a => simp [bind, Except.bind]

theorem Except.bind_eq_error {x : Except ε α} {f : α → Except ε β} {e : ε} :
    (x >>= f) = .error e ↔ x = .error e ∨ ∃ a, x = .ok a ∧ f a = .error e := by
  cases x with
  | error e => simp [bind, Except.bind]
  | ok a => simp [bind, Except.bind]

theorem Except.map_eq_ok {x : Except ε α} {f : α → β} {b : β} :
    x.map f = .ok b ↔ ∃ a, x = .ok a ∧ f a = b := by
  cases x with
  | error e => simp [Except.map]
  | ok a => simp [Except.map]

theorem Except.map_eq_error {x : Except ε α} {f : α → β} {e : ε} :
    x.map f = .error e ↔ x = .error e := by
  cases x with
  | error e => simp [Except.map]
  | ok a => simp [Except.map]

/-- Computing a value for each element of a list gives the values in order. -/
theorem Except.mapM_eq_ok {f : α → Except ε β} {as : List α} {bs : List β} :
    as.mapM f = .ok bs ↔ List.Forall₂ (fun a b => f a = .ok b) as bs := by
  induction as generalizing bs with
  | nil =>
    rw [List.forall₂_nil_left_iff, List.mapM_nil]
    exact ⟨fun h => (Except.ok.inj h).symm, fun h => h ▸ rfl⟩
  | cons a as ih =>
    rw [List.mapM_cons, Except.bind_eq_ok, List.forall₂_cons_left_iff]
    constructor
    · rintro ⟨b, hb, hrest⟩
      obtain ⟨others, hothers, hdone⟩ := Except.bind_eq_ok.1 hrest
      cases hdone
      exact ⟨b, others, hb, ih.1 hothers, rfl⟩
    · rintro ⟨b, others, hb, hothers, rfl⟩
      exact ⟨b, hb, Except.bind_eq_ok.2 ⟨others, ih.2 hothers, rfl⟩⟩

/-- The same where nothing is said of a failure. -/
theorem Option.mapM_eq_some {f : α → Option β} {as : List α} {bs : List β} :
    as.mapM f = some bs ↔ List.Forall₂ (fun a b => f a = some b) as bs := by
  induction as generalizing bs with
  | nil =>
    rw [List.forall₂_nil_left_iff, List.mapM_nil]
    exact ⟨fun h => (Option.some.inj h).symm, fun h => h ▸ rfl⟩
  | cons a as ih =>
    rw [List.mapM_cons, Option.bind_eq_bind, Option.bind_eq_some_iff, List.forall₂_cons_left_iff]
    constructor
    · rintro ⟨b, hb, hrest⟩
      obtain ⟨others, hothers, hdone⟩ := Option.bind_eq_some_iff.1 hrest
      cases hdone
      exact ⟨b, others, hb, ih.1 hothers, rfl⟩
    · rintro ⟨b, others, hb, hothers, rfl⟩
      exact ⟨b, hb, Option.bind_eq_some_iff.2 ⟨others, ih.2 hothers, rfl⟩⟩

/-- A list of computations fails because one of them does. -/
theorem Except.exists_of_mapM_eq_error {f : α → Except ε β} {as : List α} {e : ε}
    (h : as.mapM f = .error e) : ∃ a ∈ as, f a = .error e := by
  induction as with
  | nil => cases h
  | cons a as ih =>
    rw [List.mapM_cons, Except.bind_eq_error] at h
    rcases h with hfirst | ⟨b, -, hrest⟩
    · exact ⟨a, .head _, hfirst⟩
    · rcases Except.bind_eq_error.1 hrest with hrest | ⟨bs, -, hdone⟩
      · obtain ⟨a', hmem, hfails⟩ := ih hrest
        exact ⟨a', .tail _ hmem, hfails⟩
      · cases hdone

/-! ## Forgetting why a computation failed -/

theorem Except.toOption_bind (x : Except ε α) (f : α → Except ε β) :
    (x >>= f).toOption = x.toOption.bind fun a => (f a).toOption := by
  cases x <;> rfl

theorem Except.toOption_mapM (f : α → Except ε β) (as : List α) :
    (as.mapM f).toOption = as.mapM fun a => (f a).toOption := by
  induction as with
  | nil => rfl
  | cons a as ih =>
    rw [List.mapM_cons, List.mapM_cons, Except.toOption_bind]
    congr 1
    funext b
    rw [Except.toOption_bind, ih]
    rfl

/-! ## Telling a failure otherwise -/

theorem Except.mapError_bind {φ : Type} (rename : ε → φ) (x : Except ε α) (f : α → Except ε β) :
    (x >>= f).mapError rename = x.mapError rename >>= fun a => (f a).mapError rename := by
  cases x <;> rfl

theorem Except.mapError_mapM {φ : Type} (rename : ε → φ) (f : α → Except ε β) (as : List α) :
    (as.mapM f).mapError rename = as.mapM fun a => (f a).mapError rename := by
  induction as with
  | nil => rfl
  | cons a as ih =>
    rw [List.mapM_cons, List.mapM_cons, Except.mapError_bind]
    congr 1
    funext b
    rw [Except.mapError_bind, ih]
    rfl

theorem Except.mapError_eq_ok {φ : Type} {rename : ε → φ} {x : Except ε α} {a : α} :
    x.mapError rename = .ok a ↔ x = .ok a := by
  cases x <;> simp [Except.mapError]

theorem Except.toOption_mapError {φ : Type} (rename : ε → φ) (x : Except ε α) :
    (x.mapError rename).toOption = x.toOption := by
  cases x <;> rfl

/-- Computations that agree on corresponding elements agree on the lists. -/
theorem Except.mapM_congr_forall₂ {γ : Type} {R : α → β → Prop} {f : α → Except ε γ}
    {g : β → Except ε γ} {as : List α} {bs : List β} (h : List.Forall₂ R as bs)
    (hfg : ∀ {a b}, R a b → g b = f a) : bs.mapM g = as.mapM f := by
  induction h with
  | nil => rfl
  | cons hab _ ih => rw [List.mapM_cons, List.mapM_cons, hfg hab, ih]

/-! ## Lists in correspondence -/

/-- Every value comes from some element. -/
theorem exists_of_mem_of_forall₂ {R : α → β → Prop} {as : List α} {bs : List β}
    (h : List.Forall₂ R as bs) {b : β} (hb : b ∈ bs) : ∃ a ∈ as, R a b := by
  induction h with
  | nil => cases hb
  | cons hfirst _ ih =>
    rcases List.mem_cons.1 hb with rfl | hb
    · exact ⟨_, .head _, hfirst⟩
    · obtain ⟨a, ha, hR⟩ := ih hb
      exact ⟨a, .tail _ ha, hR⟩

end NaturalDeduction
