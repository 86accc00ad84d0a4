/-
  Lines that moved.

  When lines are added or removed, the lines that stay keep their order among
  each other, their texts and their rows. So a line that keeps its citations,
  and whose cited subproofs have the same lines as before, has the same
  premises wherever it stands now.
-/

import Mathlib.Data.List.NodupEquivFin
import NaturalDeduction.Proofs.Layout.InForce
import NaturalDeduction.Proofs.Verdict.Condition

namespace NaturalDeduction

/-! ## Lists element by element -/

namespace Ascending

variable {R : Nat → Nat → Prop} {ns ms : List Nat} {n m : Nat}

theorem forall₂_insert (hR : ∀ {i j i' j'}, R i i' → R j j' → (i < j ↔ i' < j')) (hn : R n m)
    (h : List.Forall₂ R ns ms) : List.Forall₂ R (insert n ns) (insert m ms) := by
  induction h with
  | nil => exact .cons hn .nil
  | @cons k l ns ms hk hrest ih =>
    have hbelow := hR hn hk
    have habove := hR hk hn
    simp only [insert]
    -- Both numbers stand alike to the heads of their lists, so both are inserted at one place.
    rcases Nat.lt_trichotomy n k with hlt | rfl | hlt
    · rw [if_pos hlt, if_pos (hbelow.1 hlt)]
      exact .cons hn (.cons hk hrest)
    · obtain rfl : m = l := by omega
      rw [if_neg (Nat.lt_irrefl n), if_pos rfl, if_neg (Nat.lt_irrefl m), if_pos rfl]
      exact .cons hk hrest
    · have hlt' := habove.1 hlt
      rw [if_neg (by omega), if_neg (by omega), if_neg (by omega), if_neg (by omega)]
      exact .cons hk ih

/-- Putting numbers in order respects every pairing that respects the order. -/
theorem forall₂_ofList (hR : ∀ {i j i' j'}, R i i' → R j j' → (i < j ↔ i' < j'))
    (h : List.Forall₂ R ns ms) : List.Forall₂ R (ofList ns) (ofList ms) := by
  induction h with
  | nil => exact .nil
  | cons hk _ ih => exact forall₂_insert hR hk ih

end Ascending

/-- Where two lists are mapped to the same values, their elements correspond. -/
theorem forall₂_of_filterMap_eq {α β : Type} {f g : α → Option β} {as bs : List α}
    (hf : ∀ a ∈ as, ∃ value, f a = some value) (hg : ∀ b ∈ bs, ∃ value, g b = some value)
    (h : as.filterMap f = bs.filterMap g) :
    List.Forall₂ (fun a b => ∃ value, f a = some value ∧ g b = some value) as bs := by
  induction as generalizing bs with
  | nil =>
    cases bs with
    | nil => exact .nil
    | cons b bs =>
      obtain ⟨value, hvalue⟩ := hg b (.head _)
      rw [List.filterMap_cons_some hvalue] at h
      cases h
  | cons a as ih =>
    obtain ⟨value, hvalue⟩ := hf a (.head _)
    rw [List.filterMap_cons_some hvalue] at h
    cases bs with
    | nil => cases h
    | cons b bs =>
      obtain ⟨other, hother⟩ := hg b (.head _)
      rw [List.filterMap_cons_some hother, List.cons.injEq] at h
      obtain ⟨rfl, hrest⟩ := h
      exact .cons ⟨value, hvalue, hother⟩ (ih (fun a ha => hf a (.tail _ ha))
        (fun b hb => hg b (.tail _ hb)) hrest)

/-- The values of a list without repeats stand in the same order in a part of it. -/
theorem lt_iff_of_sublist {α : Type} {as bs : List α} (h : as.Sublist bs) (hbs : bs.Nodup)
    {i j i' j' : Nat} {a b : α} (hi : as[i]? = some a) (hj : as[j]? = some b)
    (hi' : bs[i']? = some a) (hj' : bs[j']? = some b) : i < j ↔ i' < j' := by
  obtain ⟨place, hplace⟩ := List.sublist_iff_exists_orderEmbedding_getElem?_eq.1 h
  -- The embedding takes each place of the part to the one place where its value stands.
  have hunique : ∀ {k k' : Nat} {c : α}, as[k]? = some c → bs[k']? = some c → place k = k' := by
    intro k k' c hk hk'
    rw [hplace] at hk
    have hlt := (List.getElem?_eq_some_iff.1 hk).1
    exact (List.getElem?_inj hlt hbs).1 (hk.trans hk'.symm)
  rw [← hunique hi hi', ← hunique hj hj']
  exact place.lt_iff_lt.symm

namespace Proof

variable {p q : Proof} {i i' : Nat}

/-! ## Premises of moved lines -/

/-- The same line stands at the position `i` of `p` and at the position `i'` of `q`. -/
def Matches (p q : Proof) (i i' : Nat) : Prop :=
  ∃ id, p.lineId? i = some id ∧ q.lineId? i' = some id

/-- The lines that two proofs share stand in the same order, with the same sentences and rows. -/
structure Moved (p q : Proof) : Prop where
  lt_iff : ∀ {i j i' j'}, Matches p q i i' → Matches p q j j' → (i < j ↔ i' < j')
  sentenceAt?_eq : ∀ {i i'}, Matches p q i i' → q.sentenceAt? i' = p.sentenceAt? i
  row_eq : ∀ {i i'}, Matches p q i i' → q.layout[i']? = p.layout[i]?

namespace Moved

variable (h : Moved p q) (hmatch : Matches p q i i')
include h hmatch

theorem isAssumption_eq : q.layout.isAssumption i' = p.layout.isAssumption i := by
  rw [Layout.isAssumption, Layout.isAssumption, h.row_eq hmatch]

theorem levelAt_eq : q.layout.levelAt i' = p.layout.levelAt i := by
  rw [Layout.levelAt, Layout.levelAt, h.row_eq hmatch]

theorem mapError_sentenceAt_eq :
    (q.sentenceAt i').mapError q.lineId? = (p.sentenceAt i).mapError p.lineId? := by
  rw [sentenceAt, sentenceAt, h.sentenceAt?_eq hmatch]
  obtain ⟨id, hi, hi'⟩ := hmatch
  cases p.sentenceAt? i with
  | none => exact congrArg Except.error (hi'.trans hi.symm)
  | some sentence => rfl

theorem opens_eq : q.layout.opens i' = p.layout.opens i := by
  rw [Layout.opens, Layout.opens, h.row_eq hmatch]

theorem isSubproofPremise_eq {j j' : Nat} (hother : Matches p q j j') :
    q.layout.isSubproofPremise i' j' = p.layout.isSubproofPremise i j := by
  rw [Layout.isSubproofPremise, Layout.isSubproofPremise, h.isAssumption_eq hmatch,
    h.levelAt_eq hmatch, h.levelAt_eq hother]

end Moved

/-! ### Premises without the reason of a failure -/

theorem toOption_sentenceAt (p : Proof) (index : Nat) :
    (p.sentenceAt index).toOption = p.sentenceAt? index := by
  unfold sentenceAt
  cases p.sentenceAt? index <;> rfl

theorem toOption_premiseAt (p : Proof) (index cited : Nat) :
    (p.premiseAt index cited).toOption = (p.sentenceAt? cited).bind fun sentence =>
      if p.layout.isSubproofPremise cited index then
        ((p.layout.subproofConclusions cited).mapM p.sentenceAt?).map (.subproof sentence)
      else some (.line sentence) := by
  rw [premiseAt, Except.toOption_bind, toOption_sentenceAt]
  congr 1
  funext sentence
  split
  · rw [Except.toOption_bind, Except.toOption_mapM, funext (toOption_sentenceAt p)]
    cases (p.layout.subproofConclusions cited).mapM p.sentenceAt? <;> rfl
  · rfl

theorem toOption_premisesOf (p : Proof) (index : Nat) (line : Line) :
    (p.premisesOf index line).toOption =
      (p.premiseNumbers line).mapM fun cited => (p.premiseAt index cited).toOption :=
  Except.toOption_mapM _ _

/-! ### Premises with the line that gives none -/

theorem premisesById_eq_mapM (p : Proof) (index : Nat) (line : Line) :
    p.premisesById index line =
      (p.premiseNumbers line).mapM fun cited => (p.premiseAt index cited).mapError p.lineId? :=
  Except.mapError_mapM _ _ _

theorem mapError_premiseAt (p : Proof) (index cited : Nat) :
    (p.premiseAt index cited).mapError p.lineId? = do
      let sentence ← (p.sentenceAt cited).mapError p.lineId?
      if p.layout.isSubproofPremise cited index then
        let conclusions ← (p.layout.subproofConclusions cited).mapM fun position =>
          (p.sentenceAt position).mapError p.lineId?
        return .subproof sentence conclusions
      else
        return .line sentence := by
  rw [premiseAt, Except.mapError_bind]
  congr 1
  funext sentence
  split
  · rw [Except.mapError_bind, Except.mapError_mapM]
    rfl
  · rfl

/-! ### Cited subproofs -/

/-- The identities of the lines of the subproof that a line opens. -/
def subproofIds (p : Proof) (opener : Nat) : List LineId :=
  (p.layout.subproofRange opener).filterMap p.lineId?

theorem exists_lineId?_of_contains (hp : WellFormedLines p) {opener position : Nat}
    (h : p.layout.Contains opener position) : ∃ id, p.lineId? position = some id := by
  have hlt : position < p.lines.length := hp.length_layout ▸ h.lt_length
  exact ⟨_, congrArg (Option.map Line.id) (List.getElem?_eq_getElem hlt)⟩

namespace Moved

/-- Subproofs with the same lines have the same conclusions. -/
theorem forall₂_subproofConclusions (h : Moved p q) (hp : WellFormedLines p)
    (hq : WellFormedLines q) (hmatch : Matches p q i i') (hopens : p.layout.opens i = true)
    (hids : p.subproofIds i = q.subproofIds i') :
    List.Forall₂ (Matches p q) (p.layout.subproofConclusions i)
      (q.layout.subproofConclusions i') := by
  have hopens' : q.layout.opens i' = true := (h.opens_eq hmatch).trans hopens
  -- The rows of the subproofs correspond one by one.
  have hrange : List.Forall₂ (Matches p q) (p.layout.subproofRange i)
      (q.layout.subproofRange i') :=
    forall₂_of_filterMap_eq
      (fun _ hmem => exists_lineId?_of_contains hp ((Layout.mem_subproofRange hopens).1 hmem))
      (fun _ hmem => exists_lineId?_of_contains hq ((Layout.mem_subproofRange hopens').1 hmem))
      hids
  refine List.rel_filter (fun j j' hrow => ?_) (List.forall₂_drop 1 hrange)
  simp only [h.isAssumption_eq hrow, h.levelAt_eq hrow, h.levelAt_eq hmatch]

/-- A cited line gives the premise that it gave before, or fails to because of the same line. -/
theorem mapError_premiseAt_eq (h : Moved p q) (hp : WellFormedLines p) (hq : WellFormedLines q)
    {cited cited' : Nat} (hline : Matches p q i i') (hcited : Matches p q cited cited')
    (hsubproof : p.layout.isSubproofPremise cited i = true →
      p.subproofIds cited = q.subproofIds cited') :
    (q.premiseAt i' cited').mapError q.lineId? = (p.premiseAt i cited).mapError p.lineId? := by
  rw [mapError_premiseAt, mapError_premiseAt, h.mapError_sentenceAt_eq hcited,
    h.isSubproofPremise_eq hcited hline]
  cases hcase : p.layout.isSubproofPremise cited i with
  | false => rfl
  | true =>
    have hopens := Layout.opens_of_isSubproofPremise hcase
    have hconclusions :=
      h.forall₂_subproofConclusions hp hq hcited hopens (hsubproof hcase)
    rw [Except.mapM_congr_forall₂ hconclusions h.mapError_sentenceAt_eq]

/-- A line that keeps its citations, and whose cited subproofs have the same lines as before, has
the same premises. -/
theorem premisesById_eq (h : Moved p q) (hp : WellFormedLines p) (hq : WellFormedLines q)
    {line moved : Line} (hline : p.lines[i]? = some line) (hmoved : q.lines[i']? = some moved)
    (hid : moved.id = line.id) (hpremises : moved.premises = line.premises)
    (hsubproofs : ∀ id ∈ line.premises, ∀ {cited cited'}, p.lineId? cited = some id →
      q.lineId? cited' = some id → p.layout.isSubproofPremise cited i = true →
      p.subproofIds cited = q.subproofIds cited') :
    q.premisesById i' moved = p.premisesById i line := by
  have hmatch : Matches p q i i' := by
    refine ⟨line.id, ?_, ?_⟩
    · rw [lineId?, hline, Option.map_some]
    · rw [lineId?, hmoved, Option.map_some, hid]
  -- Cited positions correspond when they hold the line of one citation.
  let Cited (cited cited' : Nat) : Prop :=
    ∃ id ∈ line.premises, p.lineId? cited = some id ∧ q.lineId? cited' = some id
  have hcited : ∀ {cited cited'}, Cited cited cited' → Matches p q cited cited' := by
    rintro cited cited' ⟨id, -, hat, hat'⟩
    exact ⟨id, hat, hat'⟩
  -- Every citation has a position in both proofs.
  have hpositions : List.Forall₂ Cited (line.premises.filterMap p.position?)
      (line.premises.filterMap q.position?) := by
    have hfound : ∀ ids : List LineId, (∀ id ∈ ids, id ∈ line.premises) →
        List.Forall₂ Cited (ids.filterMap p.position?) (ids.filterMap q.position?) := by
      intro ids hids
      induction ids with
      | nil => exact .nil
      | cons id ids ih =>
        have hmem := hids id (.head _)
        obtain ⟨cited, hposition, -⟩ := hp.premise_accessible i line hline id hmem
        obtain ⟨cited', hposition', -⟩ :=
          hq.premise_accessible i' moved hmoved id (hpremises ▸ hmem)
        rw [List.filterMap_cons_some hposition, List.filterMap_cons_some hposition']
        refine .cons ⟨id, hmem, (hp.position_iff id cited).1 hposition,
          (hq.position_iff id cited').1 hposition'⟩ (ih fun id hid => hids id (.tail _ hid))
    exact hfound line.premises fun _ hid => hid
  have hnumbers : List.Forall₂ Cited (p.premiseNumbers line) (q.premiseNumbers moved) := by
    rw [premiseNumbers, premiseNumbers, hpremises]
    exact Ascending.forall₂_ofList (fun hi hj => h.lt_iff (hcited hi) (hcited hj)) hpositions
  rw [premisesById_eq_mapM, premisesById_eq_mapM]
  refine Except.mapM_congr_forall₂ hnumbers fun hmem => ?_
  obtain ⟨id, hid, hat, hat'⟩ := hmem
  exact h.mapError_premiseAt_eq hp hq hmatch ⟨id, hat, hat'⟩ (hsubproofs id hid hat hat')

end Moved

end Proof

end NaturalDeduction
