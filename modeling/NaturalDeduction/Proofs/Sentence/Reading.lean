/-
  What reading a text can give.

  A sentence that is read is expressible: its names come from words, a chain
  has an operand on each side of a connective, and the levels that its
  rendering takes up are levels that the reader went down for it.
-/

import NaturalDeduction.Proofs.Sentence.Spelling

namespace NaturalDeduction.Sentence

open Token

variable {last : Span} {tokens rest : List Token} {s : Sentence}

/-! ## Readers that keep to the grammar -/

/-- What the reader finds is grammatical, needs no more than the levels given where an operand must
bind as tightly as `least`, and leaves tokens whose words are names. -/
def ReadsWithin (levels least : Nat) (reader : PartReader) : Prop :=
  ∀ tokens s rest, Named tokens → reader tokens = .ok (s, rest) →
    Grammatical s ∧ depth least s ≤ levels ∧ Named rest

/-- How tightly the sentences of a category bind. -/
def Category.least : Category → Nat
  | .biconditional => 1
  | .implication => 2
  | .unit => 5

/-- Reading a nested part takes one level more than the part itself. -/
def NestsWithin (levels : Nat) (nested : NestedReader) : Prop :=
  ∀ category opener tokens s rest, Named tokens → nested category opener tokens = .ok (s, rest) →
    Grammatical s ∧ 1 + depth category.least s ≤ levels ∧ Named rest

/-! ## Single tokens -/

theorem readName_eq_ok {expected : Expected} {name : String}
    (h : readName last expected tokens = .ok (name, rest)) :
    ∃ token, tokens = token :: rest ∧ token.symbol = .word name := by
  unfold readName at h
  split at h
  · cases h
  · rename_i token others
    split at h
    · rename_i name hsymbol
      cases h
      exact ⟨token, rfl, hsymbol⟩
    · cases h

theorem isName_of_readName (hnamed : Named tokens) {expected : Expected} {name : String}
    (h : readName last expected tokens = .ok (name, rest)) : isName name = true ∧ Named rest := by
  obtain ⟨token, rfl, hsymbol⟩ := readName_eq_ok h
  obtain ⟨htoken, hrest⟩ := named_cons.1 hnamed
  exact ⟨htoken name hsymbol, hrest⟩

theorem named_of_readClosing (hnamed : Named tokens)
    (h : readClosing last tokens = .ok ((), rest)) : Named rest := by
  unfold readClosing at h
  split at h
  · cases h
  · split at h
    · cases h
      exact (named_cons.1 hnamed).2
    · cases h

theorem isName_of_readTerms {rounds : Nat} (hnamed : Named tokens) {names : List String}
    (h : readTerms last rounds tokens = .ok (names, rest)) :
    (∀ name ∈ names, isName name = true) ∧ Named rest := by
  induction rounds generalizing tokens names with
  | zero => cases h
  | succ rounds ih =>
    obtain ⟨⟨name, others⟩, hname, hmore⟩ := Except.bind_eq_ok.1 h
    obtain ⟨hisName, hothers⟩ := isName_of_readName hnamed hname
    dsimp only at hmore
    split at hmore
    · cases hmore
    · obtain ⟨-, hothers⟩ := named_cons.1 hothers
      split at hmore
      · obtain ⟨⟨more, rest'⟩, hterms, hdone⟩ := Except.bind_eq_ok.1 hmore
        cases hdone
        obtain ⟨hall, hrest⟩ := ih hothers hterms
        exact ⟨List.forall_mem_cons.2 ⟨hisName, hall⟩, hrest⟩
      · cases hmore
        exact ⟨by simpa using hisName, hothers⟩
      · cases hmore

/-! ## One level of the grammar -/

section Level

variable {levels : Nat} {nested : NestedReader}

theorem readsWithin_quantified (hnested : NestsWithin levels nested)
    {build : String → Sentence → Sentence}
    (hgrammatical : ∀ {x a}, isName x = true → Grammatical a → Grammatical (build x a))
    (hdepth : ∀ x a, depth 5 (build x a) = 1 + depth 5 a) :
    ReadsWithin levels 5 (readQuantified nested last build) := by
  intro tokens s rest hnamed h
  obtain ⟨⟨name, others⟩, hname, hbody⟩ := Except.bind_eq_ok.1 h
  obtain ⟨hisName, hothers⟩ := isName_of_readName hnamed hname
  obtain ⟨⟨body, rest'⟩, hread, hdone⟩ := Except.bind_eq_ok.1 hbody
  cases hdone
  obtain ⟨hbody, hlevels, hrest⟩ := hnested _ _ _ _ _ hothers hread
  exact ⟨hgrammatical hisName hbody, (hdepth name body) ▸ hlevels, hrest⟩

theorem readsWithin_unit (hnested : NestsWithin levels nested) :
    ReadsWithin levels 5 (readUnit nested last) := by
  intro tokens s rest hnamed h
  cases tokens with
  | nil => cases h
  | cons token tokens =>
    obtain ⟨hword, htokens⟩ := named_cons.1 hnamed
    unfold readUnit at h
    dsimp only at h
    -- One case for each symbol that a unit may begin with.
    split at h
    · obtain ⟨⟨body, rest'⟩, hread, hdone⟩ := Except.bind_eq_ok.1 h
      cases hdone
      obtain ⟨hbody, hlevels, hrest⟩ := hnested _ _ _ _ _ htokens hread
      exact ⟨.not hbody, (depth_not body) ▸ hlevels, hrest⟩
    · exact readsWithin_quantified hnested .forAll depth_forAll _ _ _ htokens h
    · exact readsWithin_quantified hnested .thereExists depth_thereExists _ _ _ htokens h
    · obtain ⟨⟨inner, rest'⟩, hread, hclosing⟩ := Except.bind_eq_ok.1 h
      obtain ⟨⟨_, rest''⟩, hclose, hdone⟩ := Except.bind_eq_ok.1 hclosing
      cases hdone
      obtain ⟨hinner, hlevels, hrest⟩ := hnested _ _ _ _ _ htokens hread
      rw [Category.least, depth_one] at hlevels
      -- The level of the parentheses pays for those that the rendering may need.
      have hdepth := Nat.le_trans (depth_le 5 inner) hlevels
      exact ⟨hinner, hdepth, named_of_readClosing hrest hclose⟩
    · cases h
      exact ⟨.falsum, Nat.zero_le _, htokens⟩
    · cases h
      exact ⟨.verum, Nat.zero_le _, htokens⟩
    · rename_i name hsymbol
      split at h
      · rename_i others
        obtain ⟨⟨terms, rest'⟩, hterms, hdone⟩ := Except.bind_eq_ok.1 h
        cases hdone
        obtain ⟨hall, hrest⟩ := isName_of_readTerms (named_cons.1 htokens).2 hterms
        exact ⟨.predicate (hword name hsymbol) hall, Nat.zero_le _, hrest⟩
      · cases h
        exact ⟨.predicate (hword name hsymbol) (by simp), Nat.zero_le _, htokens⟩
    · cases h

theorem readsWithin_more {connective : Symbol} {least : Nat} {readOperand : PartReader}
    (hoperand : ReadsWithin levels least readOperand) {rounds : Nat} {operands : List Sentence}
    (hnamed : Named tokens)
    (h : readMore connective readOperand rounds tokens = .ok (operands, rest)) :
    (∀ a ∈ operands, Grammatical a ∧ depth least a ≤ levels) ∧ Named rest := by
  induction rounds generalizing tokens operands with
  | zero =>
    cases h
    exact ⟨by simp, hnamed⟩
  | succ rounds ih =>
    cases tokens with
    | nil =>
      cases h
      exact ⟨by simp, hnamed⟩
    | cons token tokens =>
      simp only [readMore] at h
      split at h
      · obtain ⟨⟨operand, rest'⟩, hread, hmore⟩ := Except.bind_eq_ok.1 h
        obtain ⟨⟨others, rest''⟩, hothers, hdone⟩ := Except.bind_eq_ok.1 hmore
        cases hdone
        obtain ⟨hgrammatical, hlevels, hrest⟩ := hoperand _ _ _ (named_cons.1 hnamed).2 hread
        obtain ⟨hall, hrest⟩ := ih hrest hothers
        exact ⟨List.forall_mem_cons.2 ⟨⟨hgrammatical, hlevels⟩, hall⟩, hrest⟩
      · cases h
        exact ⟨by simp, hnamed⟩

/-- A chain of one operand is that operand; a longer one binds less tightly than its operands. -/
theorem readsWithin_chain {connective : Symbol} {least : Nat} {readOperand : PartReader}
    (hoperand : ReadsWithin levels (least + 1) readOperand) {join : List Sentence → Sentence}
    (hone : ∀ a, join [a] = a)
    (hmany : ∀ as, 2 ≤ as.length → (∀ a ∈ as, Grammatical a ∧ depth (least + 1) a ≤ levels) →
      Grammatical (join as) ∧ depth least (join as) ≤ levels) :
    ReadsWithin levels least (readChain connective join readOperand) := by
  intro tokens s rest hnamed h
  obtain ⟨⟨first, others⟩, hfirst, hmore⟩ := Except.bind_eq_ok.1 h
  obtain ⟨⟨more, rest'⟩, hothers, hdone⟩ := Except.bind_eq_ok.1 hmore
  cases hdone
  obtain ⟨hgrammatical, hlevels, hnamed'⟩ := hoperand _ _ _ hnamed hfirst
  obtain ⟨hall, hrest⟩ := readsWithin_more hoperand hnamed' hothers
  cases more with
  | nil =>
    rw [hone]
    exact ⟨hgrammatical, Nat.le_trans (depth_le_depth (Nat.le_succ _) first) hlevels, hrest⟩
  | cons second more =>
    obtain ⟨hjoined, hdepth⟩ := hmany (first :: second :: more) (by simp)
      (List.forall_mem_cons.2 ⟨⟨hgrammatical, hlevels⟩, hall⟩)
    exact ⟨hjoined, hdepth, hrest⟩

theorem readsWithin_conjunction (hnested : NestsWithin levels nested) :
    ReadsWithin levels 4 (readConjunction nested last) := by
  refine readsWithin_chain (readsWithin_unit hnested) (fun _ => rfl) fun as hcount has => ?_
  rw [conjunction_of_two_le hcount]
  exact ⟨.and hcount fun c hc => (has c hc).1, depth_and_le_iff.2 fun c hc => (has c hc).2⟩

theorem readsWithin_disjunction (hnested : NestsWithin levels nested) :
    ReadsWithin levels 3 (readDisjunction nested last) := by
  refine readsWithin_chain (readsWithin_conjunction hnested) (fun _ => rfl) fun as hcount has => ?_
  rw [disjunction_of_two_le hcount]
  exact ⟨.or hcount fun c hc => (has c hc).1, depth_or_le_iff.2 fun c hc => (has c hc).2⟩

/-- A right operand is nested one level; without one the left operand is all there is. -/
theorem readsWithin_right (category : Category) (hnested : NestsWithin levels nested)
    {connective : Symbol} {readLeft : PartReader}
    (hleft : ReadsWithin levels (category.least + 1) readLeft)
    {build : Sentence → Sentence → Sentence}
    (hgrammatical : ∀ {a b}, Grammatical a → Grammatical b → Grammatical (build a b))
    (hdepth : ∀ a b, depth category.least (build a b) =
      max (depth (category.least + 1) a) (1 + depth category.least b)) :
    ReadsWithin levels category.least (readRight nested connective category build readLeft) := by
  intro tokens s rest hnamed h
  obtain ⟨⟨left, others⟩, hread, hright⟩ := Except.bind_eq_ok.1 h
  obtain ⟨hleft, hlevels, hothers⟩ := hleft _ _ _ hnamed hread
  have halone : Grammatical left ∧ depth category.least left ≤ levels :=
    ⟨hleft, Nat.le_trans (depth_le_depth (Nat.le_succ _) left) hlevels⟩
  dsimp only at hright
  split at hright
  · split at hright
    · obtain ⟨⟨right, rest'⟩, hnestedRead, hdone⟩ := Except.bind_eq_ok.1 hright
      cases hdone
      obtain ⟨hb, hblevels, hrest⟩ := hnested _ _ _ _ _ (named_cons.1 hothers).2 hnestedRead
      refine ⟨hgrammatical hleft hb, ?_, hrest⟩
      rw [hdepth]
      exact Nat.max_le.2 ⟨hlevels, hblevels⟩
    · cases hright
      exact ⟨halone.1, halone.2, hothers⟩
  · cases hright
    exact ⟨halone.1, halone.2, hothers⟩

theorem readsWithin_implication (hnested : NestsWithin levels nested) :
    ReadsWithin levels 2 (readImplication nested last) :=
  readsWithin_right .implication hnested (readsWithin_disjunction hnested) .implies
    depth_implies

theorem readsWithin_biconditional (hnested : NestsWithin levels nested) :
    ReadsWithin levels 1 (readBiconditional nested last) :=
  readsWithin_right .biconditional hnested (readsWithin_implication hnested) .iff
    depth_iff

end Level

/-! ## The whole grammar -/

/-- A reader with a number of levels left goes down no further. -/
theorem nestsWithin_readAt (last : Span) (levels : Nat) :
    NestsWithin levels (readAt last levels) := by
  induction levels with
  | zero =>
    intro category opener tokens s rest _ h
    cases h
  | succ levels ih =>
    intro category opener tokens s rest hnamed h
    have hread : Grammatical s ∧ depth category.least s ≤ levels ∧ Named rest := by
      cases category with
      | biconditional => exact readsWithin_biconditional ih _ _ _ hnamed h
      | implication => exact readsWithin_implication ih _ _ _ hnamed h
      | unit => exact readsWithin_unit ih _ _ _ hnamed h
    exact ⟨hread.1, by omega, hread.2.2⟩

/-- A sentence that is read is grammatical, and its rendering is nested no deeper than the limit. -/
theorem nesting_le_of_readUpTo {limit : Nat} {text : String}
    (h : readUpTo limit text = .ok (some s)) : Grammatical s ∧ s.nesting ≤ limit := by
  obtain ⟨tokens, hscan, hread⟩ := Except.bind_eq_ok.1 h
  have hnamed := named_of_scan hscan
  cases tokens with
  | nil => cases hread
  | cons first more =>
    obtain ⟨sentence, htokens, hdone⟩ := Except.bind_eq_ok.1 hread
    cases hdone
    obtain ⟨⟨found, rest⟩, hfound, hend⟩ := Except.bind_eq_ok.1 htokens
    obtain ⟨hgrammatical, hlevels, -⟩ := nestsWithin_readAt _ _ _ _ _ _ _ hnamed hfound
    rw [Category.least, depth_one] at hlevels
    cases rest with
    | nil =>
      cases hend
      exact ⟨hgrammatical, by omega⟩
    | cons token rest => cases hend

/-- A sentence that is read is expressible. -/
theorem expressible_of_read {text : String} (h : read text = .ok (some s)) : Expressible s := by
  rw [read_eq_readUpTo] at h
  obtain ⟨hgrammatical, hnesting⟩ := nesting_le_of_readUpTo h
  exact ⟨hgrammatical, hnesting⟩

end NaturalDeduction.Sentence
