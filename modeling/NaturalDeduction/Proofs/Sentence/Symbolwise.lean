/-
  Reading by symbols.

  The reader looks at the symbols of tokens only. Their spans go into failures,
  to be highlighted, but neither into sentences nor into messages. So two lists
  of tokens for the same symbols are read to the same sentence, or are both
  rejected for the same cause, however the symbols are spelled in the two texts.
-/

import NaturalDeduction.Sentence.Reader

namespace NaturalDeduction.Sentence

variable {α β : Type}

/-! ## Outcomes without spans -/

/-- The tokens stand for the same symbols, wherever they are in their texts. -/
inductive SameSymbols : List Token → List Token → Prop where
  | nil : SameSymbols [] []
  | cons (symbol : Symbol) (span span' : Span) {tokens tokens' : List Token}
      (h : SameSymbols tokens tokens') : SameSymbols (⟨symbol, span⟩ :: tokens)
        (⟨symbol, span'⟩ :: tokens')

theorem sameSymbols_of_map_eq {tokens tokens' : List Token}
    (h : tokens.map Token.symbol = tokens'.map Token.symbol) : SameSymbols tokens tokens' := by
  induction tokens generalizing tokens' with
  | nil =>
    obtain rfl := List.map_eq_nil_iff.1 h.symm
    exact .nil
  | cons token tokens ih =>
    obtain ⟨⟨_, span'⟩, others, rfl, rfl, hothers⟩ := List.map_eq_cons_iff.1 h.symm
    exact .cons _ _ _ (ih hothers.symm)

theorem SameSymbols.length_eq {tokens tokens' : List Token} (h : SameSymbols tokens tokens') :
    tokens.length = tokens'.length := by
  induction h with
  | nil => rfl
  | cons _ _ _ _ ih => exact congrArg Nat.succ ih

/-- The outcomes are the same but for spans: the same is read and the tokens left over stand for the
same symbols, or there are two failures with one cause. -/
inductive Alike : Reading (α × List Token) → Reading (α × List Token) → Prop where
  | ok (a : α) {rest rest' : List Token} (h : SameSymbols rest rest') :
      Alike (.ok (a, rest)) (.ok (a, rest'))
  | error {failure failure' : ParseFailure} (h : failure.cause = failure'.cause) :
      Alike (.error failure) (.error failure')

/-- From tokens for the same symbols the outcomes are alike. -/
def ReadsAlike (reader reader' : List Token → Reading (α × List Token)) : Prop :=
  ∀ ⦃tokens tokens'⦄, SameSymbols tokens tokens' → Alike (reader tokens) (reader' tokens')

/-- The same for nested parts, whatever tokens open them. -/
def NestsAlike (nested nested' : NestedReader) : Prop :=
  ∀ category opener opener', ReadsAlike (nested category opener) (nested' category opener')

theorem Alike.bind {x x' : Reading (α × List Token)}
    {f f' : α × List Token → Reading (β × List Token)} (h : Alike x x')
    (hf : ∀ a rest rest', SameSymbols rest rest' → Alike (f (a, rest)) (f' (a, rest'))) :
    Alike (x >>= f) (x' >>= f') := by
  cases h with
  | ok a hrest => exact hf a _ _ hrest
  | error hcause => exact .error hcause

/-- A last step that looks only at the symbols left over keeps outcomes the same but for spans. -/
theorem Alike.bind_cause_eq {x x' : Reading (α × List Token)} {f f' : α × List Token → Reading β}
    (h : Alike x x') (hf : ∀ a rest rest', SameSymbols rest rest' →
      (f (a, rest)).mapError ParseFailure.cause = (f' (a, rest')).mapError ParseFailure.cause) :
    (x >>= f).mapError ParseFailure.cause = (x' >>= f').mapError ParseFailure.cause := by
  cases h with
  | ok a hrest => exact hf a _ _ hrest
  | error hcause => exact congrArg Except.error hcause

variable {last last' : Span} {nested nested' : NestedReader}

/-! ## Single tokens and terms -/

theorem readsAlike_name (expected : Expected) :
    ReadsAlike (readName last expected) (readName last' expected) := by
  intro tokens tokens' h
  cases h with
  | nil => exact .error rfl
  | cons symbol _ _ hrest =>
    cases symbol with
    | word name => exact .ok name hrest
    | _ => exact .error rfl

theorem readsAlike_closing : ReadsAlike (readClosing last) (readClosing last') := by
  intro tokens tokens' h
  cases h with
  | nil => exact .error rfl
  | cons symbol _ _ hrest =>
    simp only [readClosing]
    split
    · exact .ok () hrest
    · exact .error rfl

theorem readsAlike_terms (rounds : Nat) :
    ReadsAlike (readTerms last rounds) (readTerms last' rounds) := by
  induction rounds with
  | zero => exact fun _ _ _ => .error rfl
  | succ rounds ih =>
    intro tokens tokens' h
    refine (readsAlike_name .term h).bind fun name rest rest' hrest => ?_
    cases hrest with
    | nil => exact .error rfl
    | cons symbol _ _ hrest =>
      cases symbol with
      | comma => exact (ih hrest).bind fun names _ _ hrest => .ok (name :: names) hrest
      | closeParen => exact .ok [name] hrest
      | _ => exact .error rfl

/-! ## One level of the grammar -/

theorem readsAlike_quantified (hnested : NestsAlike nested nested')
    (build : String → Sentence → Sentence) :
    ReadsAlike (readQuantified nested last build) (readQuantified nested' last' build) := by
  intro tokens tokens' h
  refine (readsAlike_name .variableName h).bind fun name rest rest' hrest => ?_
  exact (hnested .unit _ _ hrest).bind fun body _ _ hrest => .ok (build name body) hrest

theorem readsAlike_unit (hnested : NestsAlike nested nested') :
    ReadsAlike (readUnit nested last) (readUnit nested' last') := by
  intro tokens tokens' h
  cases h with
  | nil => exact .error rfl
  | cons symbol _ _ hrest =>
    -- One case for each symbol that a unit may begin with.
    cases symbol with
    | not => exact (hnested .unit _ _ hrest).bind fun body _ _ hrest => .ok (not body) hrest
    | forAll => exact readsAlike_quantified hnested .forAll hrest
    | thereExists => exact readsAlike_quantified hnested .thereExists hrest
    | openParen =>
      refine (hnested .biconditional _ _ hrest).bind fun inner _ _ hrest => ?_
      exact (readsAlike_closing hrest).bind fun _ _ _ hrest => .ok inner hrest
    | falsum => exact .ok falsum hrest
    | verum => exact .ok verum hrest
    | word name =>
      cases hrest with
      | nil => exact .ok (predicate name []) .nil
      | @cons symbol span span' others others' hothers =>
        cases symbol with
        | openParen =>
          -- As many tokens are left on both sides, which gives the same number of rounds.
          show Alike (readTerms last others.length others >>= _)
            (readTerms last' others'.length others' >>= _)
          rw [← hothers.length_eq]
          exact (readsAlike_terms _ hothers).bind fun terms _ _ hrest =>
            .ok (predicate name terms) hrest
        | _ => exact .ok (predicate name []) (.cons _ _ _ hothers)
    | _ => exact .error rfl

theorem readsAlike_more (connective : Symbol) {readOperand readOperand' : PartReader}
    (hoperand : ReadsAlike readOperand readOperand') (rounds : Nat) :
    ReadsAlike (readMore connective readOperand rounds)
      (readMore connective readOperand' rounds) := by
  induction rounds with
  | zero => exact fun _ _ h => .ok [] h
  | succ rounds ih =>
    intro tokens tokens' h
    cases h with
    | nil => exact .ok [] .nil
    | cons symbol span span' hrest =>
      simp only [readMore]
      split
      · refine (hoperand hrest).bind fun operand _ _ hrest => ?_
        exact (ih hrest).bind fun operands _ _ hrest => .ok (operand :: operands) hrest
      · exact .ok [] (.cons symbol span span' hrest)

theorem readsAlike_chain (connective : Symbol) (join : List Sentence → Sentence)
    {readOperand readOperand' : PartReader} (hoperand : ReadsAlike readOperand readOperand') :
    ReadsAlike (readChain connective join readOperand)
      (readChain connective join readOperand') := by
  intro tokens tokens' h
  refine (hoperand h).bind fun first rest rest' hrest => ?_
  dsimp only
  rw [← hrest.length_eq]
  exact (readsAlike_more connective hoperand _ hrest).bind fun more _ _ hrest =>
    .ok (join (first :: more)) hrest

theorem readsAlike_right (hnested : NestsAlike nested nested') (connective : Symbol)
    (category : Category) (build : Sentence → Sentence → Sentence)
    {readLeft readLeft' : PartReader} (hleft : ReadsAlike readLeft readLeft') :
    ReadsAlike (readRight nested connective category build readLeft)
      (readRight nested' connective category build readLeft') := by
  intro tokens tokens' h
  refine (hleft h).bind fun left rest rest' hrest => ?_
  cases hrest with
  | nil => exact .ok left .nil
  | cons symbol span span' hrest =>
    dsimp only
    split
    · exact (hnested category _ _ hrest).bind fun right _ _ hrest => .ok (build left right) hrest
    · exact .ok left (.cons symbol span span' hrest)

theorem readsAlike_category (hnested : NestsAlike nested nested') (category : Category) :
    ReadsAlike (readCategory nested last category) (readCategory nested' last' category) := by
  have hunit : ReadsAlike (readUnit nested last) (readUnit nested' last') :=
    readsAlike_unit hnested
  have hdisjunction : ReadsAlike (readDisjunction nested last) (readDisjunction nested' last') :=
    readsAlike_chain .or disjunction (readsAlike_chain .and conjunction hunit)
  have himplication : ReadsAlike (readImplication nested last) (readImplication nested' last') :=
    readsAlike_right hnested .implies .implication implies hdisjunction
  cases category with
  | biconditional => exact readsAlike_right hnested .iff .biconditional iff himplication
  | implication => exact himplication
  | unit => exact hunit

/-! ## The whole grammar -/

theorem nestsAlike_readAt (last last' : Span) (levels : Nat) :
    NestsAlike (readAt last levels) (readAt last' levels) := by
  induction levels with
  | zero => exact fun _ _ _ _ _ _ => .error rfl
  | succ levels ih => exact fun category _ _ => readsAlike_category ih category

/-- Tokens for the same symbols are read to the same sentence, or rejected for the same cause. -/
theorem ofTokens_cause_eq {first first' : Token} {others others' : List Token}
    (h : SameSymbols (first :: others) (first' :: others')) :
    (ofTokens first others).mapError ParseFailure.cause =
      (ofTokens first' others').mapError ParseFailure.cause := by
  have hread := nestsAlike_readAt ((first :: others).getLast (List.cons_ne_nil _ _)).span
    ((first' :: others').getLast (List.cons_ne_nil _ _)).span (maxDepth + 1) .biconditional
    first.span first'.span h
  refine hread.bind_cause_eq fun s rest rest' hrest => ?_
  cases hrest <;> rfl

/-- Texts whose tokens stand for the same symbols are read to the same sentence, or rejected for the
same cause. -/
theorem read_cause_eq {text text' : String} {tokens tokens' : List Token}
    (hscan : Token.scan text = .ok tokens) (hscan' : Token.scan text' = .ok tokens')
    (h : SameSymbols tokens tokens') :
    (read text).mapError ParseFailure.cause = (read text').mapError ParseFailure.cause := by
  have hmap : ∀ outcome : Reading Sentence,
      (outcome >>= fun s => pure (some s)).mapError ParseFailure.cause =
        (outcome.mapError ParseFailure.cause).map some := by
    intro outcome
    cases outcome <;> rfl
  -- Scanning has gone well on both sides; what is left is the reading of the tokens.
  unfold read
  rw [hscan, hscan']
  cases h with
  | nil => rfl
  | cons symbol span span' hothers =>
    have hread := ofTokens_cause_eq (.cons symbol span span' hothers)
    exact (hmap _).trans ((congrArg (Except.map some) hread).trans (hmap _).symm)

/-- Texts whose tokens stand for the same symbols are read to the same sentence, or rejected with
the same message. -/
theorem read_message_eq {text text' : String} {tokens tokens' : List Token}
    (hscan : Token.scan text = .ok tokens) (hscan' : Token.scan text' = .ok tokens')
    (h : SameSymbols tokens tokens') :
    (read text).mapError ParseFailure.message = (read text').mapError ParseFailure.message := by
  have hmessage : ∀ outcome : Reading (Option Sentence), outcome.mapError ParseFailure.message =
      (outcome.mapError ParseFailure.cause).mapError ParseCause.message := by
    intro outcome
    cases outcome <;> rfl
  rw [hmessage, hmessage, read_cause_eq hscan hscan' h]

end NaturalDeduction.Sentence
