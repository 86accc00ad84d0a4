/-
  How far a reader gets.

  A reader goes on for as long as its tokens begin a phrase and stops at the
  first one that cannot go on with it, whatever stands behind that token. The
  readers with more levels do the same and stop at the same token, so that only
  the nesting limit depends on the levels. `Tracks` says this of one outcome
  next to the readers with more levels; each reader of the grammar has one lemma
  for it.
-/

import NaturalDeduction.Proofs.Sentence.Phrase

namespace NaturalDeduction.Sentence

open Token

/-! ## Languages -/

/-- The words among the symbols are names. -/
def NamedSymbols (symbols : List Symbol) : Prop :=
  ∀ name, .word name ∈ symbols → isName name = true

/-- Further symbols, of which there is one at least, complete the symbols to some of the
language. -/
def Completable (language : List Symbol → Prop) (symbols : List Symbol) : Prop :=
  ∃ more, more ≠ [] ∧ NamedSymbols more ∧ language (symbols ++ more)

/-- The symbols form a phrase, however deep it is nested. -/
def IsPhrase (phrase : Phrase) (symbols : List Symbol) : Prop :=
  ∃ s depth, Derives phrase symbols s depth

/-- The symbols form a chain of phrases, however deep they are nested. -/
def IsChain (connective : Symbol) (phrase : Phrase) (symbols : List Symbol) : Prop :=
  ∃ operands depth, Chain connective phrase symbols operands depth

/-- The symbols turn every phrase in front of them into a chain. -/
def GoesOn (connective : Symbol) (phrase : Phrase) (symbols : List Symbol) : Prop :=
  ∀ first, IsPhrase phrase first → IsChain connective phrase (first ++ symbols)

/-- The symbols are names with commas between them and a closing parenthesis behind. -/
def IsTerms (symbols : List Symbol) : Prop :=
  ∃ names inner, symbols = inner ++ [.closeParen] ∧ Names inner names

variable {symbols left right : List Symbol} {phrase : Phrase} {connective : Symbol}
  {language language' : List Symbol → Prop}

theorem namedSymbols_nil : NamedSymbols [] := by
  simp [NamedSymbols]

theorem namedSymbols_append {a b : List Symbol} (ha : NamedSymbols a) (hb : NamedSymbols b) :
    NamedSymbols (a ++ b) := by
  intro name hmem
  exact (List.mem_append.1 hmem).elim (ha name) (hb name)

/-- What completes a part completes the whole, when every part of its kind can be completed. -/
theorem Completable.trans (h : Completable language symbols)
    (hlanguage : ∀ symbols, language symbols →
      ∃ more, NamedSymbols more ∧ language' (symbols ++ more)) :
    Completable language' symbols := by
  obtain ⟨more, hne, hnamed, hmore⟩ := h
  obtain ⟨further, hfurther, hwhole⟩ := hlanguage _ hmore
  rw [List.append_assoc] at hwhole
  exact ⟨more ++ further, by simp [hne], namedSymbols_append hnamed hfurther, hwhole⟩

theorem IsPhrase.isChain (h : IsPhrase phrase symbols) : IsChain connective phrase symbols := by
  obtain ⟨s, depth, hs⟩ := h
  exact ⟨_, _, .one hs⟩

theorem IsChain.cons (h : IsPhrase phrase left) (hmore : IsChain connective phrase right) :
    IsChain connective phrase (left ++ connective :: right) := by
  obtain ⟨s, m, hs⟩ := h
  obtain ⟨operands, n, hoperands⟩ := hmore
  exact ⟨_, _, .more hs hoperands⟩

/-! ## Outcomes -/

section Outcomes

variable {α β : Type} {last : Span} {spans : List Span} {tokens rest : List Token} {token : Token}
  {readers : Nat → List Token → Reading (α × List Token)} {first : Reading (α × List Token)}

/-- The outcome of reading tokens, next to readers of the same language with more and more levels.
What is read belongs to the language, and the others read it too if the same token follows. Else
the nesting limit stands at one of the spans; or the tokens end where some more of them are needed;
or the tokens before one can be completed and the others fail with that one there, whatever stands
behind it. -/
inductive Tracks (last : Span) (spans : List Span) (language : List Symbol → Prop)
    (readers : Nat → List Token → Reading (α × List Token)) (tokens : List Token) :
    Reading (α × List Token) → Prop where
  | read (part : List Token) {rest : List Token} {a : α} (htokens : tokens = part ++ rest)
      (hpart : language (part.map Token.symbol))
      (hreads : ∀ levels others, others.head? = rest.head? →
        readers levels (part ++ others) = .ok (a, others)) :
      Tracks last spans language readers tokens (.ok (a, rest))
  | tooDeep {span : Span} (h : span ∈ spans) :
      Tracks last spans language readers tokens (.error (.spanning span .tooDeep))
  | ended {expected : Expected} (hviable : Completable language (tokens.map Token.symbol))
      (hfails : ∀ levels result, readers levels tokens ≠ .ok result) :
      Tracks last spans language readers tokens (.error (endedBefore last expected))
  | found (before : List Token) {later : List Token} {bad : Token} {expected : Expected}
      (htokens : tokens = before ++ bad :: later)
      (hviable : Completable language (before.map Token.symbol))
      (hfails : ∀ levels others result, readers levels (before ++ bad :: others) ≠ .ok result) :
      Tracks last spans language readers tokens
        (.error (.spanning bad.span (.foundInstead expected bad.symbol)))

/-- Nothing is taken. -/
theorem Tracks.none_taken {a : α} (hlanguage : language [])
    (hreads : ∀ levels others, others.head? = tokens.head? →
      readers levels others = .ok (a, others)) :
    Tracks last spans language readers tokens (.ok (a, tokens)) :=
  .read [] rfl hlanguage hreads

/-- There is no token left. -/
theorem Tracks.none_left {expected : Expected} (hviable : Completable language [])
    (hfails : ∀ levels result, readers levels [] ≠ .ok result) :
    Tracks last spans language readers [] (.error (endedBefore last expected)) :=
  .ended hviable hfails

/-- The next token is the wrong one. -/
theorem Tracks.unexpected {expected : Expected} (hviable : Completable language [])
    (hfails : ∀ levels others result, readers levels (token :: others) ≠ .ok result) :
    Tracks last spans language readers (token :: rest)
      (.error (.spanning token.span (.foundInstead expected token.symbol))) :=
  .found [] rfl hviable hfails

/-- The next token is taken, and the rest is read by other readers. -/
theorem Tracks.cons {readers' : Nat → List Token → Reading (α × List Token)}
    (h : Tracks last spans (fun symbols => language (token.symbol :: symbols)) readers' rest first)
    (hreaders : ∀ levels others, readers levels (token :: others) = readers' levels others) :
    Tracks last spans language readers (token :: rest) first := by
  cases h with
  | read part htokens hpart hreads =>
    refine .read (token :: part) (congrArg (token :: ·) htokens) hpart fun levels others hhead => ?_
    rw [List.cons_append, hreaders]
    exact hreads levels others hhead
  | tooDeep hspan => exact .tooDeep hspan
  | ended hviable hfails =>
    refine .ended hviable fun levels result => ?_
    rw [hreaders]
    exact hfails levels result
  | found before htokens hviable hfails =>
    refine .found (token :: before) (congrArg (token :: ·) htokens) hviable
      fun levels others result => ?_
    rw [List.cons_append, hreaders]
    exact hfails levels others result

/-- One reader after another. The second one is tracked behind whatever the first one reads. -/
theorem Tracks.bind {next : Nat → α × List Token → Reading (β × List Token)}
    {goOn : α × List Token → Reading (β × List Token)}
    (h : Tracks last spans language readers tokens first)
    (hlanguage : ∀ symbols, language symbols →
      ∃ more, NamedSymbols more ∧ language' (symbols ++ more))
    (hnext : ∀ part rest a, tokens = part ++ rest → language (part.map Token.symbol) →
      Tracks last spans (fun symbols => language' (part.map Token.symbol ++ symbols))
        (fun levels rest => next levels (a, rest)) rest (goOn (a, rest))) :
    Tracks last spans language' (fun levels tokens => readers levels tokens >>= next levels) tokens
      (first >>= goOn) := by
  cases h with
  | @read part rest a htokens hpart hreads =>
    have hthen := hnext part rest a htokens hpart
    -- The first reader gives the same result when the same token stands behind its part.
    have hfirst : ∀ levels others, others.head? = rest.head? →
        (readers levels (part ++ others) >>= next levels) = next levels (a, others) := by
      intro levels others hhead
      rw [hreads levels others hhead]
      rfl
    change Tracks _ _ _ _ _ (goOn (a, rest))
    subst htokens
    generalize goOn (a, rest) = outcome at hthen
    cases hthen with
    | @read part' rest' b htokens' hpart' hreads' =>
      subst htokens'
      refine .read (part ++ part') (List.append_assoc ..).symm (by rwa [List.map_append])
        fun levels others hhead => ?_
      have hhead' : (part' ++ others).head? = (part' ++ rest').head? := by
        rw [List.head?_append, List.head?_append, hhead]
      rw [List.append_assoc, hfirst levels _ hhead']
      exact hreads' levels others hhead
    | tooDeep hspan => exact .tooDeep hspan
    | ended hviable hfails =>
      refine .ended ?_ fun levels result => ?_
      · obtain ⟨more, hne, hnamed, hmore⟩ := hviable
        exact ⟨more, hne, hnamed, by rwa [List.map_append, List.append_assoc]⟩
      · rw [hfirst levels _ rfl]
        exact hfails levels result
    | @found before later bad expected htokens' hviable hfails =>
      subst htokens'
      refine .found (part ++ before) (List.append_assoc ..).symm ?_ fun levels others result => ?_
      · obtain ⟨more, hne, hnamed, hmore⟩ := hviable
        exact ⟨more, hne, hnamed, by rwa [List.map_append, List.append_assoc]⟩
      · have hhead : (before ++ bad :: others).head? = (before ++ bad :: later).head? := by
          rw [List.head?_append, List.head?_append]
          rfl
        rw [List.append_assoc, hfirst levels _ hhead]
        exact hfails levels others result
  | tooDeep hspan => exact .tooDeep hspan
  | ended hviable hfails =>
    refine .ended (hviable.trans hlanguage) fun levels result hresult => ?_
    obtain ⟨found, hfound, -⟩ := Except.bind_eq_ok.1 hresult
    exact hfails levels found hfound
  | found before htokens hviable hfails =>
    refine .found before htokens (hviable.trans hlanguage) fun levels others result hresult => ?_
    obtain ⟨found, hfound, -⟩ := Except.bind_eq_ok.1 hresult
    exact hfails levels others found hfound

/-- Something is made of what is read. -/
theorem Tracks.map (h : Tracks last spans language readers tokens first)
    (hlanguage : ∀ symbols, language symbols → language' symbols) (f : α → β) :
    Tracks last spans language'
      (fun levels tokens => readers levels tokens >>= fun found => pure (f found.1, found.2)) tokens
      (first >>= fun found => pure (f found.1, found.2)) := by
  refine h.bind (fun symbols hsymbols => ⟨[], namedSymbols_nil, ?_⟩) fun part rest a _ hpart => ?_
  · rw [List.append_nil]
    exact hlanguage symbols hsymbols
  · refine .none_taken ?_ fun _ _ _ => rfl
    rw [List.append_nil]
    exact hlanguage _ hpart

end Outcomes

/-! ## Single tokens -/

section Level

variable {last : Span} {spans : List Span} {tokens rest : List Token} {levels : Nat}
  {nested : Nat → NestedReader}

/-- All of the tokens have their spans among the given ones. -/
def Within (spans : List Span) (tokens : List Token) : Prop :=
  ∀ token ∈ tokens, token.span ∈ spans

theorem within_cons {token : Token} :
    Within spans (token :: tokens) ↔ token.span ∈ spans ∧ Within spans tokens :=
  List.forall_mem_cons

theorem Within.of_append {part : List Token} (h : Within spans (part ++ rest)) :
    Within spans rest :=
  fun token hmem => h token (List.mem_append_right _ hmem)

theorem completable_of_word (name : String) (hname : isName name = true)
    (h : language [.word name]) : Completable language [] := by
  refine ⟨[.word name], by simp, fun other hother => ?_, h⟩
  obtain rfl : other = name := by simpa using hother
  exact hname

theorem completable_of_symbol {symbol : Symbol} (hsymbol : ∀ name, symbol ≠ .word name)
    (h : language (symbols ++ [symbol])) : Completable language symbols := by
  refine ⟨[symbol], by simp, fun name hname => ?_, h⟩
  exact absurd (List.mem_singleton.1 hname).symm (hsymbol name)

theorem isPhrase_verum : IsPhrase .unit [.verum] :=
  ⟨_, _, .verum⟩

theorem tracks_readName (expected : Expected) (tokens : List Token) :
    Tracks last spans (fun symbols => ∃ name, symbols = [.word name])
      (fun _ tokens => readName last expected tokens) tokens (readName last expected tokens) := by
  have hviable : Completable (fun symbols => ∃ name, symbols = [.word name]) [] :=
    completable_of_word "x" (by decide +kernel) ⟨"x", rfl⟩
  cases tokens with
  | nil => exact .none_left hviable fun _ _ h => by cases h
  | cons token rest =>
    obtain ⟨symbol, span⟩ := token
    cases symbol with
    | word name => exact .read [⟨.word name, span⟩] rfl ⟨name, rfl⟩ fun _ _ _ => rfl
    | _ => exact .unexpected hviable fun _ _ _ h => by cases h

theorem tracks_readClosing (tokens : List Token) :
    Tracks last spans (· = [.closeParen]) (fun _ tokens => readClosing last tokens) tokens
      (readClosing last tokens) := by
  have hviable : Completable (· = [.closeParen]) [] := completable_of_symbol (by simp) rfl
  cases tokens with
  | nil => exact .none_left hviable fun _ _ h => by cases h
  | cons token rest =>
    by_cases hclosing : token.symbol = .closeParen
    · have hread : ∀ others, readClosing last (token :: others) = .ok ((), others) :=
        fun _ => if_pos hclosing
      rw [hread]
      exact .read [token] rfl (congrArg ([·]) hclosing) fun _ others _ => hread others
    · have hread : ∀ others, readClosing last (token :: others) =
          .error (.spanning token.span (.foundInstead .closing token.symbol)) :=
        fun _ => if_neg hclosing
      rw [hread]
      refine .unexpected hviable fun _ others result h => ?_
      rw [hread] at h
      cases h

/-! ## Terms -/

/-- Reads the terms that follow a name, with one round for each of the tokens. -/
def readTermsBehind (last : Span) (found : String × List Token) :
    Reading (List String × List Token) :=
  match found.2 with
  | [] => .error (endedBefore last .separator)
  | token :: rest =>
    match token.symbol with
    | .comma => do
      let (names, rest) ← readTerms last rest.length rest
      return (found.1 :: names, rest)
    | .closeParen => return ([found.1], rest)
    | other => .error (.spanning token.span (.foundInstead .separator other))

/-- With enough rounds, terms are a name and the terms that follow it. -/
theorem readTerms_eq {rounds : Nat} (h : tokens.length ≤ rounds) :
    readTerms last rounds tokens = readName last .term tokens >>= readTermsBehind last := by
  induction rounds using Nat.strongRecOn generalizing tokens with
  | ind rounds ih =>
    cases rounds with
    | zero =>
      obtain rfl := List.length_eq_zero_iff.1 (Nat.le_zero.1 h)
      rfl
    | succ rounds =>
      cases tokens with
      | nil => rfl
      | cons token rest =>
        obtain ⟨symbol, span⟩ := token
        cases symbol with
        | word name =>
          cases rest with
          | nil => rfl
          | cons separator rest =>
            obtain ⟨symbol, span⟩ := separator
            cases symbol with
            | comma =>
              have hlength : rest.length + 1 ≤ rounds := Nat.le_of_succ_le_succ h
              -- Both numbers of rounds are enough for what follows the comma.
              have hrounds := ih rounds (Nat.lt_succ_self _) (show rest.length ≤ rounds by omega)
              have henough := ih rest.length (by omega) (Nat.le_refl rest.length)
              show (readTerms last rounds rest >>= _) = (readTerms last rest.length rest >>= _)
              rw [hrounds, henough]
            | _ => rfl
        | _ => rfl

theorem IsTerms.more (name : String) (h : IsTerms symbols) :
    IsTerms (.word name :: .comma :: symbols) := by
  obtain ⟨names, inner, rfl, hnames⟩ := h
  exact ⟨name :: names, .word name :: .comma :: inner, rfl, hnames.more name⟩

theorem isTerms_one (name : String) : IsTerms [.word name, .closeParen] :=
  ⟨[name], [.word name], rfl, .one name⟩

theorem tracks_readTerms (tokens : List Token) :
    Tracks last spans IsTerms (fun _ tokens => readTerms last tokens.length tokens) tokens
      (readTerms last tokens.length tokens) := by
  induction hlength : tokens.length using Nat.strongRecOn generalizing tokens with
  | ind length ih =>
    simp only [← hlength, readTerms_eq (Nat.le_refl _)]
    refine (tracks_readName .term tokens).bind ?_ fun part rest name htokens hpart => ?_
    · rintro symbols ⟨name, rfl⟩
      exact ⟨[.closeParen], by simp [NamedSymbols], isTerms_one name⟩
    · obtain ⟨word, hword⟩ := hpart
      rw [hword]
      have hviable : Completable (fun symbols => IsTerms ([.word word] ++ symbols)) [] :=
        completable_of_symbol (by simp) (isTerms_one word)
      cases rest with
      | nil => exact .none_left hviable fun _ _ h => by cases h
      | cons separator rest =>
        obtain ⟨symbol, span⟩ := separator
        cases symbol with
        | comma =>
          have hshorter : rest.length < length := by
            rw [← hlength, htokens, List.length_append, List.length_cons]
            omega
          have hrest := (ih _ hshorter rest rfl).map (fun symbols h => h.more word) (name :: ·)
          exact hrest.cons fun _ _ => rfl
        | closeParen => exact .read [⟨.closeParen, span⟩] rfl (isTerms_one word) fun _ _ _ => rfl
        | _ => exact .unexpected hviable fun _ _ _ h => by cases h

/-! ## Units -/

/-- Readers of nested parts are tracked wherever they stand. -/
def TracksNested (last : Span) (spans : List Span) (nested : Nat → NestedReader) : Prop :=
  ∀ category opener tokens, opener ∈ spans → Within spans tokens →
    Tracks last spans (IsPhrase category.phrase)
      (fun levels tokens => nested levels category opener tokens) tokens
      (nested 0 category opener tokens)

/-- Readers of phrases are tracked wherever they stand. -/
def TracksPhrase (last : Span) (spans : List Span) (phrase : Phrase)
    (readers : Nat → PartReader) : Prop :=
  ∀ tokens, Within spans tokens →
    Tracks last spans (IsPhrase phrase) (fun levels tokens => readers levels tokens) tokens
      (readers 0 tokens)

theorem tracks_readQuantified (hnested : TracksNested last spans nested)
    {build : String → Sentence → Sentence} {quantifier : Symbol}
    (hbuild : ∀ {x symbols s depth}, Derives .unit symbols s depth →
      Derives .unit (quantifier :: .word x :: symbols) (build x s) (depth + 1))
    (hwithin : Within spans tokens) :
    Tracks last spans (fun symbols => IsPhrase .unit (quantifier :: symbols))
      (fun levels tokens => readQuantified (nested levels) last build tokens) tokens
      (readQuantified (nested 0) last build tokens) := by
  have hquantified : ∀ x symbols, IsPhrase .unit symbols →
      IsPhrase .unit (quantifier :: .word x :: symbols) := by
    rintro x symbols ⟨s, depth, hs⟩
    exact ⟨_, _, hbuild hs⟩
  have hviable : Completable (fun symbols => IsPhrase .unit (quantifier :: symbols)) [] := by
    refine ⟨[.word "x", .verum], by simp, fun name hname => ?_, hquantified "x" _ isPhrase_verum⟩
    obtain rfl : name = "x" := by simpa using hname
    decide +kernel
  cases tokens with
  | nil => exact .none_left hviable fun _ _ h => by cases h
  | cons word rest =>
    obtain ⟨symbol, span⟩ := word
    obtain ⟨hspan, hrest⟩ := within_cons.1 hwithin
    cases symbol with
    | word x =>
      have hbody := (hnested .unit span rest hspan hrest).map (hquantified x) (build x)
      exact hbody.cons fun _ _ => rfl
    | _ => exact .unexpected hviable fun _ _ _ h => by cases h

theorem tracksPhrase_unit (hnested : TracksNested last spans nested) :
    TracksPhrase last spans .unit fun levels => readUnit (nested levels) last := by
  intro tokens hwithin
  change Tracks last spans (IsPhrase .unit)
    (fun levels tokens => readUnit (nested levels) last tokens) tokens
    (readUnit (nested 0) last tokens)
  have hviable : Completable (IsPhrase .unit) [] := completable_of_symbol (by simp) isPhrase_verum
  cases tokens with
  | nil => exact .none_left hviable fun _ _ h => by cases h
  | cons token rest =>
    obtain ⟨symbol, span⟩ := token
    obtain ⟨hspan, hrest⟩ := within_cons.1 hwithin
    -- One case for each symbol that a unit may begin with.
    cases symbol with
    | not =>
      have hnot : ∀ symbols, IsPhrase .unit symbols → IsPhrase .unit (.not :: symbols) := by
        rintro symbols ⟨s, depth, hs⟩
        exact ⟨_, _, hs.not⟩
      exact ((hnested .unit span rest hspan hrest).map hnot Sentence.not).cons fun _ _ => rfl
    | forAll => exact (tracks_readQuantified hnested (.forAll _) hrest).cons fun _ _ => rfl
    | thereExists =>
      exact (tracks_readQuantified hnested (.thereExists _) hrest).cons fun _ _ => rfl
    | openParen =>
      have henclosed : ∀ symbols, IsPhrase .biconditional symbols →
          IsPhrase .unit (.openParen :: (symbols ++ [.closeParen])) := by
        rintro symbols ⟨s, depth, hs⟩
        exact ⟨_, _, hs.parenthesised⟩
      refine Tracks.cons ((hnested .biconditional span rest hspan hrest).bind ?_ ?_)
        fun _ _ => rfl
      · exact fun symbols hsymbols => ⟨[.closeParen], by simp [NamedSymbols], henclosed _ hsymbols⟩
      · rintro part others inner - hpart
        refine (tracks_readClosing others).map ?_ fun _ => inner
        rintro symbols rfl
        exact henclosed _ hpart
    | falsum => exact .read [⟨.falsum, span⟩] rfl ⟨_, _, .falsum⟩ fun _ _ _ => rfl
    | verum => exact .read [⟨.verum, span⟩] rfl isPhrase_verum fun _ _ _ => rfl
    | word name =>
      have hletter : ∀ others : List Token, others.head?.map Token.symbol ≠ some .openParen →
          ∀ levels, readUnit (nested levels) last (⟨.word name, span⟩ :: others) =
            .ok (predicate name [], others) := by
        intro others hother levels
        rcases others with _ | ⟨⟨symbol, _⟩, _⟩
        · rfl
        · cases symbol with
          | openParen => exact absurd rfl hother
          | _ => rfl
      by_cases happlied : rest.head?.map Token.symbol = some .openParen
      · -- The terms and the closing parenthesis follow the opening one.
        rcases rest with _ | ⟨⟨symbol, opening⟩, rest⟩
        · cases happlied
        · obtain rfl : symbol = .openParen := by simpa using happlied
          have happlication : ∀ symbols, IsTerms symbols →
              IsPhrase .unit (.word name :: .openParen :: symbols) := by
            rintro _ ⟨names, inner, rfl, hnames⟩
            exact ⟨_, _, .application name hnames⟩
          have hterms := (@tracks_readTerms last spans rest).map happlication (predicate name)
          exact Tracks.cons (hterms.cons fun _ _ => rfl) fun _ _ => rfl
      · rw [hletter rest happlied 0]
        refine .read [⟨.word name, span⟩] rfl ⟨_, _, .letter name⟩ fun levels others hhead => ?_
        exact hletter others (hhead ▸ happlied) levels
    | _ => exact .unexpected hviable fun _ _ _ h => by cases h

/-! ## Chains and right operands -/

/-- Whatever the reader reads, it leaves no more tokens than there were. -/
def Shortens (reader : PartReader) : Prop :=
  ∀ tokens s rest, reader tokens = .ok (s, rest) → rest.length ≤ tokens.length

theorem ReadsPhrase.shortens {reader : PartReader} (h : ReadsPhrase levels phrase reader) :
    Shortens reader := by
  intro tokens s rest hread
  obtain ⟨part, depth, rfl, -⟩ := h _ _ _ hread
  rw [List.length_append]
  exact Nat.le_add_left _ _

/-- One round for each of the tokens is as good as more rounds. -/
theorem readMore_eq_of_length_le {readOperand : PartReader} (hshortens : Shortens readOperand)
    {rounds : Nat} (h : tokens.length ≤ rounds) :
    readMore connective readOperand rounds tokens =
      readMore connective readOperand tokens.length tokens := by
  induction rounds using Nat.strongRecOn generalizing tokens with
  | ind rounds ih =>
    cases tokens with
    | nil => cases rounds <;> rfl
    | cons token rest =>
      cases rounds with
      | zero => cases h
      | succ rounds =>
        have hlength : rest.length ≤ rounds := Nat.le_of_succ_le_succ h
        simp only [readMore, List.length_cons]
        split
        · cases hread : readOperand rest with
          | error failure => rfl
          | ok found =>
            have hrest := hshortens _ _ _ hread
            simp only [bind, Except.bind]
            rw [ih rounds (Nat.lt_succ_self _) (Nat.le_trans hrest hlength),
              ih rest.length (Nat.lt_succ_of_le hlength) hrest]
        · rfl

theorem goesOn_nil : GoesOn connective phrase [] := by
  intro first hfirst
  rw [List.append_nil]
  exact hfirst.isChain

theorem GoesOn.cons (h : GoesOn connective phrase right) (hleft : IsPhrase phrase left) :
    GoesOn connective phrase (connective :: (left ++ right)) :=
  fun _ hfirst => .cons hfirst (h left hleft)

theorem tracks_readMore {readers : Nat → PartReader}
    (hoperand : TracksPhrase last spans phrase readers)
    (hshortens : ∀ levels, Shortens (readers levels)) (hwithin : Within spans tokens) :
    Tracks last spans (GoesOn connective phrase)
      (fun levels tokens => readMore connective (readers levels) tokens.length tokens) tokens
      (readMore connective (readers 0) tokens.length tokens) := by
  induction hlength : tokens.length using Nat.strongRecOn generalizing tokens with
  | ind length ih =>
    rw [← hlength]
    cases tokens with
    | nil =>
      refine .none_taken goesOn_nil fun levels others hhead => ?_
      obtain rfl : others = [] := by simpa using hhead
      rfl
    | cons token rest =>
      by_cases hconnective : token.symbol = connective
      · have hread : ∀ levels others,
            readMore connective (readers levels) (token :: others).length (token :: others) =
              readers levels others >>= fun found =>
                readMore connective (readers levels) found.2.length found.2 >>= fun operands =>
                  pure (found.1 :: operands.1, operands.2) := by
          intro levels others
          simp only [List.length_cons, readMore, if_pos hconnective]
          cases hfound : readers levels others with
          | error failure => rfl
          | ok found =>
            simp only [bind, Except.bind]
            rw [readMore_eq_of_length_le (hshortens levels) (hshortens levels _ _ _ hfound)]
        obtain ⟨-, hrest⟩ := within_cons.1 hwithin
        rw [hread]
        refine Tracks.cons ((hoperand rest hrest).bind ?_ ?_) hread
        · intro symbols hsymbols
          refine ⟨[], namedSymbols_nil, ?_⟩
          rw [hconnective]
          exact goesOn_nil.cons hsymbols
        · intro part others a htokens hpart
          have hshorter : others.length < length := by
            rw [← hlength, htokens, List.length_cons, List.length_append]
            omega
          have hothers : Within spans others := Within.of_append (htokens ▸ hrest)
          refine (ih _ hshorter hothers rfl).map (fun symbols hsymbols => ?_) (a :: ·)
          rw [hconnective]
          exact hsymbols.cons hpart
      · have hread : ∀ levels others,
            readMore connective (readers levels) (token :: others).length (token :: others) =
              .ok ([], token :: others) := fun _ _ => if_neg hconnective
        rw [hread]
        refine .none_taken goesOn_nil fun levels others hhead => ?_
        obtain ⟨others, rfl⟩ : ∃ more, others = token :: more := List.head?_eq_some_iff.1 hhead
        exact hread levels others

theorem tracksPhrase_chain {operand : Phrase} {readers : Nat → PartReader}
    (hoperand : TracksPhrase last spans operand readers)
    (hshortens : ∀ levels, Shortens (readers levels)) {join : List Sentence → Sentence}
    (hjoin : ∀ {symbols operands depth}, Chain connective operand symbols operands depth →
      Derives phrase symbols (join operands) depth) :
    TracksPhrase last spans phrase fun levels => readChain connective join (readers levels) := by
  have hchain : ∀ symbols, IsChain connective operand symbols → IsPhrase phrase symbols := by
    rintro symbols ⟨operands, depth, hoperands⟩
    exact ⟨_, _, hjoin hoperands⟩
  intro tokens hwithin
  refine Tracks.bind (hoperand tokens hwithin) ?_ ?_
  · intro symbols hsymbols
    refine ⟨[], namedSymbols_nil, ?_⟩
    rw [List.append_nil]
    exact hchain _ hsymbols.isChain
  · intro part rest first htokens hpart
    refine (tracks_readMore hoperand hshortens (Within.of_append (htokens ▸ hwithin))).map ?_
      fun more => join (first :: more)
    exact fun symbols hsymbols => hchain _ (hsymbols _ hpart)

theorem tracksPhrase_right (category : Category) (hnested : TracksNested last spans nested)
    {readLeft : Nat → PartReader} {leftPhrase : Phrase}
    (hleft : TracksPhrase last spans leftPhrase readLeft)
    {build : Sentence → Sentence → Sentence}
    (halone : ∀ {symbols s depth}, Derives leftPhrase symbols s depth →
      Derives category.phrase symbols s depth)
    (hbuild : ∀ {left right a b m n}, Derives leftPhrase left a m →
      Derives category.phrase right b n →
        Derives category.phrase (left ++ connective :: right) (build a b) (max m (n + 1))) :
    TracksPhrase last spans category.phrase fun levels =>
      readRight (nested levels) connective category build (readLeft levels) := by
  have hphrase : ∀ symbols, IsPhrase leftPhrase symbols → IsPhrase category.phrase symbols := by
    rintro symbols ⟨s, depth, hs⟩
    exact ⟨_, _, halone hs⟩
  intro tokens hwithin
  refine Tracks.bind (hleft tokens hwithin) ?_ ?_
  · intro symbols hsymbols
    refine ⟨[], namedSymbols_nil, ?_⟩
    rw [List.append_nil]
    exact hphrase _ hsymbols
  · intro part rest left htokens hpart
    have hrest : Within spans rest := Within.of_append (htokens ▸ hwithin)
    have hstop : IsPhrase category.phrase (part.map Token.symbol ++ []) := by
      rw [List.append_nil]
      exact hphrase _ hpart
    cases rest with
    | nil =>
      refine .none_taken hstop fun levels others hhead => ?_
      obtain rfl : others = [] := by simpa using hhead
      rfl
    | cons token rest =>
      obtain ⟨hspan, hrest⟩ := within_cons.1 hrest
      by_cases hsymbol : token.symbol = connective
      · have hright : ∀ symbols, IsPhrase category.phrase symbols →
            IsPhrase category.phrase (part.map Token.symbol ++ token.symbol :: symbols) := by
          obtain ⟨a, m, ha⟩ := hpart
          rintro symbols ⟨b, n, hb⟩
          rw [hsymbol]
          exact ⟨_, _, hbuild ha hb⟩
        dsimp only
        rw [if_pos hsymbol]
        exact ((hnested category token.span rest hspan hrest).map hright (build left)).cons
          fun _ _ => if_pos hsymbol
      · dsimp only
        rw [if_neg hsymbol]
        refine .none_taken hstop fun levels others hhead => ?_
        obtain ⟨others, rfl⟩ : ∃ more, others = token :: more := List.head?_eq_some_iff.1 hhead
        exact if_neg hsymbol

theorem tracksPhrase_category (hnested : TracksNested last spans nested)
    (hphrase : ∀ levels, ∃ limit, NestsPhrase limit (nested levels)) (category : Category) :
    TracksPhrase last spans category.phrase
      fun levels => readCategory (nested levels) last category := by
  have hunit : ∀ levels, ∃ limit, ReadsPhrase limit .unit (readUnit (nested levels) last) :=
    fun levels => (hphrase levels).imp fun _ h => readsPhrase_unit h
  have hconjunction : ∀ levels, Shortens (readConjunction (nested levels) last) := by
    intro levels
    obtain ⟨limit, h⟩ := hunit levels
    exact (readsPhrase_chain h .conjunction).shortens
  have hunits := tracksPhrase_unit hnested
  have hdisjunctions := tracksPhrase_chain (tracksPhrase_chain hunits
    (fun levels => (hunit levels).elim fun _ h => h.shortens) .conjunction) hconjunction
    .disjunction
  have himplications := tracksPhrase_right .implication hnested hdisjunctions
    .ofDisjunction .implies
  cases category with
  | biconditional =>
    exact tracksPhrase_right .biconditional hnested himplications .ofImplication .iff
  | implication => exact himplications
  | unit => exact hunits

/-- The reader of nested parts stops where those with more levels do. -/
theorem tracksNested_readAt (last : Span) (spans : List Span) (levels : Nat) :
    TracksNested last spans fun more => readAt last (more + levels) := by
  induction levels with
  | zero => exact fun _ _ _ hopener _ => .tooDeep hopener
  | succ levels ih =>
    intro category opener tokens _ hwithin
    exact tracksPhrase_category ih (fun more => ⟨_, nestsPhrase_readAt last (more + levels)⟩)
      category tokens hwithin

theorem tracks_readAt (last : Span) (spans : List Span) (levels : Nat) (category : Category)
    (opener : Span) (hopener : opener ∈ spans) (hwithin : Within spans tokens) :
    Tracks last spans (IsPhrase category.phrase)
      (fun more => readAt last (more + levels) category opener) tokens
      (readAt last levels category opener tokens) := by
  have h := tracksNested_readAt last spans levels category opener tokens hopener hwithin
  dsimp only at h
  rwa [Nat.zero_add] at h

end Level

end NaturalDeduction.Sentence
