/-
  Which part of a text a failure highlights.

  A text that is no sentence is rejected with a span for the user to look at.
  The span is that of the first character that belongs to no token, or else of
  one whole token. Unless sentences are nested too deeply, the tokens before
  that one begin a sentence of the grammar and with it they do not; when the
  text ends too early the token is the last one, and the whole text begins a
  longer sentence.
-/

import NaturalDeduction.Proofs.Sentence.Location
import NaturalDeduction.Proofs.Sentence.Viable

namespace NaturalDeduction.Sentence

open Token

/-! ## Beginnings of sentences -/

/-- The symbols, whose words are names, form a sentence, however deep it is nested. -/
def IsSentence (symbols : List Symbol) : Prop :=
  NamedSymbols symbols ∧ IsPhrase .biconditional symbols

/-- The symbols begin a sentence. -/
def Begins (symbols : List Symbol) : Prop :=
  ∃ more, IsSentence (symbols ++ more)

/-- The symbols begin a sentence that is longer than they are. -/
def BeginsLonger (symbols : List Symbol) : Prop :=
  ∃ more, more ≠ [] ∧ IsSentence (symbols ++ more)

variable {symbols : List Symbol} {tokens : List Token} {text : String} {failure : ParseFailure}

theorem NamedSymbols.of_named (h : Named tokens) : NamedSymbols (tokens.map Token.symbol) := by
  intro name hname
  obtain ⟨token, htoken, hsymbol⟩ := List.mem_map.1 hname
  exact h token htoken name hsymbol

theorem beginsLonger_of_completable (hnamed : NamedSymbols symbols)
    (h : Completable (IsPhrase .biconditional) symbols) : BeginsLonger symbols := by
  obtain ⟨more, hne, hmore, hphrase⟩ := h
  exact ⟨more, hne, namedSymbols_append hnamed hmore, hphrase⟩

/-! ## Rejected tokens -/

/-- Why the tokens are rejected: the nesting limit is reached at one of them; or they end too early;
or they form no sentence from one of them on, whatever stands behind it. -/
inductive Rejects (tokens : List Token) : ParseFailure → Prop where
  | tooDeep {token : Token} (h : token ∈ tokens) : Rejects tokens (.spanning token.span .tooDeep)
  | ended {before : List Token} {last : Token} {expected : Expected}
      (htokens : tokens = before ++ [last])
      (hviable : Completable (IsPhrase .biconditional) (tokens.map Token.symbol))
      (hnot : ¬ IsPhrase .biconditional (tokens.map Token.symbol)) :
      Rejects tokens (.spanning last.span (.endedBefore expected))
  | wrong (before : List Token) {bad : Token} {later : List Token} {cause : ParseCause}
      (htokens : tokens = before ++ bad :: later)
      (hcause : cause = .leftOver bad.symbol ∨
        ∃ expected, cause = .foundInstead expected bad.symbol)
      (hviable : ∃ more, NamedSymbols more ∧
        IsPhrase .biconditional (before.map Token.symbol ++ more))
      (hnot : ∀ more, ¬ IsPhrase .biconditional (before.map Token.symbol ++ bad.symbol :: more)) :
      Rejects tokens (.spanning bad.span cause)

/-- With enough levels a sentence is read to its end. -/
theorem exists_readAt_of_isPhrase (last : Span) (levels : Nat) (opener : Span)
    (h : IsPhrase .biconditional (tokens.map Token.symbol)) :
    ∃ more s, readAt last (more + levels) .biconditional opener tokens = .ok (s, []) := by
  obtain ⟨s, depth, hs⟩ := h
  have hread := (hs.reads last).below .biconditional (Nat.le_add_right (depth + 1) levels) rfl
    (ends_nil _) opener
  rw [List.append_nil] at hread
  exact ⟨depth + 1, s, hread⟩

/-- Symbols behind tokens, as tokens. -/
theorem exists_tokens (before : List Token) (bad : Token) (more : List Symbol) :
    ∃ others : List Token, (before ++ bad :: others).map Token.symbol =
      before.map Token.symbol ++ bad.symbol :: more := by
  refine ⟨more.map fun symbol => ⟨symbol, ⟨0, 0⟩⟩, ?_⟩
  simp [Function.comp_def]

theorem rejects_of_ofTokens {first : Token} {others : List Token}
    (h : ofTokens first others = .error failure) : Rejects (first :: others) failure := by
  have hne := List.cons_ne_nil first others
  let last := ((first :: others).getLast hne).span
  have htracks := tracks_readAt last ((first :: others).map Token.span) (maxDepth + 1)
    .biconditional first.span (by simp) fun token htoken => List.mem_map_of_mem htoken
  rcases Except.bind_eq_error.1 h with hread | ⟨⟨s, rest⟩, hread, hrest⟩
  · rw [hread] at htracks
    cases htracks with
    | tooDeep hspan =>
      obtain ⟨token, htoken, rfl⟩ := List.mem_map.1 hspan
      exact .tooDeep htoken
    | ended hviable hfails =>
      refine .ended (List.dropLast_append_getLast hne).symm hviable fun hphrase => ?_
      obtain ⟨more, s, hreads⟩ := exists_readAt_of_isPhrase last (maxDepth + 1) first.span hphrase
      exact hfails more _ hreads
    | @found before later bad expected htokens hviable hfails =>
      obtain ⟨more, -, hviable⟩ := hviable
      refine .wrong before htokens (.inr ⟨expected, rfl⟩) ⟨more, hviable⟩ fun more hphrase => ?_
      obtain ⟨behind, hbehind⟩ := exists_tokens before bad more
      rw [← hbehind] at hphrase
      obtain ⟨levels, s, hreads⟩ := exists_readAt_of_isPhrase last (maxDepth + 1) first.span hphrase
      exact hfails levels _ _ hreads
  · cases rest with
    | nil => cases hrest
    | cons bad later =>
      cases hrest
      rw [hread] at htracks
      cases htracks with
      | read part htokens hpart hreads =>
        refine .wrong part htokens (.inl rfl)
          ⟨[], namedSymbols_nil, by rwa [List.append_nil]⟩ fun more hphrase => ?_
        obtain ⟨behind, hbehind⟩ := exists_tokens part bad more
        rw [← hbehind] at hphrase
        obtain ⟨levels, s', hreads'⟩ :=
          exists_readAt_of_isPhrase last (maxDepth + 1) first.span hphrase
        -- The readers with more levels leave the same token over.
        rw [hreads levels (bad :: behind) rfl] at hreads'
        cases hreads'

/-! ## Rejected texts -/

/-- A text is rejected by its scanner, or else by the reader of its tokens. -/
theorem rejected_cases (h : read text = .error failure) :
    scan text = .error failure ∨ ∃ first others, scan text = .ok (first :: others) ∧
      Rejects (first :: others) failure := by
  rcases Except.bind_eq_error.1 h with hscan | ⟨tokens, hscan, hrest⟩
  · exact .inl hscan
  · cases tokens with
    | nil => cases hrest
    | cons first others =>
      rcases Except.bind_eq_error.1 hrest with hrejected | ⟨s, -, hdone⟩
      · exact .inr ⟨first, others, hscan, rejects_of_ofTokens hrejected⟩
      · cases hdone

/-- What the grammar derives from a text is read, unless it is nested too deeply. -/
theorem Expresses.read_or_tooDeep {s : Sentence} {depth : Nat} (h : Expresses text s depth) :
    read text = .ok (some s) ∨
      ∃ failure, read text = .error failure ∧ failure.cause = .tooDeep := by
  obtain ⟨symbols, hsplits, hderives⟩ := id h
  cases hread : read text with
  | ok found =>
    cases found with
    | none =>
      obtain rfl := hsplits.unique (splits_nil_iff.2 (read_eq_none_iff.1 hread))
      exact absurd hderives not_derives_nil
    | some found =>
      obtain ⟨levels, -, hfound⟩ := read_eq_some_iff.1 hread
      exact .inl (by rw [hfound.unique h])
  | error failure =>
    refine .inr ⟨failure, rfl, ?_⟩
    obtain ⟨tokens, hscan, rfl⟩ := scan_iff_splits.2 hsplits
    rcases rejected_cases hread with hunknown | ⟨first, others, hscanned, hrejects⟩
    · rw [hscan] at hunknown
      cases hunknown
    · rw [hscan] at hscanned
      cases hscanned
      cases hrejects with
      | tooDeep _ => rfl
      | ended _ _ hnot => exact absurd ⟨s, depth, hderives⟩ hnot
      | wrong before htokens _ _ hnot =>
        rw [htokens, List.map_append, List.map_cons] at hderives
        exact absurd ⟨s, depth, hderives⟩ (hnot _)

/-- The grammar derives a grammatical sentence from its rendering. -/
theorem exists_expresses_render {s : Sentence} (hs : Grammatical s) :
    ∃ depth, Expresses s.render s depth := by
  -- Without the limit the rendering is read to the sentence.
  obtain ⟨depth, -, hexpresses⟩ := readUpTo_eq_some_iff.1 (readUpTo_render hs (Nat.le_refl _))
  exact ⟨depth, hexpresses⟩

/-- The rendering of a grammatical sentence is read to the sentence, unless it is nested too
deeply. -/
theorem read_render_or_tooDeep {s : Sentence} (hs : Grammatical s) :
    read s.render = .ok (some s) ∨
      ∃ failure, read s.render = .error failure ∧ failure.cause = .tooDeep := by
  obtain ⟨depth, hexpresses⟩ := exists_expresses_render hs
  exact hexpresses.read_or_tooDeep

/-- A span for each rejected text: it marks an unknown character or a token. -/
theorem exists_span_of_read (h : read text = .error failure) :
    ∃ span, failure.span = some span ∧ ((∃ c, MarksUnknown text span c) ∨
      ∃ earlier symbol later, MarksToken text span earlier symbol later) := by
  rcases rejected_cases h with hscan | ⟨first, others, hscan, hrejects⟩
  · obtain ⟨span, c, rfl, hmarks⟩ := marksUnknown_of_scan hscan
    exact ⟨span, rfl, .inl ⟨c, hmarks⟩⟩
  · have htoken : ∃ token ∈ first :: others, failure.span = some token.span := by
      cases hrejects with
      | tooDeep htoken => exact ⟨_, htoken, rfl⟩
      | ended htokens _ _ => exact ⟨_, by simp [htokens], rfl⟩
      | wrong before htokens _ _ _ => exact ⟨_, by simp [htokens], rfl⟩
    obtain ⟨token, hmem, hspan⟩ := htoken
    obtain ⟨earlier, later, htokens⟩ := List.append_of_mem hmem
    exact ⟨token.span, hspan, .inr ⟨_, _, _, marksToken_of_scan (htokens ▸ hscan)⟩⟩

/-- The highlighted part of a text that is rejected is not empty and lies between characters. It is
one unknown character or one token. In a text of tokens it is the first one that is wrong: when the
text ends too early, it is the last token, and all of them together begin a longer sentence; else
the tokens before it begin a sentence, and with it they do not. -/
theorem read_eq_error_located {text : String} {failure : ParseFailure}
    (h : read text = .error failure) :
    ∃ span, failure.span = some span ∧ span.start < span.stop ∧ (span.slice? text).isSome ∧
      ((∃ c, MarksUnknown text span c) ∨
        ∃ earlier symbol later, MarksToken text span earlier symbol later) ∧
      ∀ symbols, Splits text.toList symbols → failure.cause ≠ .tooDeep →
        ∃ earlier symbol later, symbols = earlier ++ symbol :: later ∧
          MarksToken text span earlier symbol later ∧
          (((∃ expected, failure.cause = .endedBefore expected) ∧
              later = [] ∧ BeginsLonger symbols) ∨
            ((∀ expected, failure.cause ≠ .endedBefore expected) ∧
              Begins earlier ∧ ¬ Begins (earlier ++ [symbol]))) := by
  obtain ⟨span, hspan, hmarks⟩ := exists_span_of_read h
  have hfits : span.start < span.stop ∧ (span.slice? text).isSome := by
    rcases hmarks with ⟨c, hunknown⟩ | ⟨earlier, symbol, later, htoken⟩
    · exact hunknown.fits
    · exact htoken.fits
  refine ⟨span, hspan, hfits.1, hfits.2, hmarks, fun symbols hsplits hdepth => ?_⟩
  obtain ⟨tokens, hscan, rfl⟩ := scan_iff_splits.2 hsplits
  have hnamed := NamedSymbols.of_named (named_of_scan hscan)
  rcases rejected_cases h with hunknown | ⟨first, others, hscanned, hrejects⟩
  · rw [hscan] at hunknown
    cases hunknown
  · rw [hscan] at hscanned
    cases hscanned
    cases hrejects with
    | tooDeep _ => exact absurd rfl hdepth
    | @ended before last expected htokens hviable _ =>
      cases hspan
      have hlonger := beginsLonger_of_completable hnamed hviable
      refine ⟨before.map Token.symbol, last.symbol, [], ?_, ?_,
        .inl ⟨⟨expected, rfl⟩, rfl, hlonger⟩⟩
      · rw [htokens, List.map_append, List.map_cons, List.map_nil]
      · exact marksToken_of_scan (htokens ▸ hscan)
    | @wrong before bad later cause htokens hcause hviable hnot =>
      cases hspan
      rw [htokens, List.map_append, List.map_cons] at hnamed ⊢
      refine ⟨_, _, _, rfl, marksToken_of_scan (htokens ▸ hscan), .inr ⟨?_, ?_, ?_⟩⟩
      · rintro expected (rfl : cause = _)
        simp at hcause
      · obtain ⟨more, hmore, hphrase⟩ := hviable
        have hbefore : NamedSymbols (before.map Token.symbol) :=
          fun name hname => hnamed name (List.mem_append_left _ hname)
        exact ⟨more, namedSymbols_append hbefore hmore, hphrase⟩
      · rintro ⟨more, -, hphrase⟩
        rw [List.append_assoc] at hphrase
        exact hnot more hphrase

/-- In `P ∧ ) Q` one token is marked, and it is the first one that is wrong. -/
theorem read_eq_error_located_strayParenthesis :
    read "P ∧ ) Q" = .error (.spanning ⟨6, 7⟩ (.foundInstead .sentence .closeParen)) ∧
      ∃ earlier symbol later,
        [.word "P", .and, .closeParen, .word "Q"] = earlier ++ symbol :: later ∧
          MarksToken "P ∧ ) Q" ⟨6, 7⟩ earlier symbol later ∧
          Begins earlier ∧ ¬ Begins (earlier ++ [symbol]) := by
  have hread : read "P ∧ ) Q" =
      .error (.spanning ⟨6, 7⟩ (.foundInstead .sentence .closeParen)) := by decide +kernel
  have hsplits : Splits "P ∧ ) Q".toList [.word "P", .and, .closeParen, .word "Q"] :=
    scan_iff_splits.1 ⟨[⟨.word "P", ⟨0, 1⟩⟩, ⟨.and, ⟨2, 5⟩⟩, ⟨.closeParen, ⟨6, 7⟩⟩,
      ⟨.word "Q", ⟨8, 9⟩⟩], by decide +kernel, rfl⟩
  obtain ⟨span, hspan, -, -, -, htokens⟩ := read_eq_error_located hread
  cases hspan
  obtain ⟨earlier, symbol, later, hsymbols, hmarks, hended | ⟨-, hbegins⟩⟩ :=
    htokens _ hsplits (by simp [ParseFailure.spanning])
  · obtain ⟨⟨expected, hcause⟩, -⟩ := hended
    cases hcause
  · exact ⟨hread, earlier, symbol, later, hsymbols, hmarks, hbegins⟩

end NaturalDeduction.Sentence
