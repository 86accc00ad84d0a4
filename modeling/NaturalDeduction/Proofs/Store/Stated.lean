/-
  What filling in a conclusion passes over.

  A suggestion is passed over if it is the text of a line that may be cited, or
  the rendering of its sentence, once the white space is dropped. Every line that
  states the suggestion is found this way. A line that does not state it can be
  taken for it in two cases only: its text is no sentence, or white space keeps
  two words apart. `P or Q` is taken for the letter `PorQ`, and so is a line with
  the faulty text `Por Q`.
-/

import NaturalDeduction.Proofs.Sentence.Rejection
import NaturalDeduction.Proofs.Sentence.Squeezed
import NaturalDeduction.Proofs.Store.Counting

namespace NaturalDeduction

open Token (separatesWords)

/-! ## Lines that state a suggestion -/

namespace Line

variable {line : Line} {s : Sentence} {form : String}

/-- The texts under which a line is known: its own, and the rendering of its sentence. -/
def forms (line : Line) : List String :=
  line.text :: (line.sentence?.map Sentence.render).toList

/-- The line states the sentence with this rendering. -/
def States (line : Line) (text : String) : Prop :=
  line.sentence?.map Sentence.render = some text

instance (text : String) : Decidable (line.States text) :=
  inferInstanceAs (Decidable (_ = _))

/-- The line is taken for a text that it does not state. -/
structure MistakenFor (line : Line) (text : String) : Prop where
  not_states : ¬ line.States text
  form : ∃ form ∈ line.forms, Text.squeeze form = Text.squeeze text ∧
    (line.sentence? = none ∨ separatesWords form.toList = true ∨
      separatesWords text.toList = true)

theorem expresses_of_mem_forms (h : line.sentence? = some s) (hform : form ∈ line.forms) :
    ∃ depth, Sentence.Expresses form s depth := by
  rw [forms, h, Option.map_some, Option.toList_some, List.mem_cons, List.mem_singleton] at hform
  rcases hform with rfl | rfl
  · obtain ⟨depth, -, hexpresses⟩ := Sentence.read_eq_some_iff.1 (read_of_sentence? h)
    exact ⟨depth, hexpresses⟩
  · exact Sentence.exists_expresses_render (grammatical_of_sentence? h)

/-- A form of a line is a rendering up to white space just when the line states the sentence, or is
mistaken for it. -/
theorem exists_form_iff (hs : s.Grammatical) :
    (∃ form ∈ line.forms, Text.squeeze form = Text.squeeze s.render) ↔
      line.States s.render ∨ line.MistakenFor s.render := by
  constructor
  · rintro ⟨form, hform, hsame⟩
    by_cases hstates : line.States s.render
    · exact .inl hstates
    refine .inr ⟨hstates, form, hform, hsame, ?_⟩
    cases hsentence : line.sentence? with
    | none => exact .inl rfl
    | some stated =>
      right
      by_contra hwords
      rw [not_or, Bool.not_eq_true, Bool.not_eq_true] at hwords
      -- Both texts express their sentences without white space, too.
      obtain ⟨m, hstated⟩ := expresses_of_mem_forms hsentence hform
      obtain ⟨n, hrendered⟩ := Sentence.exists_expresses_render hs
      obtain rfl := hstated.eq_of_squeeze_eq hrendered hwords.1 hwords.2 hsame
      exact hstates (by rw [States, hsentence, Option.map_some])
  · rintro (hstates | ⟨-, form, hform, hsame, -⟩)
    · exact ⟨s.render, List.mem_cons_of_mem _ (Option.mem_toList.2 hstates), rfl⟩
    · exact ⟨form, hform, hsame⟩

end Line

namespace Proof

variable {setting : Setting} {p : Proof} {index : Nat} {line : Line} {rule : Rule}
  {premises : List Premise} {text : String}

/-- The lines that the line at a position may cite. -/
def citable (p : Proof) (index : Nat) : List Line :=
  (p.layout.accessible index).filterMap fun position => p.lines[position]?

/-- A line that may be cited states the sentence with this rendering. -/
def StatedAt (p : Proof) (index : Nat) (text : String) : Prop :=
  ∃ line ∈ p.citable index, line.States text

/-- A line that may be cited is taken for a text that it does not state. -/
def MistakenAt (p : Proof) (index : Nat) (text : String) : Prop :=
  ∃ line ∈ p.citable index, line.MistakenFor text

instance : Decidable (p.StatedAt index text) :=
  inferInstanceAs (Decidable (∃ line ∈ p.citable index, line.States text))

theorem mem_takenBy {squeezed : String} :
    squeezed ∈ p.takenBy index ↔
      ∃ line ∈ p.citable index, ∃ form ∈ line.forms, Text.squeeze form = squeezed := by
  simp only [takenBy, List.mem_flatMap, List.mem_map]
  rfl

theorem squeeze_mem_takenBy_iff {s : Sentence} (hs : s.Grammatical) :
    Text.squeeze s.render ∈ p.takenBy index ↔
      p.StatedAt index s.render ∨ p.MistakenAt index s.render := by
  simp only [mem_takenBy, Line.exists_form_iff hs, and_or_left, exists_or]
  rfl

/-! ## The suggestion that is chosen -/

/-- The text is the first of the candidates that is not taken or, if all are, the first one. -/
inductive Chosen (taken : String → Prop) (candidates : List String) (text : String) : Prop
  | untaken (before after : List String) (hcandidates : candidates = before ++ text :: after)
      (hbefore : ∀ candidate ∈ before, taken candidate) (htext : ¬ taken text) :
      Chosen taken candidates text
  | allTaken (hall : ∀ candidate ∈ candidates, taken candidate)
      (hhead : candidates.head? = some text) : Chosen taken candidates text

namespace Chosen

variable {taken : String → Prop} {candidates : List String}

theorem of_find? {isTaken : String → Bool}
    (h : (candidates.find? fun candidate => !isTaken candidate).or candidates.head? = some text) :
    Chosen (fun candidate => isTaken candidate = true) candidates text := by
  rcases Option.or_eq_some_iff.1 h with hfound | ⟨hnone, hhead⟩
  · obtain ⟨htext, before, after, hcandidates, hbefore⟩ :=
      List.find?_eq_some_iff_append.1 hfound
    exact .untaken before after hcandidates (by simpa using hbefore) (by simpa using htext)
  · exact .allTaken (by simpa using hnone) hhead

theorem congr {taken' : String → Prop} (h : Chosen taken candidates text)
    (hsame : ∀ candidate ∈ candidates, taken candidate ↔ taken' candidate) :
    Chosen taken' candidates text := by
  cases h with
  | untaken before after hcandidates hbefore htext =>
    subst hcandidates
    refine .untaken before after rfl (fun candidate hmem => ?_) ?_
    · exact (hsame _ (List.mem_append_left _ hmem)).1 (hbefore _ hmem)
    · exact mt (hsame _ (List.mem_append_right _ (.head _))).2 htext
  | allTaken hall hhead =>
    exact .allTaken (fun candidate hmem => (hsame _ hmem).1 (hall _ hmem)) hhead

/-- A first candidate that is not taken is chosen. -/
theorem eq_head {first : String} {others : List String} (h : Chosen taken (first :: others) text)
    (hfirst : ¬ taken first) : text = first := by
  cases h with
  | untaken before after hcandidates hbefore _ =>
    cases before with
    | nil => exact (List.cons.inj hcandidates).1.symm
    | cons candidate before =>
      obtain rfl := (List.cons.inj hcandidates).1
      exact absurd (hbefore _ (.head _)) hfirst
  | allTaken hall _ => exact absurd (hall _ (.head _)) hfirst

end Chosen

/-- The line at a position is blank and no assumption, and its rule has suggestions for it. -/
structure Fillable (p : Proof) (index : Nat) (line : Line) (rule : Rule)
    (premises : List Premise) : Prop where
  line_at : p.lines[index]? = some line
  not_assumption : line.assumption = false
  blank : Text.isBlankText line.text = true
  rule_eq : line.rule? = some rule
  premises_eq : p.premisesOf index line = .ok premises
  suggestions_ne : rule.suggestions premises ≠ []

namespace Fillable

theorem grammatical_of_mem (h : p.Fillable index line rule premises)
    (hmem : text ∈ rule.suggestions premises) :
    ∃ s : Sentence, s.Grammatical ∧ s.render = text := by
  obtain ⟨s, hs, hrender⟩ := List.mem_map.1 (List.mem_eraseDups.1 hmem)
  have hpremises := grammatical_of_premisesOf h.premises_eq
  exact ⟨s, Rule.grammatical_of_mem_candidates hpremises hs, hrender⟩

theorem exists_suggestion (h : p.Fillable index line rule premises) :
    ∃ text, p.suggestionFor? index = some text ∧
      Chosen (fun candidate => p.StatedAt index candidate ∨ p.MistakenAt index candidate)
        (rule.suggestions premises) text := by
  have hsuggestion : p.suggestionFor? index =
      ((rule.suggestions premises).find? fun candidate =>
        !(p.takenBy index).contains (Text.squeeze candidate)).or
        (rule.suggestions premises).head? := by
    simp [suggestionFor?, h.line_at, h.not_assumption, h.blank, h.rule_eq, h.premises_eq,
      Except.toOption]
  obtain ⟨text, htext⟩ : ∃ text, p.suggestionFor? index = some text := by
    rw [← Option.isSome_iff_exists, hsuggestion, Option.isSome_or, Bool.or_eq_true]
    exact .inr (List.isSome_head?.2 h.suggestions_ne)
  refine ⟨text, htext, (Chosen.of_find? (hsuggestion.symm.trans htext)).congr fun _ hmem => ?_⟩
  obtain ⟨s, hs, rfl⟩ := h.grammatical_of_mem hmem
  rw [List.contains_iff_mem]
  exact squeeze_mem_takenBy_iff hs

/-- Where there is something to fill in, filling in succeeds and writes it. -/
theorem autoFill_eq_ok (h : p.Fillable index line rule premises)
    (hsuggestion : p.suggestionFor? index = some text) :
    ∃ outcome, p.autoFill setting index = .ok outcome ∧ outcome.answer = some text ∧
      outcome.proof.document = { p.document with
        lines := p.document.lines.modify index fun record => { record with text } } := by
  obtain ⟨other, hother, hne⟩ := suggestionFor?_ne hsuggestion
  obtain rfl : line = other := Option.some.inj (h.line_at.symm.trans hother)
  obtain ⟨outcome, houtcome, hanswer⟩ :
      ∃ outcome, p.autoFill setting index = .ok outcome ∧ outcome.answer = some text := by
    simp only [autoFill, checkLine_of_getElem? h.line_at, hsuggestion,
      setText_of_getElem? h.line_at, if_neg hne, bind, Except.bind]
    exact ⟨_, rfl, rfl⟩
  have hperformed := Performed.of_autoFill houtcome
  rw [hanswer] at hperformed
  exact ⟨outcome, houtcome, hanswer, hperformed.filled.1⟩

end Fillable

/-- Filling in a conclusion passes over the suggestions that a line that may be cited states or is
mistaken for, and over no others. The first of the rest is written and nothing else in the document
changes; if there is no rest, it is the first suggestion of all. -/
theorem autoFill_passes_over (setting : Setting) (h : p.Fillable index line rule premises) :
    ∃ text outcome, p.autoFill setting index = .ok outcome ∧ outcome.answer = some text ∧
      outcome.proof.document = { p.document with
        lines := p.document.lines.modify index fun record => { record with text } } ∧
      Chosen (fun candidate => p.StatedAt index candidate ∨ p.MistakenAt index candidate)
        (rule.suggestions premises) text := by
  obtain ⟨text, hsuggestion, hchosen⟩ := h.exists_suggestion
  obtain ⟨outcome, houtcome, hanswer, hdocument⟩ := h.autoFill_eq_ok hsuggestion
  exact ⟨text, outcome, houtcome, hanswer, hdocument, hchosen⟩

/-! ### Simplifying a conjunction -/

/-- A premise, a conjunction, and a blank line that cites the conjunction by simplification. -/
def simplifying (premise conjunction : String) : Proof :=
  ((Proof.new []).run {} [.addPremise, .setText 0 premise, .addPremise, .setText 1 conjunction,
    .addLine 2 ⟨0, false⟩, .setRule 2 (some .simplification), .togglePremise 2 1]).1

/-- The blank line of `simplifying`. -/
def simplifiedLine : Line :=
  { Line.new 3 2 ⟨0, false⟩ with premises := [2], rule? := some .simplification }

/-- The premises of the blank line of `simplifying`. -/
def conjunctionOf (left right : String) : List Premise :=
  [.line (.and [.predicate left [], .predicate right []])]

/-- The first conjunct is stated. -/
def statedConjunct : Proof := simplifying "P" "P ∧ Q"

theorem autoFill_passes_over_statedConjunct :
    statedConjunct.Fillable 2 simplifiedLine .simplification (conjunctionOf "P" "Q") ∧
      (statedConjunct.autoFill {} 2).map Outcome.answer = .ok (some "Q") ∧
      ∃ text outcome, statedConjunct.autoFill {} 2 = .ok outcome ∧ outcome.answer = some text ∧
        outcome.proof.document = { statedConjunct.document with
          lines := statedConjunct.document.lines.modify 2 fun record => { record with text } } ∧
        Chosen
          (fun candidate => statedConjunct.StatedAt 2 candidate ∨
            statedConjunct.MistakenAt 2 candidate)
          (Rule.simplification.suggestions (conjunctionOf "P" "Q")) text := by
  have hfillable : statedConjunct.Fillable 2 simplifiedLine .simplification
      (conjunctionOf "P" "Q") :=
    ⟨by decide +kernel, rfl, by decide +kernel, rfl, by decide +kernel, by decide +kernel⟩
  exact ⟨hfillable, by decide +kernel, autoFill_passes_over {} hfillable⟩

/-- `P or Q` looks like the first conjunct, but states another sentence. -/
def gluedWords : Proof := simplifying "P or Q" "PorQ ∧ R"

/-- A suggestion may be passed over that no line states. -/
theorem autoFill_passes_over_unstated :
    Reachable {} gluedWords ∧
      gluedWords.Fillable 2 simplifiedLine .simplification (conjunctionOf "PorQ" "R") ∧
      (gluedWords.autoFill {} 2).map Outcome.answer = .ok (some "R") ∧
      ¬ Chosen (gluedWords.StatedAt 2)
        (Rule.simplification.suggestions (conjunctionOf "PorQ" "R")) "R" := by
  have hreachable : Reachable {} gluedWords := ⟨_, _, .new [], rfl⟩
  have hfillable : gluedWords.Fillable 2 simplifiedLine .simplification
      (conjunctionOf "PorQ" "R") :=
    ⟨by decide +kernel, rfl, by decide +kernel, rfl, by decide +kernel, by decide +kernel⟩
  have hsuggestions : Rule.simplification.suggestions (conjunctionOf "PorQ" "R") =
      ["PorQ", "R"] := by decide +kernel
  have hunstated : ¬ gluedWords.StatedAt 2 "PorQ" := by decide +kernel
  refine ⟨hreachable, hfillable, by decide +kernel, fun hchosen => ?_⟩
  rw [hsuggestions] at hchosen
  exact absurd (hchosen.eq_head hunstated) (by decide)

end Proof

end NaturalDeduction
