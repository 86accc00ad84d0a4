/-
  Saving a line that was filled in.

  The document of a file is that of the proof loaded from it. Between loading
  the file of a run and writing it again, the restriction of the settings is put
  on a proof that has none, and one text is filled in; verifying the line and
  asking a checker leave the document alone. So the file holds the same document
  again but for that text, and but for an empty restriction, which is replaced
  by the one of the settings. A run that fails leaves the file as it is, unless
  writing it was cut short.
-/

import NaturalDeduction.Command.Saving
import NaturalDeduction.Proofs.Document.Decoding
import NaturalDeduction.Proofs.Document.Interchange
import NaturalDeduction.Proofs.Store.Counting

namespace NaturalDeduction

/-! ## Documents changed in one place -/

namespace Document

variable {document : Document}

/-- The document with a restriction where it has none. -/
def restrictedTo (rules : List Rule) (document : Document) : Document :=
  { document with
    restriction := if document.restriction.isEmpty then rules else document.restriction }

/-- The document with another text on the line at a position. -/
def withText (index : Nat) (text : String) (document : Document) : Document :=
  { document with lines := document.lines.modify index fun record => { record with text } }

theorem Fits.sorted (h : document.Fits) : document.sorted.Fits where
  version_lt := h.version_lt
  setOf_restriction := h.setOf_restriction
  lines record hrecord := by
    obtain ⟨original, horiginal, rfl⟩ := List.mem_map.1 hrecord
    have hfits := h.lines original horiginal
    exact ⟨hfits.depth_lt, fun premise hpremise =>
      hfits.premise_lt premise (Ascending.mem_ofList.1 hpremise)⟩

theorem Fits.restrictedTo (h : document.Fits) {rules : List Rule}
    (hrules : Rule.setOf rules = rules) : (document.restrictedTo rules).Fits where
  version_lt := h.version_lt
  setOf_restriction := by
    unfold Document.restrictedTo
    dsimp only
    split
    · exact hrules
    · exact h.setOf_restriction
  lines := h.lines

theorem Fits.withText (h : document.Fits) (index : Nat) (text : String) :
    (document.withText index text).Fits where
  version_lt := h.version_lt
  setOf_restriction := h.setOf_restriction
  lines record hrecord := by
    obtain ⟨j, hj⟩ := List.mem_iff_getElem?.1 hrecord
    rw [Document.withText, List.getElem?_modify, Option.map_eq_map, Option.map_eq_some_iff] at hj
    obtain ⟨original, horiginal, rfl⟩ := hj
    have hfits := h.lines original (List.mem_of_getElem? horiginal)
    by_cases hindex : index = j
    · rw [if_pos hindex]
      exact ⟨hfits.depth_lt, hfits.premise_lt⟩
    · rw [if_neg hindex]
      exact hfits

end Document

/-! ## Loading the file -/

namespace Proof

variable {p q : Proof}

theorem document_restrict_proof (p : Proof) (rules : List Rule) :
    (p.restrict rules).proof.document = { p.document with restriction := Rule.setOf rules } :=
  @document_restrict {} p rules

/-- What a proof is loaded from can be written down again. -/
theorem fits_of_ofText {text : String} (h : ofText text = .ok p) : p.document.Fits := by
  obtain ⟨document, hread, hloaded⟩ := Except.bind_eq_ok.1 h
  rw [document_of_ofDocument (Except.mapError_eq_ok.1 hloaded)]
  exact (Document.fits_of_ofText hread).sorted

theorem wellFormed_of_ofText {text : String} (h : ofText text = .ok p) : WellFormed p := by
  obtain ⟨document, -, hloaded⟩ := Except.bind_eq_ok.1 h
  exact wellFormed_ofDocument (Except.mapError_eq_ok.1 hloaded)

/-- A well-formed proof that can be written down is loaded from its text, whatever white space
follows. -/
theorem exists_ofText_append (hp : WellFormed p) (hfits : p.document.Fits) {after : String}
    (hafter : Json.Blank after.toList) :
    ∃ loaded, ofText (p.toText ++ after) = .ok loaded ∧ loaded.document = p.document := by
  obtain ⟨loaded, hloaded, hdocument⟩ := hp.1.exists_ofDocument
  refine ⟨loaded, ?_, hdocument⟩
  rw [ofText, toText, Document.ofText_toText_append hfits hp.1.validate_document hafter]
  simp only [bind, Except.bind, hloaded, Except.mapError]

end Proof

namespace World

open Proof

variable {world : World} {settings : Settings} {setting : Setting} {file : String} {p : Proof}

/-- The document of the proof in a file, if a proof can be loaded from it. -/
def document? (world : World) (file : String) : Option Document :=
  ((world.read file).bind textOfFile).toOption.bind fun text =>
    (Proof.ofText text).toOption.map Proof.document

/-- The restriction of settings that were loaded is a set of rules. -/
theorem setOf_restriction_loadSettings {named? : Option String}
    (h : world.loadSettings named? = .ok settings) :
    Rule.setOf settings.restriction = settings.restriction := by
  unfold loadSettings at h
  split at h
  · cases h
    rfl
  · obtain ⟨text, -, hread⟩ := Except.bind_eq_ok.1 (Except.mapError_eq_ok.1 h)
    unfold Settings.ofText at hread
    split at hread
    · cases hread
    · split at hread
      · cases hread
      · cases hread
        exact Rule.setOf_setOf _

/-- The settings restrict a proof without a restriction, and leave any other one. -/
theorem document_restricted (hwell : WellFormed p)
    (hsettings : Rule.setOf settings.restriction = settings.restriction) :
    let opened := if p.restriction.isEmpty && !settings.restriction.isEmpty then
      (p.restrict settings.restriction).proof else p
    WellFormed opened ∧ opened.document = p.document.restrictedTo settings.restriction := by
  have hrestriction : p.document.restriction = p.restriction := rfl
  simp only [Document.restrictedTo, hrestriction]
  cases hempty : p.restriction.isEmpty with
  | false => exact ⟨hwell, rfl⟩
  | true =>
    cases hnone : settings.restriction.isEmpty with
    | true =>
      -- Neither has a restriction.
      refine ⟨hwell, ?_⟩
      rw [List.isEmpty_iff] at hempty hnone
      simp [hnone, ← hempty, ← hrestriction]
    | false =>
      have hchange : Change {} p (p.restrict settings.restriction).proof _ := .restrict _
      refine ⟨hwell.change hchange, ?_⟩
      simp [document_restrict_proof, hsettings]

/-- The proof that a run works with is the one in its file, under the restriction of the settings
if it has none. -/
theorem document_loadProof (hsettings : Rule.setOf settings.restriction = settings.restriction)
    (h : world.loadProof settings file = .ok p) :
    ∃ before, world.document? file = some before ∧ WellFormed p ∧
      p.document = before.restrictedTo settings.restriction ∧ p.document.Fits := by
  obtain ⟨text, hread, h⟩ := Except.bind_eq_ok.1 h
  obtain ⟨loaded, hloaded, h⟩ := Except.bind_eq_ok.1 h
  have hread := Except.mapError_eq_ok.1 hread
  have hloaded := Except.mapError_eq_ok.1 hloaded
  have hfits := (fits_of_ofText hloaded).restrictedTo hsettings
  obtain ⟨hwell, hdocument⟩ := document_restricted (wellFormed_of_ofText hloaded) hsettings
  cases h
  refine ⟨loaded.document, ?_, hwell, hdocument, hdocument ▸ hfits⟩
  simp only [document?, hread, hloaded, Except.toOption, Option.bind_some, Option.map_some]

/-! ## Filling in -/

/-- What there is to write after a line was filled in: nothing where there was nothing to fill in,
and the text of the proof otherwise. -/
theorem written_autoFill {number : Nat} {report : RunReport}
    (h : autoFill setting p file number true = .ok report) :
    (report.code ≠ 0 ∧ report.written? = none) ∨
      0 < number ∧ number ≤ p.lines.length ∧ report.code = 0 ∧
        ∃ text filled, p.autoFill setting (number - 1) = .ok filled ∧
          filled.answer = some text ∧
          report.written? = some (file, filled.proof.toText ++ "\n") := by
  obtain ⟨index, hindex, h⟩ := Except.bind_eq_ok.1 h
  obtain ⟨filled, hfilled, h⟩ := Except.bind_eq_ok.1 h
  have hfilled := Except.mapError_eq_ok.1 hfilled
  unfold indexOf at hindex
  split at hindex
  · rename_i hnumber
    cases hindex
    obtain ⟨hpos, hle⟩ : 0 < number ∧ number ≤ p.lines.length := by simpa using hnumber
    cases hanswer : filled.answer with
    | none =>
      simp only [hanswer, Option.isNone_none, if_true] at h
      cases h
      exact .inl ⟨Nat.one_ne_zero, rfl⟩
    | some text =>
      simp only [hanswer, Option.isNone_some, Bool.false_eq_true, if_false, if_true] at h
      cases h
      exact .inr ⟨hpos, hle, rfl, text, filled, hfilled, hanswer, rfl⟩
  · cases hindex

/-- A proof that was filled in is loaded from the text that is written. -/
theorem exists_ofText_filled {index : Nat} {text : String} {filled : Outcome (Option String)}
    (hp : WellFormed p) (hfits : p.document.Fits)
    (h : p.autoFill setting index = .ok filled) (hanswer : filled.answer = some text) :
    ∃ loaded, Proof.ofText (filled.proof.toText ++ "\n") = .ok loaded ∧
      loaded.document = p.document.withText index text := by
  have hperformed := Performed.of_autoFill h
  rw [hanswer] at hperformed
  have hdocument : filled.proof.document = p.document.withText index text := hperformed.filled.1
  have hwell : WellFormed (p.attempt setting (.autoFill index)).1 :=
    (hp.run setting [.autoFill index]).1
  rw [attempt_fst_of_ok rfl h] at hwell
  have hblank : Json.Blank "\n".toList := by simp [Json.Blank, Json.isSpace]
  rw [← hdocument]
  exact exists_ofText_append hwell (hdocument ▸ hfits.withText index text) hblank

/-- A run on a proof fails, or does its task on the proof that was loaded. -/
theorem onProof_cases (world : World) (settings? : Option String) (file : String)
    (task : Setting → Proof → Failing RunReport) :
    (∃ text, world.onProof settings? file task = .failing text) ∨
      ∃ settings p, world.loadSettings settings? = .ok settings ∧
        world.loadProof settings file = .ok p ∧
        task (world.setting settings) p = .ok (world.onProof settings? file task) := by
  unfold onProof
  cases hsettings : world.loadSettings settings? with
  | error message => exact .inl ⟨.ok message, rfl⟩
  | ok settings =>
    simp only [Except.mapError, bind, Except.bind]
    cases hproof : world.loadProof settings file with
    | error text => exact .inl ⟨text, rfl⟩
    | ok p =>
      cases htask : task (world.setting settings) p with
      | error text => exact .inl ⟨text, by simp only [htask]⟩
      | ok report => exact .inr ⟨settings, p, rfl, hproof, by simp only [htask]⟩

/-! ## Saving -/

variable {report : RunReport} {text : String}

/-- A run without a file to write changes no file. -/
theorem saved_of_written?_eq_none (world : World) (writing : Writing)
    (h : report.written? = none) :
    report.saved writing = report ∧ world.saved report writing = world := by
  simp only [RunReport.saved, saved, h, and_self]

/-- A run that fails says so, whether its text can be written or not. -/
theorem code_failing_ne_zero (text : Trapping String) : (RunReport.failing text).code ≠ 0 := by
  cases text with
  | ok message =>
    show RunReport.failureCode ≠ 0
    decide
  | error trap =>
    show RunReport.trapCode ≠ 0
    decide

theorem written?_failing (text : Trapping String) : (RunReport.failing text).written? = none := by
  cases text <;> rfl

/-- A file is written as a whole if the run succeeds, and otherwise not at all, unless writing it
was cut short. -/
theorem saved_of_written?_eq_some (world : World) (writing : Writing)
    (h : report.written? = some (file, text)) (hcode : report.code = 0) :
    ((report.saved writing).code = 0 →
        world.saved report writing = world.holding file (Text.Utf8.encode text)) ∧
      ((report.saved writing).code ≠ 0 → world.saved report writing = world ∨
        ∃ count reason, writing = .cutShort count reason) := by
  have hfailed : ∀ reason, writing.failure? = some reason → (report.saved writing).code ≠ 0 := by
    intro reason hreason
    rw [RunReport.saved, h, hreason]
    exact code_failing_ne_zero (.ok _)
  cases writing with
  | whole =>
    refine ⟨fun _ => ?_, fun hne => absurd ?_ hne⟩
    · simp only [saved, h, Writing.content?]
    · simpa only [RunReport.saved, h, Writing.failure?] using hcode
  | refused reason =>
    refine ⟨fun hzero => absurd hzero (hfailed reason rfl), fun _ => .inl ?_⟩
    simp only [saved, h, Writing.content?]
  | cutShort count reason =>
    exact ⟨fun hzero => absurd hzero (hfailed reason rfl), fun _ => .inr ⟨count, reason, rfl⟩⟩

theorem document?_holding {loaded : Proof} (h : Proof.ofText text = .ok loaded) :
    (world.holding file (Text.Utf8.encode text)).document? file = some loaded.document := by
  simp only [document?, holding, if_true, Except.bind, textOfFile, Text.Utf8.decode?_encode, h,
    Except.toOption, Option.bind_some, Option.map_some]

/-- Once the text of a proof that was filled in is in the file, its document is the one before with
another text, under the restriction of the settings. -/
theorem document?_filled {number : Nat} {filled : Outcome (Option String)}
    (hsettings : Rule.setOf settings.restriction = settings.restriction)
    (hproof : world.loadProof settings file = .ok p)
    (hfilled : p.autoFill setting (number - 1) = .ok filled) (hanswer : filled.answer = some text) :
    ∃ before, world.document? file = some before ∧ before.lines.length = p.lines.length ∧
      (world.holding file (Text.Utf8.encode (filled.proof.toText ++ "\n"))).document? file =
        some ((before.restrictedTo settings.restriction).withText (number - 1) text) := by
  obtain ⟨before, hbefore, hwell, hdocument, hfits⟩ := document_loadProof hsettings hproof
  obtain ⟨loaded, hloaded, hafter⟩ := exists_ofText_filled hwell hfits hfilled hanswer
  refine ⟨before, hbefore, ?_, ?_⟩
  · have hlines := congrArg (fun document => document.lines.length) hdocument
    simpa [Document.restrictedTo, Proof.document] using hlines.symm
  · rw [document?_holding hloaded, hafter, hdocument]

/-! ### Whole runs -/

section Running

variable {arguments : List String} {settings? : Option String} {number : Nat}
  (h : CommandLine.ofArguments arguments = .run ⟨settings?, .autoFill file number true⟩)

include h

/-- A run that fills in a line fails with nothing to write, or has the proof to write that was
filled in. -/
theorem command_autoFill (world : World) :
    ((world.command arguments).code ≠ 0 ∧ (world.command arguments).written? = none) ∨
      ∃ settings p, world.loadSettings settings? = .ok settings ∧
        world.loadProof settings file = .ok p ∧ 0 < number ∧ number ≤ p.lines.length ∧
        (world.command arguments).code = 0 ∧
        ∃ text filled, p.autoFill (world.setting settings) (number - 1) = .ok filled ∧
          filled.answer = some text ∧
          (world.command arguments).written? = some (file, filled.proof.toText ++ "\n") := by
  have hcommand : world.command arguments = world.onProof settings? file fun setting proof =>
      autoFill setting proof file number true := by
    simp only [command, h, run]
  rcases onProof_cases world settings? file fun setting proof =>
      autoFill setting proof file number true with
    ⟨text, hfailing⟩ | ⟨settings, p, hsettings, hproof, htask⟩
  · rw [hcommand, hfailing]
    exact .inl ⟨code_failing_ne_zero text, written?_failing text⟩
  · rw [← hcommand] at htask
    rcases written_autoFill htask with hnone | ⟨hpos, hle, hsome⟩
    · exact .inl hnone
    · exact .inr ⟨settings, p, hsettings, hproof, hpos, hle, hsome⟩

/-- A run that succeeds has changed one text and an empty restriction. -/
theorem document?_saved (world : World) (writing : Writing)
    (hzero : ((world.command arguments).saved writing).code = 0) :
    ∃ settings before text, world.loadSettings settings? = .ok settings ∧
      world.document? file = some before ∧ 0 < number ∧ number ≤ before.lines.length ∧
      (world.saved (world.command arguments) writing).document? file =
        some ((before.restrictedTo settings.restriction).withText (number - 1) text) ∧
      ∀ path, path ≠ file →
        (world.saved (world.command arguments) writing).read path = world.read path := by
  rcases command_autoFill h world with ⟨hcode, hnone⟩ |
    ⟨settings, p, hsettings, hproof, hpos, hle, hcode, text, filled, hfilled, hanswer, hwritten⟩
  · rw [(saved_of_written?_eq_none world writing hnone).1] at hzero
    exact absurd hzero hcode
  · have hwhole := (saved_of_written?_eq_some world writing hwritten hcode).1 hzero
    obtain ⟨before, hbefore, hlength, hdocument⟩ :=
      document?_filled (setOf_restriction_loadSettings hsettings) hproof hfilled hanswer
    refine ⟨settings, before, text, hsettings, hbefore, hpos, hlength ▸ hle, ?_, ?_⟩
    · rw [hwhole, hdocument]
    · intro path hpath
      rw [hwhole]
      simp only [holding, if_neg hpath]

/-- A run that fails has changed nothing, unless writing was cut short. -/
theorem saved_eq_self (world : World) (writing : Writing)
    (hne : ((world.command arguments).saved writing).code ≠ 0) :
    world.saved (world.command arguments) writing = world ∨
      ∃ count reason, writing = .cutShort count reason := by
  rcases command_autoFill h world with ⟨-, hnone⟩ | ⟨_, _, -, -, -, -, hcode, _, _, -, -, hwritten⟩
  · exact .inl (saved_of_written?_eq_none world writing hnone).2
  · exact (saved_of_written?_eq_some world writing hwritten hcode).2 hne

/-- Filling in a line and saving it changes one text of the document in the file, and nothing in
any other file, except that an empty restriction is replaced by the one of the settings. If the run
fails, no file is changed, unless writing it was cut short. -/
theorem autoFill_changes_text (world : World) (writing : Writing) :
    let report := world.command arguments
    let after := world.saved report writing
    ((report.saved writing).code = 0 → ∃ settings before text,
      world.loadSettings settings? = .ok settings ∧ world.document? file = some before ∧
        0 < number ∧ number ≤ before.lines.length ∧
        after.document? file =
          some ((before.restrictedTo settings.restriction).withText (number - 1) text) ∧
        ∀ path, path ≠ file → after.read path = world.read path) ∧
    ((report.saved writing).code ≠ 0 → after = world ∨
      ∃ count reason, writing = .cutShort count reason) :=
  ⟨document?_saved h world writing, saved_eq_self h world writing⟩

end Running

/-! ### Where the settings restrict and the file does not -/

/-- A proof without a restriction, the second line of which may be filled in, and settings that
allow its rule only. -/
def unrestrictedFile : World where
  read path :=
    if path = "p.json" then
      .ok (Text.Utf8.encode "[1, [], [[\"P\", true], [\"\", false, 0, [0], \"reiteration\"]]]")
    else if path = "c.toml" then
      .ok (Text.Utf8.encode "[rules]\nrestricted = [\"reiteration\"]\n")
    else .error .notFound
  home? := none
  environment _ := none
  input := []
  launch _ _ := .silent

/-- Fills the second line in and saves the proof. -/
def fillSecondLine : List String :=
  ["--config", "c.toml", "autofill", "p.json", "--line", "2", "--write"]

theorem ofArguments_fillSecondLine : CommandLine.ofArguments fillSecondLine =
    .run ⟨some "c.toml", .autoFill "p.json" 2 true⟩ := by
  decide +kernel

theorem code_fillSecondLine :
    ((unrestrictedFile.command fillSecondLine).saved .whole).code = 0 := by
  decide +kernel

/-- The run succeeds, so the file holds the document before with another text and, it having had no
restriction, with the one of the settings. -/
theorem autoFill_changes_text_unrestrictedFile :
    let report := unrestrictedFile.command fillSecondLine
    (report.saved .whole).code = 0 ∧ ∃ settings before text,
      unrestrictedFile.loadSettings (some "c.toml") = .ok settings ∧
        unrestrictedFile.document? "p.json" = some before ∧
        0 < 2 ∧ 2 ≤ before.lines.length ∧
        (unrestrictedFile.saved report .whole).document? "p.json" =
          some ((before.restrictedTo settings.restriction).withText 1 text) ∧
        ∀ path, path ≠ "p.json" →
          (unrestrictedFile.saved report .whole).read path = unrestrictedFile.read path := by
  have hsaved := autoFill_changes_text ofArguments_fillSecondLine unrestrictedFile .whole
  exact ⟨code_fillSecondLine, hsaved.1 code_fillSecondLine⟩

/-- More than a text has changed in that file: the document that it holds then has the restriction
of the settings, which it did not have before. -/
theorem autoFill_saves_restriction :
    let report := unrestrictedFile.command fillSecondLine
    (report.saved .whole).code = 0 ∧ ∃ before after,
      unrestrictedFile.document? "p.json" = some before ∧
        (unrestrictedFile.saved report .whole).document? "p.json" = some after ∧
        before.restriction = [] ∧ after.restriction = [.reiteration] ∧
        ∀ text, after ≠ before.withText 1 text := by
  obtain ⟨settings, before, text, hsettings, hbefore, -, -, hafter, -⟩ :=
    document?_saved ofArguments_fillSecondLine unrestrictedFile .whole code_fillSecondLine
  have hrestriction : settings.restriction = [.reiteration] := by
    have hread : (unrestrictedFile.loadSettings (some "c.toml")).toOption.map
        Settings.restriction = some [.reiteration] := by decide +kernel
    simpa [hsettings, Except.toOption] using hread
  have hnone : before.restriction = [] := by
    have hread : (unrestrictedFile.document? "p.json").map Document.restriction = some [] := by
      decide +kernel
    simpa [hbefore] using hread
  have hsaved : ((before.restrictedTo settings.restriction).withText 1 text).restriction =
      [.reiteration] := by
    simp [Document.restrictedTo, Document.withText, hrestriction, hnone]
  refine ⟨code_fillSecondLine, before, _, hbefore, hafter, hnone, hsaved, fun other h => ?_⟩
  have hsame : before.restriction = [.reiteration] :=
    (congrArg Document.restriction h).symm.trans hsaved
  rw [hnone] at hsame
  cases hsame

end World

end NaturalDeduction
