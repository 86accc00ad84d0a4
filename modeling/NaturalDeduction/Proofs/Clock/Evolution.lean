/-
  What an operation does to the lines that timers are about.

  However an operation comes about, of a line that stays only two things matter:
  whether the operation has replaced its text, and whether it has verified the
  line. A line that is new has nothing pending, and its identity was not used
  before.
-/

import NaturalDeduction.Proofs.Clock.Stamps

namespace NaturalDeduction

variable {due? : Option Nat} {written? : Option LineId} {settled removed : List LineId}

/-- What becomes of a line that stays. A verification counts after a replaced text. -/
structure Stamp.Becomes (due? : Option Nat) (written? : Option LineId) (settled : List LineId)
    (old new : Stamp) : Prop where
  id_eq : new.id = old.id
  text_ne_iff : new.text ≠ old.text ↔ written? = some old.id
  due?_eq : new.due? =
    if old.id ∈ settled then none else if written? = some old.id then due? else old.due?

namespace Proof

variable {setting : Setting} {p q : Proof} {index : Nat}

/-- One step without the passing of time: lines that are not removed stay, those that are there
afterwards have stayed or are new, and only a line that is there is written. -/
structure Evolves (due? : Option Nat) (written? : Option LineId) (settled removed : List LineId)
    (p q : Proof) : Prop where
  now_eq : q.now = p.now
  exists_of_written : ∀ id, written? = some id → ∃ old ∈ p.stamps, old.id = id
  stays : ∀ old ∈ p.stamps, old.id ∉ removed →
    ∃ new ∈ q.stamps, old.Becomes due? written? settled new
  origin : ∀ new ∈ q.stamps, new.id ∉ removed ∧
    ((∃ old ∈ p.stamps, old.Becomes due? written? settled new) ∨
      new.due? = none ∧ new.id = p.nextLine)

@[simp] theorem stamps_edited {α : Type} (outcome : Outcome α) :
    (edited outcome).proof.stamps = outcome.proof.stamps := rfl

theorem now_edited {α : Type} (outcome : Outcome α) (h : outcome.proof.ledger = p.ledger) :
    (edited outcome).proof.now = p.now :=
  show outcome.proof.now = p.now from now_eq_of_ledger_eq h

theorem stamps_rewritten (setting : Setting) (p : Proof) (index : Nat) (text : String) :
    (rewritten setting p index text).stamps = p.stamps.modify index fun stamp =>
      { stamp with text, due? := setting.debounce?.map (p.now + ·) } :=
  (stamps_edited _).trans (stamps_writeLine setting p index text)

theorem now_rewritten (setting : Setting) (p : Proof) (index : Nat) (text : String) :
    (rewritten setting p index text).now = p.now :=
  now_edited _ (ledger_writeLine setting p index text)

theorem now_verifyLineAt (setting : Setting) (p : Proof) (index : Nat) :
    (verifyLineAt setting p index).proof.now = p.now :=
  now_eq_of_ledger_eq (ledger_verifyLineAt ..)

theorem exists_of_lineId? {id : LineId} (h : p.lineId? index = some id) :
    ∃ stamp ∈ p.stamps, stamp.id = id := by
  rw [lineId?_eq_map_stamps, Option.map_eq_some_iff] at h
  obtain ⟨stamp, hstamp, hid⟩ := h
  exact ⟨stamp, List.mem_of_getElem? hstamp, hid⟩

namespace Evolves

/-- A step that changes each stamp by itself. -/
theorem of_map (hnow : q.now = p.now)
    (hwritten : ∀ id, written? = some id → ∃ old ∈ p.stamps, old.id = id) {change : Stamp → Stamp}
    (hstamps : q.stamps = p.stamps.map change)
    (hchange : ∀ stamp ∈ p.stamps, stamp.Becomes due? written? settled (change stamp)) :
    Evolves due? written? settled [] p q where
  now_eq := hnow
  exists_of_written := hwritten
  stays old hold _ := ⟨change old, hstamps ▸ List.mem_map_of_mem hold, hchange old hold⟩
  origin new hnew := by
    rw [hstamps] at hnew
    obtain ⟨old, hold, rfl⟩ := List.mem_map.1 hnew
    exact ⟨List.not_mem_nil, .inl ⟨old, hold, hchange old hold⟩⟩

/-- A step that verifies lines and does nothing else to stamps. -/
theorem of_settled (hnow : q.now = p.now)
    (hstamps : q.stamps = p.stamps.map (Stamp.settledIn settled)) :
    Evolves due? none settled [] p q := by
  refine .of_map hnow nofun hstamps fun stamp _ => ⟨stamp.id_settledIn settled, ?_, ?_⟩
  · unfold Stamp.settledIn
    split <;> simp [Stamp.settled]
  · unfold Stamp.settledIn
    split <;> simp [Stamp.settled]

theorem of_same (hnow : q.now = p.now) (hstamps : q.stamps = p.stamps) :
    Evolves due? none [] [] p q :=
  .of_settled hnow (by simpa using hstamps)

/-- A step that replaces a text by another one, and may verify lines then. -/
theorem of_written (hp : WellFormedLines p) (hnow : q.now = p.now) {line : Line}
    {text : String} (hline : p.lines[index]? = some line) (htext : line.text ≠ text)
    (hstamps : q.stamps = (p.stamps.modify index fun stamp => { stamp with text, due? }).map
      (Stamp.settledIn settled)) :
    Evolves due? (p.lineId? index) settled [] p q := by
  rw [modify_stamps hp, List.map_map] at hstamps
  refine .of_map hnow (fun _ => exists_of_lineId?) hstamps fun stamp hstamp => ?_
  obtain ⟨other, hother, rfl⟩ := List.mem_map.1 hstamp
  by_cases hid : p.lineId? index = some other.id
  · -- Identities are distinct, so this is the line at the position.
    obtain ⟨i, hi⟩ := List.mem_iff_getElem?.1 hother
    obtain rfl : index = i := hp.eq_of_lineId? hid (by rw [lineId?, hi]; rfl)
    obtain rfl : line = other := Option.some.inj (hline.symm.trans hi)
    refine ⟨by simp [hid, Line.stamp], ?_, ?_⟩ <;>
      by_cases hmem : line.id ∈ settled <;>
      simp [hid, hmem, Line.stamp, Stamp.settledIn, Stamp.settled, htext.symm]
  · refine ⟨by simp [hid, Line.stamp], ?_, ?_⟩ <;>
      by_cases hmem : other.id ∈ settled <;>
      simp [hid, hmem, Line.stamp, Stamp.settledIn, Stamp.settled]

theorem writeLine (hp : WellFormedLines p) {line : Line} {text : String}
    (hline : p.lines[index]? = some line) (htext : line.text ≠ text) :
    Evolves (setting.debounce?.map (p.now + ·)) (p.lineId? index) [] [] p
      (rewritten setting p index text) :=
  .of_written hp (now_rewritten ..) hline htext (by simp [stamps_rewritten])

/-- A line that is filled in is written and then verified. -/
theorem fillLine (hp : WellFormedLines p) {line : Line} {text : String}
    (hline : p.lines[index]? = some line) (htext : line.text ≠ text) :
    Evolves (setting.debounce?.map (p.now + ·)) (p.lineId? index) (p.lineId? index).toList [] p
      (verifyLineAt setting (rewritten setting p index text) index).proof := by
  have houtline := outline_rewritten setting p index text
  -- Writing a text moves no line, so the line verified is the one that stood there before.
  have hids : (rewritten setting p index text).lineId? = p.lineId? :=
    lineId?_congr (ids_eq_of_outline_eq houtline)
  refine .of_written hp ((now_verifyLineAt ..).trans (now_rewritten ..)) hline htext ?_
  rw [stamps_verifyLineAt_map setting (hp.congr_outline houtline), hids, stamps_rewritten]

/-- Putting in a line leaves the others as they are. -/
theorem insertLine (p : Proof) (index : Nat) (row : Row) :
    Evolves due? none [] [] p (edited (p.insertLine index row)).proof := by
  have hstamps := (stamps_edited _).trans (stamps_insertLine p index row)
  have hsame : ∀ stamp : Stamp, stamp.Becomes due? none [] stamp := fun stamp =>
    ⟨rfl, by simp, by simp⟩
  refine ⟨now_edited _ (ledger_insertLine p index row), nofun, fun old hold _ => ?_,
    fun new hnew => ⟨List.not_mem_nil, ?_⟩⟩
  · refine ⟨old, ?_, hsame old⟩
    rw [hstamps]
    exact List.subset_insertIdx _ _ _ hold
  · rw [hstamps] at hnew
    rcases List.eq_or_mem_of_mem_insertIdx hnew with rfl | hold
    · exact .inr ⟨rfl, rfl⟩
    · exact .inl ⟨new, hold, hsame new⟩

/-- Taking out lines leaves the others as they are. -/
theorem cutLines (hp : WellFormedLines p) (index : Nat) :
    Evolves due? none [] (p.deleted index) p (edited (p.cutLines index)).proof := by
  have hstamps := (stamps_edited _).trans (stamps_cutLines hp index)
  have hsame : ∀ stamp : Stamp, stamp.Becomes due? none [] stamp := fun stamp =>
    ⟨rfl, by simp, by simp⟩
  refine ⟨now_edited _ (ledger_cutLines p index), nofun, fun old hold hstays => ?_,
    fun new hnew => ?_⟩
  · refine ⟨old, ?_, hsame old⟩
    rw [hstamps]
    exact List.mem_filter.2 ⟨hold, decide_eq_true hstays⟩
  · rw [hstamps] at hnew
    obtain ⟨hold, hstays⟩ := List.mem_filter.1 hnew
    exact ⟨of_decide_eq_true hstays, .inl ⟨new, hold, hsame new⟩⟩

end Evolves

/-! ## Operations -/

theorem visitedBy_of_insertsLine {operation : Operation} (h : operation.insertsLine = true)
    (reply : Reply) : p.visitedBy setting operation reply = [] := by
  cases operation <;> first | rfl | cases h

theorem writtenBy?_of_insertsLine {operation : Operation} (h : operation.insertsLine = true)
    (reply : Reply) : p.writtenBy? operation reply = none := by
  cases operation <;> first | rfl | cases h

/-- What an operation that was carried out has done to the lines that stay, and which lines it has
removed. -/
theorem Performed.evolves (hp : WellFormedLines p) {operation : Operation} {reply : Reply}
    (h : Performed setting p operation reply q)
    (hoperation : ∀ milliseconds, operation ≠ .advance milliseconds) :
    Evolves (setting.debounce?.map (p.now + ·)) (p.writtenBy? operation reply)
      (p.settledBy setting operation reply) reply.removedLines p q := by
  cases h with
  | insert hinserts index row =>
    rw [settledBy, visitedBy_of_insertsLine hinserts, writtenBy?_of_insertsLine hinserts]
    exact .insertLine p index row
  | delete index => exact .cutLines hp index
  | keepText index line hline =>
    have hsame : p.writtenBy? (.setText index line.text) .done = none := by
      simp [writtenBy?, hline]
    rw [hsame]
    exact .of_same rfl rfl
  | setText index text line hline htext =>
    have hother : p.writtenBy? (.setText index text) .done = p.lineId? index := by
      simp [writtenBy?, hline, htext]
    rw [hother]
    exact .writeLine hp hline htext
  | keepRule index | verifyLine index =>
    exact .of_settled (now_verifyLineAt setting p index) (stamps_visit setting hp [index])
  | setRule index rule? =>
    refine .of_settled (now_edited _ (ledger_chooseRule ..)) ?_
    rw [stamps_edited, stamps_chooseRule, ← stamps_verifyLineAt setting]
    exact stamps_visit setting hp [index]
  | togglePremise index premise line id =>
    refine .of_settled (now_edited _ (ledger_toggleCitation ..)) ?_
    rw [stamps_edited, stamps_toggleCitation, ← stamps_verifyLineAt setting]
    exact stamps_visit setting hp [index]
  | restrict rules => exact .of_same rfl (stamps_restrict p rules)
  | verifyGoal index =>
    exact .of_settled (now_eq_of_ledger_eq (ledger_verifyGoalAt ..))
      (stamps_verifyGoalAt setting hp index)
  | verifyAll => exact .of_settled (now_eq_of_ledger_eq (ledger_verifyAll ..)) (stamps_verifyAll hp)
  | fillNothing | keepGoalText => exact .of_same rfl rfl
  | fill index text line hline hsuggestion htext =>
    have hsettled : p.settledBy setting (.autoFill index) (.filled (some text)) =
        (p.lineId? index).toList := by
      simp [settledBy, visitedBy, lineId?, hline]
    rw [hsettled]
    exact .fillLine hp hline htext
  | addGoal | removeGoal | setGoalText => exact .of_same rfl rfl
  | advance milliseconds => exact absurd rfl (hoperation milliseconds)

end Proof

end NaturalDeduction
