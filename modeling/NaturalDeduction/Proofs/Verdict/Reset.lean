/-
  What an edit resets.

  An edit of a text, and lines that come or go, put some lines and all goals
  back to the blank mark. These are just the lines whose claims hold something
  that changed: the edited line, the lines that cite it and those that cite the
  subproof it concludes; or the lines that lost a citation and those that cite
  the opener of a subproof whose lines changed. Everything else stays as it was,
  and nothing is verified.
-/

import NaturalDeduction.Proofs.Goal.Soundness
import NaturalDeduction.Proofs.Store.Structure
import NaturalDeduction.Proofs.Verdict.Upkeep

namespace NaturalDeduction

/-- The line with another text, waiting for a verification that is due then. -/
def Line.withText (due? : Option Nat) (text : String) (line : Line) : Line :=
  { (line.setText text).1 with due? }

namespace Proof

variable {setting : Setting} {p q : Proof} {index : Nat} {line : Line}

/-! ## What is reset and what stays -/

/-- From one state of a proof to another, the lines that stay and are affected are reset, and those
that stay and are not affected are as they were, but for their numbers. All lines stay but the
removed ones. The goals are reset, new lines show nothing, and no checker was asked. -/
structure ResetsExactly (p q : Proof) (removed : List LineId) (affected : Line → Line → Prop) :
    Prop where
  stays : ∀ before ∈ p.lines, before.id ∉ removed → ∃ after ∈ q.lines, after.id = before.id
  reset : ∀ before ∈ p.lines, ∀ after ∈ q.lines, after.id = before.id →
    affected before after → after.mark = .blank ∧ after.claim? = none
  kept : ∀ before ∈ p.lines, ∀ after ∈ q.lines, after.id = before.id →
    ¬ affected before after → after = { before with number := after.number }
  fresh : ∀ after ∈ q.lines, after.id ∉ p.lines.map Line.id →
    after.mark = .blank ∧ after.claim? = none
  goals : q.goals = p.goals.map (Goal.found .blank)
  consulted : q.consulted = p.consulted

/-- The claim of a line holds the text of the line at a position: it is that line, or it cites it,
or it cites the opener of a subproof that has the position among its conclusions. -/
def HoldsText (p : Proof) (index : Nat) (line : Line) : Prop :=
  p.lineId? index = some line.id ∨ (∃ id ∈ line.premises, p.lineId? index = some id) ∨
    ∃ opener, ∃ id ∈ line.premises, p.lineId? opener = some id ∧
      p.layout.isAssumption opener = true ∧ 0 < p.layout.levelAt opener ∧
      index ∈ p.layout.subproofConclusions opener

/-- The line with the identity is an assumption at level 1 or deeper, and its subproof has other
lines than it had before. -/
def Reshaped (p q : Proof) (id : LineId) : Prop :=
  ∃ opener, q.lineId? opener = some id ∧ q.layout.isAssumption opener = true ∧
    0 < q.layout.levelAt opener ∧
    ∀ former, p.lineId? former = some id → p.subproofIds former ≠ q.subproofIds opener

/-- A line lost a citation, or it cites the opener of a reshaped subproof. -/
def Rearranges (p q : Proof) (before after : Line) : Prop :=
  (∃ id ∈ before.premises, id ∉ after.premises) ∨ ∃ id ∈ after.premises, Reshaped p q id

/-! ## Invalidated lines -/

/-- Invalidating lines changes nothing but lines. -/
theorem exists_invalidateEach_eq (p : Proof) (ids : List LineId) :
    ∃ lines, (p.invalidateEach ids).1 = { p with lines } := by
  induction ids generalizing p with
  | nil => exact ⟨p.lines, rfl⟩
  | cons id ids ih =>
    have hnoted : ∃ lines, (p.notingLine id Line.invalidate).1 = { p with lines } := by
      unfold notingLine
      split
      · exact ⟨p.lines, rfl⟩
      · exact ⟨_, rfl⟩
    obtain ⟨noted, hnoted⟩ := hnoted
    obtain ⟨lines, hlines⟩ := ih { p with lines := noted }
    refine ⟨lines, ?_⟩
    simp only [invalidateEach, hnoted, hlines]

theorem resetGoals_eq (p : Proof) :
    p.resetGoals.1 = { p with goals := p.goals.map (Goal.found .blank) } := by
  simp only [resetGoals, noting_fst]
  rfl

/-! ## Editing a text -/

theorem id_mem_dependentsAt (hp : WellFormedLines p) (hline : line ∈ p.lines) :
    p.lineId? index = some line.id ∨ line.id ∈ p.dependentsAt index ↔ HoldsText p index line := by
  rw [HoldsText, mem_dependentsAt]
  simp only [hp.id_mem_citing hline, Layout.concludedSubproof?_eq_some_iff hp.valid,
    Layout.opens_iff]
  constructor
  · rintro (hat | ⟨id, hat, hid⟩ | ⟨opener, id, ⟨⟨hassumption, hlevel⟩, hconclusion⟩, hat, hid⟩)
    · exact .inl hat
    · exact .inr (.inl ⟨id, hid, hat⟩)
    · exact .inr (.inr ⟨opener, id, hid, hat, hassumption, hlevel, hconclusion⟩)
  · rintro (hat | ⟨id, hid, hat⟩ | ⟨opener, id, hid, hat, hassumption, hlevel, hconclusion⟩)
    · exact .inl hat
    · exact .inr (.inl ⟨id, hat, hid⟩)
    · exact .inr (.inr ⟨opener, id, ⟨⟨hassumption, hlevel⟩, hconclusion⟩, hat, hid⟩)

/-- Where no line comes or goes, a line is found at the position where it was. -/
theorem exists_getElem?_of_ids_eq (hp : WellFormedLines p)
    (hids : q.lines.map Line.id = p.lines.map Line.id) {before after : Line}
    (hbefore : before ∈ p.lines) (hafter : after ∈ q.lines) (hid : after.id = before.id) :
    ∃ position : Nat, p.lines[position]? = some before ∧ q.lines[position]? = some after := by
  obtain ⟨i, hi⟩ := List.mem_iff_getElem?.1 hbefore
  obtain ⟨j, hj⟩ := List.mem_iff_getElem?.1 hafter
  have hat : p.lineId? i = some before.id := by rw [lineId?, hi, Option.map_some]
  have hat' : p.lineId? j = some before.id := by
    rw [← lineId?_congr hids, lineId?, hj, Option.map_some, hid]
  obtain rfl := hp.eq_of_lineId? hat hat'
  exact ⟨i, hi, hj⟩

/-- The proof with another text on a line, before what depends on it is invalidated. -/
def withText (setting : Setting) (p : Proof) (index : Nat) (text : String) : Proof :=
  let due? := setting.debounce?.map (p.now + ·)
  { p with lines := p.lines.modify index (Line.withText due? text) }

/-- A text is replaced, then the lines that depend on it and all goals are reset. -/
theorem exists_rewritten_eq (setting : Setting) (p : Proof) (index : Nat) (text : String) :
    ∃ lines edits, rewritten setting p index text =
        { p with lines, edits, goals := p.goals.map (Goal.found .blank) } ∧
      lines = ((withText setting p index text).invalidateEach (p.dependentsAt index)).1.lines := by
  obtain ⟨lines, hlines⟩ :=
    exists_invalidateEach_eq (withText setting p index text) (p.dependentsAt index)
  have hwritten : (writeLine setting p index text).1 =
      { p with lines, goals := p.goals.map (Goal.found .blank) } := by
    simp only [writeLine, notingAt_fst]
    change ((withText setting p index text).invalidateEach _).1.resetGoals.1 = _
    rw [hlines, resetGoals_eq]
    rfl
  refine ⟨lines, p.edits + 1, ?_, by rw [hlines]⟩
  rw [rewritten, edited, hwritten]

/-- The lines after a text was replaced. -/
theorem getElem?_lines_rewritten (hp : WellFormedLines p) (setting : Setting) (index : Nat)
    (text : String) (position : Nat) :
    (rewritten setting p index text).lines[position]? = p.lines[position]?.map fun line =>
      let written :=
        if index = position then line.withText (setting.debounce?.map (p.now + ·)) text else line
      if line.id ∈ p.dependentsAt index then written.invalidate.1 else written := by
  have houtline : ∀ line : Line,
      (line.withText (setting.debounce?.map (p.now + ·)) text).outline = line.outline :=
    fun line => line.outline_setText text
  have hwritten : WellFormedLines (withText setting p index text) :=
    hp.congr_outline (outline_with_lines (map_modify_eq houtline p.lines index))
  obtain ⟨lines, edits, hrewritten, hlines⟩ := exists_rewritten_eq setting p index text
  rw [hrewritten, hlines, getElem?_invalidateEach hwritten, withText, List.getElem?_modify,
    Option.map_eq_map, Option.map_map]
  congr 1
  funext line
  have hid : ∀ line : Line,
      (line.withText (setting.debounce?.map (p.now + ·)) text).id = line.id := by
    intro line
    have hsame := congrArg Line.id (houtline line)
    exact hsame
  by_cases hposition : index = position
  · simp [hposition, hid]
  · simp [hposition]

/-- Replacing a text resets the lines whose claims hold it. -/
theorem resetsExactly_rewritten (hp : WellFormedLines p) (hline : p.lines[index]? = some line)
    {text : String} (htext : line.text ≠ text) (setting : Setting) :
    ResetsExactly p (rewritten setting p index text) []
      fun before _ => HoldsText p index before := by
  have hids : (rewritten setting p index text).lines.map Line.id = p.lines.map Line.id :=
    ids_eq_of_outline_eq (outline_rewritten setting p index text)
  have hlines := getElem?_lines_rewritten hp setting index text
  obtain ⟨_, _, hrewritten, -⟩ := exists_rewritten_eq setting p index text
  refine ⟨fun before hbefore _ => ?_, fun before hbefore after hafter hid haffected => ?_,
    fun before hbefore after hafter hid hnot => ?_, fun after hafter hnew => ?_,
    by rw [hrewritten], by rw [hrewritten]⟩
  · have hmem : before.id ∈ (rewritten setting p index text).lines.map Line.id :=
      hids ▸ List.mem_map_of_mem hbefore
    obtain ⟨after, hafter, hid⟩ := List.mem_map.1 hmem
    exact ⟨after, hafter, hid⟩
  · obtain ⟨position, hposition, hat⟩ := exists_getElem?_of_ids_eq hp hids hbefore hafter hid
    rw [hlines, hposition, Option.map_some, Option.some.injEq] at hat
    by_cases hdepends : before.id ∈ p.dependentsAt index
    · simp only [if_pos hdepends] at hat
      subst hat
      exact ⟨rfl, rfl⟩
    · -- Else it is the edited line itself.
      have hself : p.lineId? index = some before.id :=
        ((id_mem_dependentsAt hp hbefore).2 haffected).resolve_right hdepends
      have hat' : p.lineId? position = some before.id := by
        rw [lineId?, hposition, Option.map_some]
      obtain rfl := hp.eq_of_lineId? hself hat'
      rw [hline] at hposition
      cases hposition
      simp only [if_neg hdepends, if_true, Line.withText, Line.setText, if_neg htext] at hat
      subst hat
      exact ⟨rfl, rfl⟩
  · obtain ⟨position, hposition, hat⟩ := exists_getElem?_of_ids_eq hp hids hbefore hafter hid
    rw [← id_mem_dependentsAt hp hbefore, not_or] at hnot
    have hother : index ≠ position := by
      rintro rfl
      exact hnot.1 (by rw [lineId?, hposition, Option.map_some])
    rw [hlines, hposition, Option.map_some, Option.some.injEq] at hat
    simp only [if_neg hnot.2, if_neg hother] at hat
    rw [← hat]
  · exact absurd (hids ▸ List.mem_map_of_mem hafter) hnew

/-! ## Lines that come and go -/

/-- A line cites a subproof with other lines than before just when it cites a reshaped one. -/
theorem id_mem_citingReshaped (hp : WellFormedLines p) (hq : WellFormedLines q)
    (hmoved : Moved p q) (hline : line ∈ q.lines) :
    line.id ∈ q.citingReshaped p.subproofs ↔ ∃ id ∈ line.premises, Reshaped p q id := by
  rw [citingReshaped, List.mem_flatMap]
  constructor
  · rintro ⟨⟨id, ids⟩, hentry, hciting⟩
    obtain ⟨hmem, hlookup⟩ := List.mem_filter.1 hentry
    obtain ⟨opener, hopens, hat, rfl⟩ := mem_subproofs.1 hmem
    obtain ⟨hassumption, hlevel⟩ := Layout.opens_iff.1 hopens
    refine ⟨id, (hq.id_mem_citing hline id).1 hciting, opener, hat, hassumption, hlevel,
      fun former hformer hsame => ?_⟩
    have hbefore : p.subproofs.lookup id = some (q.subproofIds opener) :=
      (lookup_subproofs_eq_some hp).2
        ⟨former, (hmoved.opens_eq ⟨id, hformer, hat⟩).symm.trans hopens, hformer, hsame⟩
    simp [hbefore] at hlookup
  · rintro ⟨id, hid, opener, hat, hassumption, hlevel, hchanged⟩
    have hmem : (id, q.subproofIds opener) ∈ q.subproofs :=
      mem_subproofs.2 ⟨opener, Layout.opens_iff.2 ⟨hassumption, hlevel⟩, hat, rfl⟩
    refine ⟨_, List.mem_filter.2 ⟨hmem, ?_⟩, (hq.id_mem_citing hline id).2 hid⟩
    rw [bne_iff_ne]
    intro hlookup
    obtain ⟨former, -, hformer, hsame⟩ := (lookup_subproofs_eq_some hp).1 hlookup
    exact hchanged former hformer hsame

theorem reshaped_congr {r : Proof} (hids : r.lines.map Line.id = q.lines.map Line.id)
    (hlayout : r.layout = q.layout) (id : LineId) : Reshaped p r id ↔ Reshaped p q id := by
  simp only [Reshaped, subproofIds, lineId?_congr hids, hlayout]

section Rearranged

variable {arranged : Proof} {rows : Layout} {before : List (LineId × List LineId)}

/-- A line that was put into place, and invalidated if it cites a reshaped subproof. -/
def settledLine (before : List (LineId × List LineId)) (rows : Layout) (arranged : Proof)
    (position : Nat) (line : Line) : Line :=
  let placed := ((arranged.indexed rows).place position line).1
  if line.id ∈ (arranged.placeAll rows).1.citingReshaped before then placed.invalidate.1
  else placed

@[simp] theorem id_settledLine (position : Nat) (line : Line) :
    (settledLine before rows arranged position line).id = line.id := by
  simp only [settledLine]
  split
  · exact id_place _ _ _
  · exact id_place _ _ _

@[simp] theorem premises_settledLine (position : Nat) (line : Line) :
    (settledLine before rows arranged position line).premises =
      (arranged.indexed rows).keptPremises position line := by
  simp only [settledLine]
  split
  · exact premises_place _ _ _
  · exact premises_place _ _ _

/-- A line that showed nothing shows nothing when it is settled. -/
theorem settledLine_blank {position : Nat} {line : Line} (hmark : line.mark = .blank)
    (hclaim : line.claim? = none) :
    (settledLine before rows arranged position line).mark = .blank ∧
      (settledLine before rows arranged position line).claim? = none := by
  simp only [settledLine]
  split
  · exact ⟨rfl, rfl⟩
  · rw [place_fst]
    split
    · exact ⟨hmark, hclaim⟩
    · exact ⟨rfl, rfl⟩

/-- Lines are put into place, then those that cite a reshaped subproof and all goals are reset. -/
theorem exists_rearranged_eq (before : List (LineId × List LineId)) (rows : Layout)
    (arranged : Proof) :
    ∃ lines, (arranged.rearranged before rows).1 =
        { (arranged.placeAll rows).1 with
          lines, goals := arranged.goals.map (Goal.found .blank) } ∧
      lines = ((arranged.placeAll rows).1.invalidateEach
        ((arranged.placeAll rows).1.citingReshaped before)).1.lines := by
  obtain ⟨lines, hinvalid⟩ := exists_invalidateEach_eq (arranged.placeAll rows).1
    ((arranged.placeAll rows).1.citingReshaped before)
  refine ⟨lines, ?_, by rw [hinvalid]⟩
  simp only [rearranged]
  rw [hinvalid, resetGoals_eq]
  rfl

/-- The lines after the lines that are left, or were added, were rearranged. -/
theorem getElem?_lines_rearranged (before : List (LineId × List LineId))
    (hplaced : WellFormedLines (arranged.placeAll rows).1) (position : Nat) :
    (arranged.rearranged before rows).1.lines[position]? =
      arranged.lines[position]?.map (settledLine before rows arranged position) := by
  obtain ⟨lines, hrearranged, hlines⟩ := exists_rearranged_eq before rows arranged
  rw [hrearranged, hlines, getElem?_invalidateEach hplaced, getElem?_lines_placeAll,
    Option.map_map]
  refine congrArg (Option.map · _) (funext fun line => ?_)
  rw [Function.comp_apply, id_place, settledLine]

/-- A line keeps all its citations just when it loses none. -/
theorem keptPremises_eq_iff : p.keptPremises index line = line.premises ↔
    ∀ id ∈ line.premises, id ∈ p.keptPremises index line := by
  simp only [keptPremises, List.filter_eq_self, List.mem_filter]
  exact forall₂_congr fun id hid => (and_iff_right hid).symm

variable {position : Nat}

/-- The lines that are affected lost a citation in their place, or were invalidated after it. -/
theorem rearranges_settledLine (hp : WellFormedLines p) (h : Arranges p arranged.lines)
    (hplaced : WellFormedLines (arranged.placeAll rows).1)
    (hline : arranged.lines[position]? = some line) :
    Rearranges p (arranged.rearranged p.subproofs rows).1 line
        (settledLine p.subproofs rows arranged position line) ↔
      (arranged.indexed rows).keptPremises position line ≠ line.premises ∨
        line.id ∈ (arranged.placeAll rows).1.citingReshaped p.subproofs := by
  have hcontent := content_rearranged p.subproofs rows arranged
  have hids := ids_eq_of_outline_eq (outline_eq_of_content_eq hcontent)
  have hlayout := layout_eq_of_content_eq hcontent
  have hmem : ((arranged.indexed rows).place position line).1 ∈
      (arranged.placeAll rows).1.lines := by
    refine List.mem_of_getElem? (?_ : _[position]? = _)
    rw [getElem?_lines_placeAll, hline, Option.map_some]
  have hreshaped := id_mem_citingReshaped hp hplaced (h.moved hp hplaced) hmem
  rw [id_place, premises_place] at hreshaped
  rw [Rearranges, premises_settledLine, hreshaped]
  simp only [reshaped_congr hids hlayout, ne_eq, keptPremises_eq_iff, not_forall, exists_prop]

/-- Rearranging lines resets those that lost a citation or cite a reshaped subproof. -/
theorem resetsExactly_rearranged (hp : WellFormedLines p) (h : Arranges p arranged.lines)
    (hplaced : WellFormedLines (arranged.placeAll rows).1)
    (hgoals : arranged.goals = p.goals) (hconsulted : arranged.consulted = p.consulted)
    {removed : List LineId}
    (hstays : ∀ line ∈ p.lines, line.id ∉ removed → line ∈ arranged.lines) :
    ResetsExactly p (arranged.rearranged p.subproofs rows).1 removed
      (Rearranges p (arranged.rearranged p.subproofs rows).1) := by
  have hlines := getElem?_lines_rearranged p.subproofs hplaced
  -- Every line comes from one that was put into place.
  have hfrom : ∀ after ∈ (arranged.rearranged p.subproofs rows).1.lines, ∃ position line,
      arranged.lines[position]? = some line ∧
        after = settledLine p.subproofs rows arranged position line := by
    intro after hafter
    obtain ⟨position, hat⟩ := List.mem_iff_getElem?.1 hafter
    rw [hlines, Option.map_eq_some_iff] at hat
    obtain ⟨line, hline, rfl⟩ := hat
    exact ⟨position, line, hline, rfl⟩
  -- A line with the identity of an old one comes from the old one.
  have hold : ∀ before ∈ p.lines, ∀ after ∈ (arranged.rearranged p.subproofs rows).1.lines,
      after.id = before.id → ∃ position, arranged.lines[position]? = some before ∧
        after = settledLine p.subproofs rows arranged position before := by
    intro before hbefore after hafter hid
    obtain ⟨position, line, hline, rfl⟩ := hfrom after hafter
    rw [id_settledLine] at hid
    rcases h.mem line (List.mem_of_getElem? hline) with hmem | ⟨hnew, -⟩
    · obtain rfl := List.inj_on_of_nodup_map hp.ids_nodup hmem hbefore hid
      exact ⟨position, hline, rfl⟩
    · exact absurd (hid ▸ List.mem_map_of_mem hbefore) hnew
  obtain ⟨_, hrearranged, -⟩ := exists_rearranged_eq p.subproofs rows arranged
  refine ⟨fun before hbefore hremains => ?_, fun before hbefore after hafter hid haffected => ?_,
    fun before hbefore after hafter hid hnot => ?_, fun after hafter hnew => ?_,
    by rw [hrearranged, hgoals], by rw [hrearranged, ← hconsulted]; rfl⟩
  · obtain ⟨position, hline⟩ := List.mem_iff_getElem?.1 (hstays before hbefore hremains)
    refine ⟨settledLine p.subproofs rows arranged position before, ?_, id_settledLine _ _⟩
    refine List.mem_of_getElem? (?_ : _[position]? = _)
    rw [hlines, hline, Option.map_some]
  · obtain ⟨position, hline, rfl⟩ := hold before hbefore after hafter hid
    rw [rearranges_settledLine hp h hplaced hline] at haffected
    simp only [settledLine]
    split
    · exact ⟨rfl, rfl⟩
    · rename_i hciting
      rw [place_fst, if_neg (haffected.resolve_right hciting)]
      exact ⟨rfl, rfl⟩
  · obtain ⟨position, hline, rfl⟩ := hold before hbefore after hafter hid
    rw [rearranges_settledLine hp h hplaced hline, not_or, not_not] at hnot
    simp only [settledLine, if_neg hnot.2, place_fst, if_pos hnot.1]
  · obtain ⟨position, line, hline, rfl⟩ := hfrom after hafter
    rw [id_settledLine] at hnew
    rcases h.mem line (List.mem_of_getElem? hline) with hmem | ⟨-, hmark, hclaim⟩
    · exact absurd (List.mem_map_of_mem hmem) hnew
    · exact settledLine_blank hmark hclaim

end Rearranged

/-- Adding a line removes none. -/
theorem resetsExactly_insertLine (hp : WellFormed p) {row : Row}
    (hq : WellFormed (p.insertLine index row).proof) :
    ResetsExactly p (p.insertLine index row).proof []
      (Rearranges p (p.insertLine index row).proof) := by
  have hq := hq.toWellFormedLines
  rw [proof_insertLine] at hq ⊢
  exact resetsExactly_rearranged hp.toWellFormedLines (.insertIdx hp index row) hq.of_rearranged rfl
    rfl fun line hline _ => (List.sublist_insertIdx _ _ _).subset hline

/-- Deleting a line removes it, or its whole subproof. -/
theorem resetsExactly_cutLines (hp : WellFormedLines p) (hq : WellFormed (p.cutLines index).proof) :
    ResetsExactly p (p.cutLines index).proof (p.deleted index)
      (Rearranges p (p.cutLines index).proof) := by
  have hq := hq.toWellFormedLines
  rw [proof_cutLines] at hq ⊢
  refine resetsExactly_rearranged hp (.cut p index _) hq.of_rearranged rfl rfl
    fun line hline hremains => ?_
  have hkept : line ∈ p.lines.filter (·.id ∉ p.deleted index) :=
    List.mem_filter.2 ⟨hline, by simpa using hremains⟩
  rw [filter_deleted hp] at hkept
  exact hkept

/-! ## Operations -/

/-- Counting an edit resets nothing. -/
theorem ResetsExactly.edited {α : Type} {outcome : Outcome α} {removed : List LineId}
    (h : ResetsExactly p outcome.proof removed (Rearranges p outcome.proof)) :
    ResetsExactly p (Proof.edited outcome).proof removed
      (Rearranges p (Proof.edited outcome).proof) :=
  ⟨h.stays, h.reset, h.kept, h.fresh, h.goals, h.consulted⟩

/-- Edits reset exactly the lines that they affect. In every proof that work leads to: replacing
the text of a line by another one resets the lines whose claims hold this text; adding a line, in
each of the four ways, and deleting lines reset the lines that lost a citation or cite a subproof
of which the lines changed. All goals are reset too. Every other line that is not deleted is as it
was, wherever it stands now, and nothing is verified. -/
theorem perform_resetsExactly {origin : Setting} (hreachable : Reachable origin p)
    {operation : Operation} {outcome : Outcome Reply}
    (hperformed : p.perform setting operation = .ok outcome) :
    (∀ index text line, operation = .setText index text → p.lines[index]? = some line →
      line.text ≠ text →
        ResetsExactly p outcome.proof [] fun before _ => HoldsText p index before) ∧
    (operation.insertsLine = true →
      ResetsExactly p outcome.proof [] (Rearranges p outcome.proof)) ∧
    ∀ index, operation = .delete index → ∃ removed, outcome.answer = .removed removed ∧
      ResetsExactly p outcome.proof removed (Rearranges p outcome.proof) := by
  have hp := hreachable.wellFormed
  have hq := hp.perform hperformed
  have hdone := Performed.of_perform hperformed
  clear hperformed
  obtain ⟨answer, q, events⟩ := outcome
  simp only at hdone hq ⊢
  -- Each kind of operation can have come to one thing only, but for a text that was there already.
  refine ⟨?_, fun hinserts => ?_, ?_⟩
  · rintro index text line rfl hline htext
    cases hdone with
    | insert hinserts => cases hinserts
    | keepText _ other hother =>
      rw [hline] at hother
      cases hother
      exact absurd rfl htext
    | setText _ _ other hother htext =>
      exact resetsExactly_rewritten hp.toWellFormedLines hother htext setting
  · cases hdone with
    | insert _ index row => exact (resetsExactly_insertLine hp hq.of_edited).edited
    | _ => cases hinserts
  · rintro index rfl
    cases hdone with
    | insert hinserts => cases hinserts
    | delete _ hindex =>
      exact ⟨_, rfl, (resetsExactly_cutLines hp.toWellFormedLines hq.of_edited).edited⟩

/-- A proof with three lines that are verified. -/
def chained : Proof := ((Proof.new []).run {} (chainedImplications ++ [.verifyAll])).1

theorem perform_resetsExactly_chained : Reachable {} chained ∧
    (∃ outcome, chained.perform {} (.setText 0 "P → R") = .ok outcome ∧
      ResetsExactly chained outcome.proof [] fun before _ => HoldsText chained 0 before) ∧
    (∃ outcome, chained.perform {} (.startSubproof 4) = .ok outcome ∧
      ResetsExactly chained outcome.proof [] (Rearranges chained outcome.proof)) ∧
    ∃ outcome removed, chained.perform {} (.delete 1) = .ok outcome ∧
      outcome.answer = .removed removed ∧
      ResetsExactly chained outcome.proof removed (Rearranges chained outcome.proof) := by
  have hreachable : Reachable {} chained := ⟨_, _, .new [], rfl⟩
  have hdone : ∀ operation : Operation, (chained.perform {} operation).isOk = true →
      ∃ outcome, chained.perform {} operation = .ok outcome := by
    intro operation hok
    cases h : chained.perform {} operation with
    | ok outcome => exact ⟨outcome, rfl⟩
    | error reason =>
      rw [h] at hok
      cases hok
  have hfirst : chained.lines[0]?.map Line.text = some "P → Q" := by decide +kernel
  obtain ⟨line, hline, htext⟩ := Option.map_eq_some_iff.1 hfirst
  have hother : line.text ≠ "P → R" := by simp [htext]
  obtain ⟨written, hwritten⟩ := hdone (.setText 0 "P → R") (by decide +kernel)
  obtain ⟨added, hadded⟩ := hdone (.startSubproof 4) (by decide +kernel)
  obtain ⟨cut, hcut⟩ := hdone (.delete 1) (by decide +kernel)
  obtain ⟨removed, hanswer, hresets⟩ := (perform_resetsExactly hreachable hcut).2.2 1 rfl
  exact ⟨hreachable,
    ⟨written, hwritten,
      (perform_resetsExactly hreachable hwritten).1 0 "P → R" line rfl hline hother⟩,
    ⟨added, hadded, (perform_resetsExactly hreachable hadded).2.1 rfl⟩,
    cut, removed, hcut, hanswer, hresets⟩

-- Without the second premise, the line that cited it is reset. The conditional proof below it cites
-- a subproof with the same lines as before, and stays verified.
example : (chained.attempt {} (.delete 1)).1.lines.map (·.mark.status) =
    [.unmarked, .unmarked, .correct, .unmarked, .correct] := by
  decide +kernel

end Proof

end NaturalDeduction
