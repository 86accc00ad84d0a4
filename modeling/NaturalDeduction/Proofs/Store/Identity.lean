/-
  Which identities lines and goals have.

  Every identity is announced once, when it is issued, and the identities that
  are issued count upwards. So the lines of a proof are always among those it
  began with and those that were announced since, each with the row it was
  created with, and no identity ever stands for two of them.
-/

import NaturalDeduction.Proofs.Store.Announcement
import NaturalDeduction.Proofs.Store.Preservation

namespace NaturalDeduction.Proof

/-- The identities of the lines, each with the row of its line. -/
def entries (p : Proof) : List (LineId × Row) :=
  p.lines.map fun line => (line.id, line.row)

/-- The lines that were there at the start and those announced since, with the rows they were
created with. -/
def created (start : Proof) (events : List Event) : List (LineId × Row) :=
  start.entries ++ events.filterMap Event.addedLine?

/-- The goals that were there at the start and those announced since. -/
def createdGoals (start : Proof) (events : List Event) : List GoalId :=
  start.goals.map Goal.id ++ events.filterMap Event.addedGoal?

/-- What a proof becomes while events are announced: its lines and goals are the former ones or
announced ones, and the announced identities are the next ones in order. -/
structure Issues (p q : Proof) (events : List Event) : Prop where
  entries_subset : q.entries ⊆ p.created events
  goals_subset : q.goals.map Goal.id ⊆ p.createdGoals events
  lineIds_eq : ∃ count, q.nextLine = p.nextLine + count ∧
    (events.filterMap Event.addedLine?).map Prod.fst = List.range' p.nextLine count
  goalIds_eq : ∃ count, q.nextGoal = p.nextGoal + count ∧
    events.filterMap Event.addedGoal? = List.range' p.nextGoal count

variable {setting : Setting} {p q r : Proof} {events more : List Event}

theorem entries_eq_of_outline_eq (h : q.outline = p.outline) : q.entries = p.entries := by
  have hlines := congrArg entries h
  simp only [entries, outline, List.map_map] at hlines
  exact hlines

theorem goalIds_eq_of_outline_eq (h : q.outline = p.outline) :
    q.goals.map Goal.id = p.goals.map Goal.id := by
  have hgoals := congrArg (fun proof => proof.goals.map Goal.id) h
  simp only [outline, List.map_map] at hgoals
  exact hgoals

namespace Issues

theorem refl (p : Proof) : Issues p p [] where
  entries_subset := by simp [created]
  goals_subset := by simp [createdGoals]
  lineIds_eq := ⟨0, rfl, rfl⟩
  goalIds_eq := ⟨0, rfl, rfl⟩

/-- Identities issued one after the other are issued in order. -/
theorem trans (h : Issues p q events) (hmore : Issues q r more) :
    Issues p r (events ++ more) where
  entries_subset := by
    intro entry hentry
    have hmem := hmore.entries_subset hentry
    simp only [created, List.filterMap_append, List.mem_append] at hmem ⊢
    rcases hmem with hmem | hmem
    · have := h.entries_subset hmem
      simp only [created, List.mem_append] at this
      tauto
    · exact .inr (.inr hmem)
  goals_subset := by
    intro id hid
    have hmem := hmore.goals_subset hid
    simp only [createdGoals, List.filterMap_append, List.mem_append] at hmem ⊢
    rcases hmem with hmem | hmem
    · have := h.goals_subset hmem
      simp only [createdGoals, List.mem_append] at this
      tauto
    · exact .inr (.inr hmem)
  lineIds_eq := by
    obtain ⟨count, hnext, hids⟩ := h.lineIds_eq
    obtain ⟨others, hlast, hmore⟩ := hmore.lineIds_eq
    refine ⟨count + others, by rw [hlast, hnext, Nat.add_assoc], ?_⟩
    rw [List.filterMap_append, List.map_append, hids, hmore, hnext, List.range'_append_1]
  goalIds_eq := by
    obtain ⟨count, hnext, hids⟩ := h.goalIds_eq
    obtain ⟨others, hlast, hmore⟩ := hmore.goalIds_eq
    refine ⟨count + others, by rw [hlast, hnext, Nat.add_assoc], ?_⟩
    rw [List.filterMap_append, hids, hmore, hnext, List.range'_append_1]

/-- Nothing is issued when no new line or goal is announced and no line or goal is added. -/
theorem of_quiet (hquiet : Quiet events) (hentries : q.entries ⊆ p.entries)
    (hgoals : q.goals.map Goal.id ⊆ p.goals.map Goal.id) (hline : q.nextLine = p.nextLine)
    (hgoal : q.nextGoal = p.nextGoal) : Issues p q events where
  entries_subset := by
    rw [created, hquiet.filterMap_addedLine?, List.append_nil]
    exact hentries
  goals_subset := by
    rw [createdGoals, hquiet.filterMap_addedGoal?, List.append_nil]
    exact hgoals
  lineIds_eq := ⟨0, hline, by rw [hquiet.filterMap_addedLine?]; rfl⟩
  goalIds_eq := ⟨0, hgoal, by rw [hquiet.filterMap_addedGoal?]; rfl⟩

/-- Only the outline of the later proof matters. -/
theorem congr (h : r.outline = q.outline) (hq : Issues p q events) : Issues p r events where
  entries_subset := by
    rw [entries_eq_of_outline_eq h]
    exact hq.entries_subset
  goals_subset := by
    rw [goalIds_eq_of_outline_eq h]
    exact hq.goals_subset
  lineIds_eq := by
    have hnext := congrArg Proof.nextLine h
    obtain ⟨count, hline, hids⟩ := hq.lineIds_eq
    exact ⟨count, hnext.trans hline, hids⟩
  goalIds_eq := by
    have hnext := congrArg Proof.nextGoal h
    obtain ⟨count, hgoal, hids⟩ := hq.goalIds_eq
    exact ⟨count, hnext.trans hgoal, hids⟩

theorem of_outline_eq (hquiet : Quiet events) (h : q.outline = p.outline) : Issues p q events :=
  congr h (of_quiet hquiet (List.Subset.refl _) (List.Subset.refl _) rfl rfl)

theorem edited {α : Type} {outcome : Outcome α} (h : Issues p outcome.proof outcome.events) :
    Issues p (Proof.edited outcome).proof (Proof.edited outcome).events :=
  congr (outline_eq_of_content_eq (content_edited outcome)) h

end Issues

/-! ## Every change -/

theorem entries_placeAll (rows : Layout) (p : Proof) : (p.placeAll rows).1.entries = p.entries :=
  map_lines_placeAll fun _ _ => congrArg₂ Prod.mk (id_place _ _ _) (row_place _ _ _)

theorem goalIds_renumberGoals (p : Proof) :
    p.renumberGoals.1.goals.map Goal.id = p.goals.map Goal.id := by
  rw [goals_renumberGoals]
  apply List.ext_getElem?
  intro j
  cases hj : p.goals[j]? <;> simp [hj]

theorem issues_insertLine (p : Proof) (index : Nat) (row : Row) :
    Issues p (p.insertLine index row).proof (p.insertLine index row).events := by
  have hquiet : ∀ q : Proof, Quiet (q.rearranged p.subproofs (p.layout.insertIdx index row)).2 :=
    fun q => quiet_rearranged q _ _
  rw [proof_insertLine]
  -- What follows the placing of lines changes no outline.
  refine .congr (outline_eq_of_content_eq (content_rearranged _ _ _)) ?_
  refine ⟨?_, List.subset_append_left _ _, ⟨1, rfl, ?_⟩, ⟨0, rfl, ?_⟩⟩
  · intro entry hentry
    rw [entries_placeAll] at hentry
    obtain ⟨line, hline, rfl⟩ := List.mem_map.1 hentry
    simp only [created, insertLine, List.filterMap_cons, Event.addedLine?, List.mem_append]
    -- The line is the new one, which was announced, or an old one.
    rcases List.eq_or_mem_of_mem_insertIdx hline with rfl | hline
    · exact .inr (.head _)
    · exact .inl (List.mem_map.2 ⟨line, hline, rfl⟩)
  · simp only [insertLine, List.filterMap_cons, Event.addedLine?, (hquiet _).filterMap_addedLine?]
    rfl
  · simp only [insertLine, List.filterMap_cons, Event.addedGoal?, (hquiet _).filterMap_addedGoal?]
    rfl

theorem issues_cutLines (p : Proof) (index : Nat) :
    Issues p (p.cutLines index).proof (p.cutLines index).events := by
  rw [proof_cutLines]
  refine .congr (outline_eq_of_content_eq (content_rearranged _ _ _)) ?_
  -- Removals are announced, but no line or goal is new.
  refine .of_quiet ?_ ?_ (List.Subset.refl _) rfl rfl
  · simp only [cutLines, Quiet.append_iff, quiet_rearranged, and_true]
    intro event hevent
    obtain ⟨id, -, rfl⟩ := List.mem_map.1 hevent
    exact ⟨rfl, rfl⟩
  · rw [entries_placeAll]
    exact ((sublist_cut _ _ _).map _).subset

theorem issues_toggleCitation (p : Proof) (index : Nat) (line : Line) (id : LineId) :
    Issues p (toggleCitation setting p index line id).proof
      (toggleCitation setting p index line id).events := by
  have hentries : (p.lines.modify index fun other =>
      (other.setPremises (toggled line.premises id)).1).map (fun line => (line.id, line.row)) =
      p.entries := by
    apply map_modify_eq
    intro other
    rw [Line.setPremises_fst]
    rfl
  have hquiet := quiet_toggleCitation setting p index line id
  revert hquiet
  simp only [toggleCitation, notingAt_fst]
  intro hquiet
  refine .congr (outline_eq_of_content_eq (content_verifyLineAt _ _ _)) ?_
  refine .congr (outline_eq_of_content_eq (content_resetGoals _)) ?_
  exact .of_quiet hquiet (hentries ▸ List.Subset.refl _) (List.Subset.refl _) rfl rfl

theorem issues_insertGoal (p : Proof) (index : Nat) :
    Issues p (p.insertGoal index).proof (p.insertGoal index).events := by
  have hquiet := fun q : Proof => quiet_renumberGoals q
  refine ⟨?_, ?_, ⟨0, rfl, ?_⟩, ⟨1, rfl, ?_⟩⟩
  · exact List.subset_append_left _ _
  · intro id hid
    simp only [insertGoal, goalIds_renumberGoals] at hid
    obtain ⟨goal, hgoal, rfl⟩ := List.mem_map.1 hid
    simp only [createdGoals, insertGoal, List.filterMap_cons, Event.addedGoal?, List.mem_append]
    rcases List.eq_or_mem_of_mem_insertIdx hgoal with rfl | hgoal
    · exact .inr (.head _)
    · exact .inl (List.mem_map.2 ⟨goal, hgoal, rfl⟩)
  · simp only [insertGoal, List.filterMap_cons, Event.addedLine?, (hquiet _).filterMap_addedLine?]
    rfl
  · simp only [insertGoal, List.filterMap_cons, Event.addedGoal?, (hquiet _).filterMap_addedGoal?]
    rfl

theorem issues_cutGoal (p : Proof) (index : Nat) :
    Issues p (p.cutGoal index).proof (p.cutGoal index).events := by
  refine .of_quiet ?_ (List.Subset.refl _) ?_ rfl rfl
  · simp only [cutGoal, Quiet.append_iff, quiet_renumberGoals, and_true]
    intro event hevent
    obtain ⟨goal, -, rfl⟩ := List.mem_map.1 hevent
    exact ⟨rfl, rfl⟩
  · simp only [cutGoal, goalIds_renumberGoals]
    exact ((List.eraseIdx_sublist _ _).map _).subset

/-- Every change issues identities in order and invents no line or goal. -/
theorem Change.issues (h : Change setting p q events) : Issues p q events := by
  cases h with
  | verifyLine index =>
    exact .of_outline_eq (quiet_verifyLineAt _ _ _)
      (outline_eq_of_content_eq (content_verifyLineAt _ _ _))
  | verifyGoal index =>
    exact .of_outline_eq (quiet_verifyGoalAt _ _ _)
      (outline_eq_of_content_eq (content_verifyGoalAt _ _ _))
  | insert index row hindex hvalid => exact .edited (issues_insertLine p index row)
  | remove index hindex hvalid => exact .edited (issues_cutLines p index)
  | write index text line hline htext =>
    exact .edited (.of_outline_eq (quiet_writeLine _ _ _ _) (outline_writeLine _ _ _ _))
  | chooseRule index rule? line hline hrule =>
    exact .edited (.of_outline_eq (quiet_chooseRule _ _ _ _) (outline_chooseRule _ _ _ _))
  | toggle index premise line id hline hid hassumption haccessible =>
    exact .edited (issues_toggleCitation p index line id)
  | restrict rules => exact .of_outline_eq (quiet_restrict _ _) (outline_restrict _ _)
  | addGoal index hindex => exact .edited (issues_insertGoal p index)
  | removeGoal index hindex hcount => exact .edited (issues_cutGoal p index)
  | writeGoal index text goal hgoal htext =>
    exact .edited (.of_outline_eq (quiet_writeGoal _ _ _) (outline_writeGoal _ _ _))
  | wait time => exact .of_outline_eq .nil rfl

/-! ## Every state -/

/-- Identities below a bound, followed by those from the bound on, are distinct. -/
theorem nodup_append_range' {ids : List Nat} {next count : Nat} (hids : ids.Nodup)
    (hlt : ∀ id ∈ ids, id < next) : (ids ++ List.range' next count).Nodup := by
  refine List.nodup_append.2 ⟨hids, List.nodup_range', fun a ha b hb => ?_⟩
  have := hlt a ha
  have := (List.mem_range'_1.1 hb).1
  omega

/-- No identity is announced for two lines, or for one that was there before. -/
theorem WellFormedLines.nodup_created (hp : WellFormedLines p) (h : Issues p q events) :
    ((p.created events).map Prod.fst).Nodup := by
  obtain ⟨count, -, hids⟩ := h.lineIds_eq
  rw [created, List.map_append, hids, entries, List.map_map]
  refine nodup_append_range' hp.ids_nodup fun id hid => ?_
  obtain ⟨line, hline, rfl⟩ := List.mem_map.1 hid
  exact hp.id_lt line hline

theorem WellFormedGoals.nodup_createdGoals (hp : WellFormedGoals p) (h : Issues p q events) :
    (p.createdGoals events).Nodup := by
  obtain ⟨count, -, hids⟩ := h.goalIds_eq
  rw [createdGoals, hids]
  refine nodup_append_range' hp.goalIds_nodup fun id hid => ?_
  obtain ⟨goal, hgoal, rfl⟩ := List.mem_map.1 hid
  exact hp.goalId_lt goal hgoal

/-- Operations lead from a well-formed proof to a well-formed one, and issue identities in order. -/
theorem WellFormed.run (hp : WellFormed p) (setting : Setting) (operations : List Operation) :
    WellFormed (p.run setting operations).1 ∧
      Issues p (p.run setting operations).1 (p.run setting operations).2 := by
  have hstart : WellFormed p ∧ Issues p p [] := ⟨hp, .refl p⟩
  exact run_keep (fun q past => WellFormed q ∧ Issues p q past)
    (fun ⟨hq, _⟩ => ⟨hq.length_layout, hq.valid⟩)
    (fun ⟨hq, hissues⟩ hchange => ⟨hq.change hchange, hissues.trans hchange.issues⟩)
    operations [] hstart

theorem Reachable.wellFormed {setting : Setting} (h : Reachable setting p) : WellFormed p := by
  obtain ⟨start, operations, hstart, rfl⟩ := h
  exact ((WellFormed.initial hstart).run setting operations).1

theorem WellFormed.perform (hp : WellFormed p) {setting : Setting} {operation : Operation}
    {outcome : Outcome Reply} (h : p.perform setting operation = .ok outcome) :
    WellFormed outcome.proof := by
  have hdone : WellFormed (p.attempt setting operation).1 := (hp.run setting [operation]).1
  rwa [attempt, h] at hdone

/-- Counting an edit makes no difference. -/
theorem WellFormed.of_edited {α : Type} {outcome : Outcome α}
    (h : WellFormed (edited outcome).proof) : WellFormed outcome.proof :=
  h.congr (outline_eq_of_content_eq (content_edited _)).symm

end NaturalDeduction.Proof
