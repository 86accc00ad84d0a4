/-
  The announced events are a complete account of what a proof shows.

  A listener that starts from the snapshot of a proof, and applies every event,
  always holds the table of the snapshot. The proof goes through the table of
  the proof itself: each function that announces events is shown to announce
  what it does to that table, and in a well-formed proof the snapshot has the
  same table.
-/

import NaturalDeduction.Proof.View
import NaturalDeduction.Proofs.Store.Listener
import NaturalDeduction.Proofs.Store.Structure

namespace NaturalDeduction

namespace Proof

/-! ## What events account for -/

/-- The table of a proof's lines and goals. -/
def table (p : Proof) : Table := .ofRows p.lines p.goals

/-- No two lines share an identity, and no two goals do. -/
structure Distinct (p : Proof) : Prop where
  lines : (p.lines.map Line.id).Nodup
  goals : (p.goals.map Goal.id).Nodup

/-- Events account for what a proof becomes: they lead from its table to the later one. -/
def Accounts (p q : Proof) (events : List Event) : Prop :=
  p.Distinct → q.Distinct ∧ Follows p.table events q.table

variable {setting : Setting} {p q r : Proof} {events more : List Event} {index : Nat}

namespace Accounts

/-- What no listener sees needs no event. -/
theorem of_rows_eq (hlines : q.lines = p.lines) (hgoals : q.goals = p.goals) :
    Accounts p q [] := by
  intro hp
  refine ⟨⟨hlines ▸ hp.lines, hgoals ▸ hp.goals⟩, ?_⟩
  rw [table, table, hlines, hgoals]
  exact .nil _

theorem refl (p : Proof) : Accounts p p [] := of_rows_eq rfl rfl

theorem trans (h : Accounts p q events) (hmore : Accounts q r more) :
    Accounts p r (events ++ more) := by
  intro hp
  obtain ⟨hq, hfirst⟩ := h hp
  obtain ⟨hr, hsecond⟩ := hmore hq
  exact ⟨hr, hfirst.append hsecond⟩

/-- Changes that leave all identities in place need only be followed. -/
theorem of_ids_eq (hlines : q.lines.map Line.id = p.lines.map Line.id)
    (hgoals : q.goals.map Goal.id = p.goals.map Goal.id)
    (hfollows : p.Distinct → Follows p.table events q.table) : Accounts p q events :=
  fun hp => ⟨⟨hlines ▸ hp.lines, hgoals ▸ hp.goals⟩, hfollows hp⟩

/-- Nothing that a listener sees may be different. -/
theorem congr (h : Accounts p q events) (hlines : r.lines = q.lines) (hgoals : r.goals = q.goals) :
    Accounts p r events := by
  have hall := h.trans (of_rows_eq hlines hgoals)
  rwa [List.append_nil] at hall

theorem edited {α : Type} {outcome : Outcome α} (h : Accounts p outcome.proof outcome.events) :
    Accounts p (Proof.edited outcome).proof (Proof.edited outcome).events :=
  h.congr rfl rfl

/-! ### Single lines and goals -/

theorem set_line {line changed : Line} (hline : p.lines[index]? = some line)
    (htells : line.Tells changed events) (hlines : q.lines = p.lines.set index changed)
    (hgoals : q.goals = p.goals) : Accounts p q events := by
  refine .of_ids_eq ?_ (congrArg _ hgoals) fun hp => ?_
  · rw [hlines, map_set_eq hline htells.id_eq]
  obtain ⟨before, after, hsplit, hset, -⟩ := exists_append_of_getElem? hline
  have hnodup := hp.lines
  rw [hsplit] at hnodup
  rw [table, table, hlines, hset, hgoals, hsplit]
  exact Table.follows_line htells (key_not_mem_around hnodup)

theorem set_goal {goal changed : Goal} (hgoal : p.goals[index]? = some goal)
    (htells : goal.Tells changed events) (hgoals : q.goals = p.goals.set index changed)
    (hlines : q.lines = p.lines) : Accounts p q events := by
  refine .of_ids_eq (congrArg _ hlines) ?_ fun hp => ?_
  · rw [hgoals, map_set_eq hgoal htells.id_eq]
  obtain ⟨first, last, hsplit, hset, -⟩ := exists_append_of_getElem? hgoal
  have hnodup := hp.goals
  rw [hsplit] at hnodup
  rw [table, table, hgoals, hset, hlines, hsplit]
  exact Table.follows_goal htells (key_not_mem_around hnodup)

theorem notingAt_lines {change : Line → Line × List Event}
    (h : ∀ line : Line, line.Tells (change line).1 (change line).2)
    (hlines : q.lines = (notingAt index change p.lines).1) (hgoals : q.goals = p.goals) :
    Accounts p q (notingAt index change p.lines).2 := by
  unfold notingAt at hlines ⊢
  split at hlines
  · exact .of_rows_eq hlines hgoals
  · rename_i line hline
    exact .set_line hline (h line) hlines hgoals

theorem notingAt_goals {change : Goal → Goal × List Event}
    (h : ∀ goal : Goal, goal.Tells (change goal).1 (change goal).2)
    (hgoals : q.goals = (notingAt index change p.goals).1) (hlines : q.lines = p.lines) :
    Accounts p q (notingAt index change p.goals).2 := by
  unfold notingAt at hgoals ⊢
  split at hgoals
  · exact .of_rows_eq hlines hgoals
  · rename_i goal hgoal
    exact .set_goal hgoal (h goal) hgoals hlines

/-! ### All lines and goals -/

/-- Lines may be changed together with something that stands beside them. -/
theorem noting_lines {α : Type} (line : α → Line) {change : α → α × List Event}
    (h : ∀ a, (line a).Tells (line (change a).1) (change a).2) {as : List α}
    (has : as.map line = p.lines) (hlines : q.lines = (noting change as).1.map line)
    (hgoals : q.goals = p.goals) : Accounts p q (noting change as).2 := by
  have hids : ∀ a, (line (change a).1).id = (line a).id := fun a => (h a).id_eq
  refine .of_ids_eq ?_ (congrArg _ hgoals) fun hp => ?_
  · rw [hlines, ← has]
    exact map_key_noting hids as
  · have hnodup : (([] ++ as.map line).map Line.id).Nodup := has ▸ hp.lines
    rw [table, table, hlines, hgoals, ← has]
    exact Follows.noting (fun lines => Table.ofRows lines p.goals) hids
      (fun _ a _ hnot => Table.follows_line (h a) hnot) hnodup

theorem noting_goals {α : Type} (goal : α → Goal) {change : α → α × List Event}
    (h : ∀ a, (goal a).Tells (goal (change a).1) (change a).2) {as : List α}
    (has : as.map goal = p.goals) (hgoals : q.goals = (noting change as).1.map goal)
    (hlines : q.lines = p.lines) : Accounts p q (noting change as).2 := by
  have hids : ∀ a, (goal (change a).1).id = (goal a).id := fun a => (h a).id_eq
  refine .of_ids_eq (congrArg _ hlines) ?_ fun hp => ?_
  · rw [hgoals, ← has]
    exact map_key_noting hids as
  · have hnodup : (([] ++ as.map goal).map Goal.id).Nodup := has ▸ hp.goals
    rw [table, table, hlines, hgoals, ← has]
    exact Follows.noting (fun goals => Table.ofRows p.lines goals) hids
      (fun _ a _ hnot => Table.follows_goal (h a) hnot) hnodup

end Accounts

/-! ## Rearranging -/

theorem accounts_notingLine (p : Proof) (id : LineId) {change : Line → Line × List Event}
    (h : ∀ line : Line, line.Tells (change line).1 (change line).2) :
    Accounts p (p.notingLine id change).1 (p.notingLine id change).2 := by
  unfold notingLine
  split
  · exact .refl p
  · exact .notingAt_lines h rfl rfl

theorem accounts_invalidateEach (p : Proof) (ids : List LineId) :
    Accounts p (p.invalidateEach ids).1 (p.invalidateEach ids).2 := by
  induction ids generalizing p with
  | nil => exact .refl p
  | cons id ids ih =>
    simp only [invalidateEach]
    exact (accounts_notingLine p id Line.tells_invalidate).trans (ih _)

theorem accounts_resetGoals (p : Proof) : Accounts p p.resetGoals.1 p.resetGoals.2 :=
  .noting_goals id Goal.tells_reset (List.map_id _) (List.map_id _).symm rfl

theorem tells_place (p : Proof) (index : Nat) (line : Line) :
    line.Tells (p.place index line).1 (p.place index line).2 := by
  have hmoved := line.tells_setNumber index
  unfold place
  simp only
  split
  · exact hmoved
  · exact (hmoved.trans (Line.tells_setPremises _ _)).trans (Line.tells_invalidate _)

theorem accounts_placeAll (rows : Layout) (p : Proof) :
    Accounts p (p.placeAll rows).1 (p.placeAll rows).2 :=
  .noting_lines Prod.fst (fun _ => tells_place _ _ _) (List.zipIdx_map_fst _ _) rfl rfl

theorem accounts_rearranged (before : List (LineId × List LineId)) (rows : Layout) (p : Proof) :
    Accounts p (p.rearranged before rows).1 (p.rearranged before rows).2 := by
  simp only [rearranged]
  exact ((accounts_placeAll rows p).trans (accounts_invalidateEach _ _)).trans
    (accounts_resetGoals _)

theorem accounts_renumberGoals (p : Proof) :
    Accounts p p.renumberGoals.1 p.renumberGoals.2 :=
  .noting_goals Prod.fst (fun _ => Goal.tells_setNumber _ _) (List.zipIdx_map_fst _ _) rfl
    rfl

/-! ## Verification -/

theorem accounts_verifyLineAt (setting : Setting) (p : Proof) (index : Nat) :
    Accounts p (verifyLineAt setting p index).proof (verifyLineAt setting p index).events := by
  unfold verifyLineAt
  split
  · exact .refl p
  · rename_i line hline
    obtain ⟨consulted, hasked⟩ := exists_judgeLine_eq setting p index line
    -- A listener does not learn of pending verifications.
    have hdue : line.Tells { line with due? := none } [] := .of_entry_eq rfl rfl
    simp only [hasked]
    exact .set_line hline (hdue.trans (Line.tells_settle _ _ _)) rfl rfl

theorem accounts_firstIncorrect (setting : Setting) (p : Proof) (steps : List Nat) :
    Accounts p (firstIncorrect setting p steps).proof (firstIncorrect setting p steps).events := by
  induction steps generalizing p with
  | nil => exact .refl p
  | cons index steps ih =>
    simp only [firstIncorrect]
    split
    · exact (accounts_verifyLineAt setting p index).trans (ih _)
    · exact accounts_verifyLineAt setting p index

theorem accounts_reachFrom (setting : Setting) (p : Proof) (broken? : Option Nat)
    (candidates : List Nat) : Accounts p (reachFrom setting p broken? candidates).proof
      (reachFrom setting p broken? candidates).events := by
  induction candidates generalizing p broken? with
  | nil => cases broken? <;> exact .refl p
  | cons candidate others ih =>
    simp only [reachFrom]
    split
    · exact accounts_firstIncorrect setting p _
    · exact (accounts_firstIncorrect setting p _).trans (ih _ _)

theorem accounts_judgeGoal (setting : Setting) (p : Proof) (index : Nat) (goal : Goal) :
    Accounts p (judgeGoal setting p index goal).proof (judgeGoal setting p index goal).events := by
  obtain ⟨consulted, hasked⟩ := exists_consult_eq setting p (.goal index)
  unfold judgeGoal
  split
  · exact .refl p
  · exact .refl p
  · split
    · rename_i asked hconsult
      rw [hconsult] at hasked
      obtain rfl : asked = _ := hasked
      exact .of_rows_eq rfl rfl
    · rename_i asked hconsult
      rw [hconsult] at hasked
      obtain rfl : asked = _ := hasked
      have hfirst : Accounts p { p with consulted } [] := .of_rows_eq rfl rfl
      exact hfirst.trans (accounts_reachFrom _ _ _ _)

theorem goals_verifyLineAt (setting : Setting) (p : Proof) (index : Nat) :
    (verifyLineAt setting p index).proof.goals = p.goals := by
  unfold verifyLineAt
  split
  · rfl
  · rename_i line hline
    obtain ⟨consulted, hasked⟩ := exists_judgeLine_eq setting p index line
    simp only [hasked]

theorem goals_firstIncorrect (setting : Setting) (p : Proof) (steps : List Nat) :
    (firstIncorrect setting p steps).proof.goals = p.goals := by
  induction steps generalizing p with
  | nil => rfl
  | cons index steps ih =>
    simp only [firstIncorrect]
    split
    · simp only [ih, goals_verifyLineAt]
    · simp only [goals_verifyLineAt]

theorem goals_reachFrom (setting : Setting) (p : Proof) (broken? : Option Nat)
    (candidates : List Nat) : (reachFrom setting p broken? candidates).proof.goals = p.goals := by
  induction candidates generalizing p broken? with
  | nil => cases broken? <;> rfl
  | cons candidate others ih =>
    simp only [reachFrom]
    split
    · simp only [goals_firstIncorrect]
    · simp only [ih, goals_firstIncorrect]

/-- Judging a goal verifies lines and leaves all goals alone. -/
theorem goals_judgeGoal (setting : Setting) (p : Proof) (index : Nat) (goal : Goal) :
    (judgeGoal setting p index goal).proof.goals = p.goals := by
  obtain ⟨consulted, hasked⟩ := exists_consult_eq setting p (.goal index)
  have hgoals : (consult setting p (.goal index)).2.goals = p.goals := by rw [hasked]
  unfold judgeGoal
  split
  · rfl
  · rfl
  · split <;> rename_i hconsult <;> rw [hconsult] at hgoals
    · exact hgoals
    · exact (goals_reachFrom _ _ _ _).trans hgoals

theorem accounts_verifyGoalAt (setting : Setting) (p : Proof) (index : Nat) :
    Accounts p (verifyGoalAt setting p index).proof (verifyGoalAt setting p index).events := by
  unfold verifyGoalAt
  split
  · exact .refl p
  · rename_i goal hgoal
    have hjudged := accounts_judgeGoal setting p index goal
    rw [← goals_judgeGoal setting p index goal] at hgoal
    exact hjudged.trans (.set_goal hgoal (goal.tells_setMark _) rfl rfl)

/-! ## Edits -/

theorem accounts_writeLine (setting : Setting) (p : Proof) (index : Nat) (text : String) :
    Accounts p (writeLine setting p index text).1 (writeLine setting p index text).2 := by
  simp only [writeLine]
  refine .trans (.trans ?_ (accounts_invalidateEach _ _)) (accounts_resetGoals _)
  exact .notingAt_lines (fun line => (line.tells_setText text).congr rfl rfl) rfl rfl

theorem accounts_chooseRule (setting : Setting) (p : Proof) (index : Nat) (rule? : Option Rule) :
    Accounts p (chooseRule setting p index rule?).proof
      (chooseRule setting p index rule?).events := by
  simp only [chooseRule]
  refine .trans (.trans ?_ (accounts_resetGoals _)) (accounts_verifyLineAt _ _ _)
  exact .notingAt_lines (fun line => line.tells_setRule rule?) rfl rfl

theorem accounts_toggleCitation (setting : Setting) (p : Proof) (index : Nat) (line : Line)
    (id : LineId) : Accounts p (toggleCitation setting p index line id).proof
      (toggleCitation setting p index line id).events := by
  simp only [toggleCitation]
  refine .trans (.trans ?_ (accounts_resetGoals _)) (accounts_verifyLineAt _ _ _)
  exact .notingAt_lines (fun line => line.tells_setPremises _) rfl rfl

theorem accounts_restrict (p : Proof) (rules : List Rule) :
    Accounts p (p.restrict rules).proof (p.restrict rules).events := by
  simp only [restrict]
  refine .edited (.trans ?_ (accounts_resetGoals _))
  exact .noting_lines id Line.tells_invalidate (List.map_id _) (List.map_id _).symm rfl

theorem accounts_writeGoal (p : Proof) (index : Nat) (text : String) :
    Accounts p (p.writeGoal index text).proof (p.writeGoal index text).events :=
  .notingAt_goals (fun goal => goal.tells_setText text) rfl rfl

/-! ### Lines and goals added and removed -/

theorem accounts_insertLine (hp : WellFormedLines p) {row : Row} (hindex : index ≤ p.lines.length) :
    Accounts p (p.insertLine index row).proof (p.insertLine index row).events := by
  have hadded : Accounts p (p.withLine index row)
      [.lineAdded p.nextLine index row.level row.assumption] := by
    intro hdistinct
    refine ⟨⟨nodup_withLine row hp hindex, hdistinct.goals⟩, ?_⟩
    have hwhole : p.lines = p.lines.take index ++ p.lines.drop index :=
      (List.take_append_drop index p.lines).symm
    have hnew := hp.nextLine_not_mem
    rw [hwhole] at hnew
    have hfollows := Table.follows_lineAdded p.goals index row hnew
    rw [table, table, lines_withLine row hindex, List.append_assoc, List.singleton_append]
    rwa [← hwhole] at hfollows
  simp only [insertLine]
  exact hadded.trans (accounts_rearranged _ _ _)

theorem filterMap_range'_getElem? {α : Type} (as : List α) (index count : Nat) :
    (List.range' index count).filterMap (as[·]?) = (as.drop index).take count := by
  induction count generalizing index with
  | zero => rfl
  | succ count ih =>
    rw [List.range'_succ, List.filterMap_cons, ih]
    cases h : as[index]? with
    | none =>
      have hlength := List.getElem?_eq_none_iff.1 h
      simp [List.drop_eq_nil_of_le hlength, List.drop_eq_nil_of_le (Nat.le_succ_of_le hlength)]
    | some a =>
      obtain ⟨hlt, rfl⟩ := List.getElem?_eq_some_iff.1 h
      rw [List.drop_eq_getElem_cons hlt, List.take_succ_cons]

/-- The lines that are taken out stand one after the other. -/
theorem deleted_eq_map (p : Proof) (index : Nat) :
    p.deleted index = ((p.lines.drop index).take
      (p.layout.subproofRange index).length).map Line.id := by
  have hrange : p.layout.subproofRange index =
      List.range' index (p.layout.subproofRange index).length := by
    unfold Layout.subproofRange
    split
    · rw [List.length_range']
    · rfl
  rw [deleted, ← filterMap_range'_getElem?, List.map_filterMap, ← hrange]
  rfl

theorem accounts_cutLines (p : Proof) (index : Nat) :
    Accounts p (p.cutLines index).proof (p.cutLines index).events := by
  have hcut : Accounts p (p.withoutLines index) ((p.deleted index).map .lineRemoved) := by
    intro hdistinct
    have hwhole := take_append_drop_append p.lines index (p.layout.subproofRange index).length
    refine ⟨⟨hdistinct.lines.sublist ((sublist_cut _ _ _).map _), hdistinct.goals⟩, ?_⟩
    have hnodup := hdistinct.lines
    rw [← hwhole] at hnodup
    have hfollows := Table.follows_lineRemoved_each p.goals hnodup
    rw [hwhole] at hfollows
    rw [deleted_eq_map, List.map_map]
    exact hfollows
  simp only [cutLines]
  exact hcut.trans (accounts_rearranged _ _ _)

theorem accounts_insertGoal (hp : WellFormedGoals p) (hindex : index ≤ p.goals.length) :
    Accounts p (p.insertGoal index).proof (p.insertGoal index).events := by
  have hnew : p.nextGoal ∉ p.goals.map Goal.id := by
    intro hmem
    obtain ⟨goal, hgoal, hid⟩ := List.mem_map.1 hmem
    exact Nat.lt_irrefl _ (hid ▸ hp.goalId_lt goal hgoal)
  have hadded : Accounts p { p with
      goals := p.goals.insertIdx index (Goal.new p.nextGoal index)
      nextGoal := p.nextGoal + 1 } [.goalAdded p.nextGoal index] := by
    intro hdistinct
    have hwhole : p.goals = p.goals.take index ++ p.goals.drop index :=
      (List.take_append_drop index p.goals).symm
    refine ⟨⟨hdistinct.lines, ?_⟩, ?_⟩
    · rw [List.map_insertIdx, (List.perm_insertIdx _ _ (by simpa using hindex)).nodup_iff,
        List.nodup_cons]
      exact ⟨hnew, hdistinct.goals⟩
    · rw [hwhole] at hnew
      have hfollows := Table.follows_goalAdded p.lines index hnew
      rw [table, table, Layout.insertIdx_eq_append hindex, List.append_assoc, List.singleton_append]
      rwa [← hwhole] at hfollows
  simp only [insertGoal]
  exact hadded.trans (accounts_renumberGoals _)

theorem accounts_cutGoal (hindex : index < p.goals.length) :
    Accounts p (p.cutGoal index).proof (p.cutGoal index).events := by
  have hgoal := List.getElem?_eq_getElem hindex
  have hcut : Accounts p { p with goals := p.goals.eraseIdx index }
      [.goalRemoved p.goals[index].id] := by
    intro hdistinct
    have hnodup := hdistinct.goals
    refine ⟨⟨hdistinct.lines, hnodup.sublist ((List.eraseIdx_sublist _ _).map _)⟩, ?_⟩
    obtain ⟨first, last, hsplit, -, herase⟩ := exists_append_of_getElem? hgoal
    rw [hsplit] at hnodup
    have hfollows := Table.follows_goalRemoved p.lines (key_not_mem_around hnodup)
    rw [← hsplit] at hfollows
    rw [table, table, herase]
    exact hfollows
  simp only [cutGoal, hgoal]
  exact hcut.trans (accounts_renumberGoals _)

/-- Every change is accounted for. -/
theorem Change.accounts (hp : WellFormed p) (h : Change setting p q events) :
    Accounts p q events := by
  cases h with
  | verifyLine index => exact accounts_verifyLineAt setting p index
  | verifyGoal index => exact accounts_verifyGoalAt setting p index
  | insert index row hindex hvalid =>
    exact .edited (accounts_insertLine hp.toWellFormedLines hindex)
  | remove index hindex hvalid =>
    exact .edited (accounts_cutLines p index)
  | write index text line hline htext => exact .edited (accounts_writeLine _ _ _ _)
  | chooseRule index rule? line hline hrule => exact .edited (accounts_chooseRule _ _ _ _)
  | toggle index premise line id hline hid hassumption haccessible =>
    exact .edited (accounts_toggleCitation _ _ _ _ _)
  | restrict rules => exact accounts_restrict p rules
  | addGoal index hindex => exact .edited (accounts_insertGoal hp.toWellFormedGoals hindex)
  | removeGoal index hindex hcount => exact .edited (accounts_cutGoal hindex)
  | writeGoal index text goal hgoal htext => exact .edited (accounts_writeGoal _ _ _)
  | wait time => exact .of_rows_eq rfl rfl

end Proof

/-! ## Snapshots -/

/-- The entry of a goal that a view shows. -/
def GoalView.entry (view : GoalView) : GoalEntry := ⟨view.number, view.text, view.mark⟩

namespace Snapshot

/-- The entry of a line that a view shows. The view cites positions, the entry identities. -/
def lineEntry (snapshot : Snapshot) (view : LineView) : LineEntry where
  number := view.number
  level := view.level
  assumption := view.assumption
  text := view.text
  premises := Ascending.ofList
    (view.premises.filterMap fun number => snapshot.lines[number]?.map LineView.id)
  rule? := view.rule?
  mark := view.mark

/-- The table that holds what a snapshot shows. -/
def table (snapshot : Snapshot) : Table where
  lines := valueOf LineView.id snapshot.lineEntry snapshot.lines
  goals := valueOf GoalView.id GoalView.entry snapshot.goals

end Snapshot

namespace Proof

variable {p q : Proof}

/-- From the positions that a line cites, the cited identities can be told. -/
theorem ofList_premiseNumbers (hp : WellFormedLines p) {line : Line} (hmem : line ∈ p.lines) :
    Ascending.ofList ((p.premiseNumbers line).filterMap p.lineId?) = line.premises := by
  obtain ⟨index, hline⟩ := List.mem_iff_getElem?.1 hmem
  refine (Ascending.pairwise_ofList _).eq_of_mem_iff (hp.premises_ascending line hmem) fun id => ?_
  rw [Ascending.mem_ofList, List.mem_filterMap]
  simp only [mem_premiseNumbers]
  constructor
  · rintro ⟨cited, ⟨other, hother, hposition⟩, hid⟩
    rw [hp.position_iff, hid] at hposition
    obtain rfl := Option.some.inj hposition
    exact hother
  · intro hid
    obtain ⟨cited, hposition, -⟩ := hp.premise_accessible index line hline id hid
    exact ⟨cited, ⟨id, hid, hposition⟩, (hp.position_iff id cited).1 hposition⟩

/-- A snapshot shows the table of the proof. -/
theorem table_snapshot (hp : WellFormedLines p) : p.snapshot.table = p.table := by
  have hentry : ∀ line ∈ p.lines, p.snapshot.lineEntry (p.viewLine line) = line.entry := by
    intro line hmem
    have hids : (fun number => p.snapshot.lines[number]?.map LineView.id) = p.lineId? := by
      funext number
      rw [snapshot, List.getElem?_map, Option.map_map]
      rfl
    have hpremises := ofList_premiseNumbers hp hmem
    rw [← hids] at hpremises
    rw [Snapshot.lineEntry, viewLine, hpremises]
    rfl
  have hlines : p.snapshot.table.lines = p.table.lines := valueOf_map hentry
  have hgoals : p.snapshot.table.goals = p.table.goals := valueOf_map fun _ _ => rfl
  exact Table.ext hlines hgoals

/-- Nothing that a snapshot shows is missing from its table. -/
theorem snapshot_eq_of_table_eq (hp : WellFormed p) (hq : WellFormed q)
    (h : p.table = q.table) : p.snapshot = q.snapshot := by
  have hlines := map_eq_of_valueOf_eq hp.ids_nodup hq.ids_nodup hp.number_eq hq.number_eq
    (fun _ _ heq => congrArg LineEntry.number heq) (congrArg Table.lines h)
  have hgoals := map_eq_of_valueOf_eq hp.goalIds_nodup hq.goalIds_nodup hp.goalNumber_eq
    hq.goalNumber_eq (fun _ _ heq => congrArg GoalEntry.number heq) (congrArg Table.goals h)
  have hposition : p.position? = q.position? := by
    have hids := congrArg (List.map Prod.fst) hlines
    rw [List.map_map, List.map_map] at hids
    funext id
    apply Option.ext
    intro index
    have hat : p.lineId? index = q.lineId? index := by
      rw [lineId?, lineId?, ← List.getElem?_map, ← List.getElem?_map]
      exact congrArg (·[index]?) hids
    rw [hp.position_iff, hq.position_iff, hat]
  -- A view is a function of the identity, the entry and the positions.
  let lineView : LineId × LineEntry → LineView := fun row =>
    ⟨row.1, row.2.number, row.2.level, row.2.assumption, row.2.text,
      Ascending.ofList (row.2.premises.filterMap p.position?), row.2.rule?, row.2.mark⟩
  let goalView : GoalId × GoalEntry → GoalView := fun row =>
    ⟨row.1, row.2.number, row.2.text, row.2.mark⟩
  have hviews := congrArg (List.map lineView) hlines
  have hgoalViews := congrArg (List.map goalView) hgoals
  rw [List.map_map, List.map_map] at hviews hgoalViews
  have hview : q.viewLine = lineView ∘ fun line => (line.id, line.entry) := by
    funext line
    rw [viewLine, premiseNumbers, ← hposition]
    rfl
  rw [snapshot, snapshot, hview]
  exact congrArg₂ Snapshot.mk hviews hgoalViews

/-! ## Every session -/

theorem WellFormed.run_accounts (hp : WellFormed p) (setting : Setting)
    (operations : List Operation) : WellFormed (p.run setting operations).1 ∧
      Accounts p (p.run setting operations).1 (p.run setting operations).2 := by
  have hstart : WellFormed p ∧ Accounts p p [] := ⟨hp, .refl p⟩
  exact run_keep (fun q past => WellFormed q ∧ Accounts p q past)
    (fun ⟨hq, _⟩ => ⟨hq.length_layout, hq.valid⟩)
    (fun ⟨hq, haccounts⟩ hchange => ⟨hq.change hchange, haccounts.trans (hchange.accounts hq)⟩)
    operations [] hstart

/-- The events are a complete account of what a proof shows, and none is superfluous. A listener
that starts from the snapshot of any reachable proof and applies the events of any operations holds
the table of the snapshot afterwards; each event changes the table that it is applied to; and the
table tells the whole snapshot. -/
theorem replay_run (setting : Setting) {p : Proof} (hreachable : Reachable setting p)
    (operations : List Operation) :
    p.snapshot.table.replay (p.run setting operations).2 =
      (p.run setting operations).1.snapshot.table ∧
    (∀ before event after, (p.run setting operations).2 = before ++ event :: after →
      (p.snapshot.table.replay before).apply event ≠ p.snapshot.table.replay before) ∧
    ∀ r, Reachable setting r →
      r.snapshot.table = (p.run setting operations).1.snapshot.table →
      r.snapshot = (p.run setting operations).1.snapshot := by
  have hwell : ∀ {r : Proof}, Reachable setting r → WellFormed r := by
    rintro r ⟨start, past, hstart, rfl⟩
    exact ((WellFormed.initial hstart).run setting past).1
  have hp := hwell hreachable
  obtain ⟨hq, haccounts⟩ := hp.run_accounts setting operations
  obtain ⟨-, hfollows⟩ := haccounts ⟨hp.ids_nodup, hp.goalIds_nodup⟩
  rw [table_snapshot hp.toWellFormedLines, table_snapshot hq.toWellFormedLines]
  refine ⟨hfollows.replay_eq, fun before event after hsplit => ?_, fun r hr htable => ?_⟩
  · rw [hsplit] at hfollows
    exact hfollows.apply_ne
  · have hwellr := hwell hr
    rw [table_snapshot hwellr.toWellFormedLines] at htable
    exact snapshot_eq_of_table_eq hwellr hq htable

/-- A session with a subproof, a citation, a rule, verifications and a deletion. -/
theorem replay_run_session :
    ∃ operations, ((Proof.new []).run {} operations).2.length = 17 ∧
      (Proof.new []).snapshot.table.replay ((Proof.new []).run {} operations).2 =
        ((Proof.new []).run {} operations).1.snapshot.table := by
  let operations : List Operation := [.addPremise, .setText 0 "A", .startSubproof 0,
    .setText 1 "B", .addLine 2 ⟨1, false⟩, .setText 2 "A", .togglePremise 2 0,
    .setRule 2 (some .reiteration), .setGoalText 0 "A", .verifyAll, .delete 1, .addGoal 0]
  refine ⟨operations, ?_, (replay_run {} ⟨_, [], .new [], rfl⟩ operations).1⟩
  decide +kernel

end Proof

end NaturalDeduction
