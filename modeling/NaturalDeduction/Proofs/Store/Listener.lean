/-
  What a listener makes of the events.

  A listener keeps a table of lines and a table of goals, keyed by identity, and
  applies every announced event to them. `Follows` says that events lead from one
  table to another, and that each of them changes the table which it is applied
  to. The setters of lines and goals announce their changes in this sense, and so
  does everything that changes the elements of a list one after the other.
-/

import Mathlib.Data.List.Nodup
import Mathlib.Logic.Function.Basic
import NaturalDeduction.Proof.Line

namespace NaturalDeduction

/-! ## The table -/

/-- What a listener knows of a line. The premises are the identities of the cited lines, in
ascending order. -/
structure LineEntry where
  number : Nat
  level : Nat
  assumption : Bool
  text : String
  premises : List LineId
  rule? : Option Rule
  mark : Mark
  deriving DecidableEq, Repr

/-- What a listener knows of a goal. -/
structure GoalEntry where
  number : Nat
  text : String
  mark : Mark
  deriving DecidableEq, Repr

/-- The entry of a line that was just added. -/
def LineEntry.blank (number : Nat) (row : Row) : LineEntry :=
  ⟨number, row.level, row.assumption, "", [], none, .blank⟩

/-- The entry of a goal that was just added. -/
def GoalEntry.blank (number : Nat) : GoalEntry := ⟨number, "", .blank⟩

/-- The lines and goals that a listener knows, by identity. -/
@[ext] structure Table where
  lines : LineId → Option LineEntry
  goals : GoalId → Option GoalEntry

namespace Table

/-- Puts an entry for a line, or takes it out. -/
def setLine (table : Table) (id : LineId) (value? : Option LineEntry) : Table :=
  { table with lines := Function.update table.lines id value? }

/-- Puts an entry for a goal, or takes it out. -/
def setGoal (table : Table) (id : GoalId) (value? : Option GoalEntry) : Table :=
  { table with goals := Function.update table.goals id value? }

/-- Changes the entry of a line, if there is one. -/
def changeLine (table : Table) (id : LineId) (change : LineEntry → LineEntry) : Table :=
  table.setLine id ((table.lines id).map change)

/-- Changes the entry of a goal, if there is one. -/
def changeGoal (table : Table) (id : GoalId) (change : GoalEntry → GoalEntry) : Table :=
  table.setGoal id ((table.goals id).map change)

/-- Applies an event. What is added is blank, what is removed is gone, and every other event sets a
field. -/
def apply (table : Table) : Event → Table
  | .lineAdded id number level assumption =>
    table.setLine id (some (.blank number ⟨level, assumption⟩))
  | .lineRemoved id => table.setLine id none
  | .lineNumberChanged id number => table.changeLine id ({ · with number })
  | .lineTextChanged id text => table.changeLine id ({ · with text })
  | .lineStatusChanged id status message? =>
    table.changeLine id fun entry => { entry with mark := { entry.mark with status, message? } }
  | .lineRangeChanged id range? =>
    table.changeLine id fun entry => { entry with mark := { entry.mark with range? } }
  | .premisesChanged id premises => table.changeLine id ({ · with premises })
  | .ruleChanged id rule? => table.changeLine id ({ · with rule? })
  | .goalAdded id number => table.setGoal id (some (.blank number))
  | .goalRemoved id => table.setGoal id none
  | .goalNumberChanged id number => table.changeGoal id ({ · with number })
  | .goalTextChanged id text => table.changeGoal id ({ · with text })
  | .goalStatusChanged id status message? =>
    table.changeGoal id fun entry => { entry with mark := { entry.mark with status, message? } }
  | .goalRangeChanged id range? =>
    table.changeGoal id fun entry => { entry with mark := { entry.mark with range? } }

/-- Applies events in order. -/
def replay (table : Table) (events : List Event) : Table :=
  events.foldl apply table

variable (table : Table) {id : Nat}

@[simp] theorem setLine_setLine (value? other? : Option LineEntry) :
    (table.setLine id other?).setLine id value? = table.setLine id value? := by
  simp [setLine]

@[simp] theorem setGoal_setGoal (value? other? : Option GoalEntry) :
    (table.setGoal id other?).setGoal id value? = table.setGoal id value? := by
  simp [setGoal]

theorem setLine_inj {value? other? : Option LineEntry} :
    table.setLine id value? = table.setLine id other? ↔ value? = other? := by
  simp [setLine, (Function.update_injective table.lines id).eq_iff]

theorem setGoal_inj {value? other? : Option GoalEntry} :
    table.setGoal id value? = table.setGoal id other? ↔ value? = other? := by
  simp [setGoal, (Function.update_injective table.goals id).eq_iff]

@[simp] theorem changeLine_setLine (entry : LineEntry) (change : LineEntry → LineEntry) :
    (table.setLine id (some entry)).changeLine id change =
      table.setLine id (some (change entry)) := by
  simp [changeLine, setLine]

@[simp] theorem changeGoal_setGoal (entry : GoalEntry) (change : GoalEntry → GoalEntry) :
    (table.setGoal id (some entry)).changeGoal id change =
      table.setGoal id (some (change entry)) := by
  simp [changeGoal, setGoal]

end Table

/-! ## Events that lead from table to table -/

/-- Events lead from a table to another one, and each of them changes the table that it meets. -/
inductive Follows : Table → List Event → Table → Prop where
  | nil (table : Table) : Follows table [] table
  | cons {table last : Table} {event : Event} {events : List Event}
    (changes : table.apply event ≠ table) (rest : Follows (table.apply event) events last) :
    Follows table (event :: events) last

namespace Follows

variable {table next last : Table} {event : Event} {events more : List Event}

theorem one (h : table.apply event = next) (hne : next ≠ table) : Follows table [event] next := by
  subst h
  exact .cons hne (.nil _)

theorem append (h : Follows table events next) (hmore : Follows next more last) :
    Follows table (events ++ more) last := by
  induction h with
  | nil => exact hmore
  | cons changes _ ih => exact .cons changes (ih hmore)

theorem replay_eq (h : Follows table events last) : table.replay events = last := by
  induction h with
  | nil => rfl
  | cons _ _ ih => exact ih

/-- No event is superfluous where it stands. -/
theorem apply_ne (h : Follows table (events ++ event :: more) last) :
    (table.replay events).apply event ≠ table.replay events := by
  induction events generalizing table with
  | nil =>
    cases h with
    | cons changes _ => exact changes
  | cons first events ih =>
    cases h with
    | cons _ rest => exact ih rest

/-- A new mark is announced by its parts that are new. The table may hold the mark anywhere. -/
theorem of_changes (put : Mark → Table) (hput : Function.Injective put)
    {statusEvent : Status → Option String → Event} {rangeEvent : Option Span → Event}
    (hstatus : ∀ mark status message?, (put mark).apply (statusEvent status message?) =
      put { mark with status, message? })
    (hrange : ∀ mark range?, (put mark).apply (rangeEvent range?) = put { mark with range? })
    (before after : Mark) :
    Follows (put before) (before.changes after statusEvent rangeEvent) (put after) := by
  let between : Mark := { after with range? := before.range? }
  have hfirst : Follows (put before) (if before.status = after.status ∧
      before.message? = after.message? then [] else [statusEvent after.status after.message?])
      (put between) := by
    split
    · rename_i hsame
      have hbetween : between = before := by
        simp only [between, ← hsame.1, ← hsame.2]
      rw [hbetween]
      exact .nil _
    · rename_i hdiffer
      refine .one (hstatus before _ _) fun heq => hdiffer ?_
      have hmark := hput heq
      exact ⟨(congrArg Mark.status hmark).symm, (congrArg Mark.message? hmark).symm⟩
  have hsecond : Follows (put between) (if before.range? = after.range? then []
      else [rangeEvent after.range?]) (put after) := by
    split
    · rename_i hsame
      have hafter : between = after := by
        simp only [between, hsame]
      rw [hafter]
      exact .nil _
    · rename_i hdiffer
      refine .one (hrange between _) fun heq => hdiffer ?_
      exact (congrArg Mark.range? (hput heq)).symm
  exact hfirst.append hsecond

end Follows

/-! ## Single lines -/

namespace Line

/-- The entry of a line. -/
def entry (line : Line) : LineEntry :=
  ⟨line.number, line.level, line.assumption, line.text, line.premises, line.rule?, line.mark⟩

/-- Events tell what becomes of a line, whatever else there is. -/
structure Tells (line changed : Line) (events : List Event) : Prop where
  id_eq : changed.id = line.id
  follows (table : Table) : Follows (table.setLine line.id (some line.entry)) events
    (table.setLine line.id (some changed.entry))

theorem Tells.of_entry_eq {line changed : Line} (hid : changed.id = line.id)
    (h : changed.entry = line.entry) : line.Tells changed [] where
  id_eq := hid
  follows table := by
    rw [h]
    exact .nil _

theorem Tells.trans {line changed last : Line} {events more : List Event}
    (h : line.Tells changed events) (hmore : changed.Tells last more) :
    line.Tells last (events ++ more) where
  id_eq := hmore.id_eq.trans h.id_eq
  follows table := by
    have hrest := hmore.follows table
    rw [h.id_eq] at hrest
    exact (h.follows table).append hrest

theorem Tells.congr {line changed last : Line} {events : List Event}
    (h : line.Tells changed events) (hid : last.id = changed.id)
    (hentry : last.entry = changed.entry) : line.Tells last events := by
  have hall := h.trans (.of_entry_eq hid hentry)
  rwa [List.append_nil] at hall

/-- One event tells of a change when it sets what was changed. -/
theorem Tells.one {line changed : Line} {event : Event} (hid : changed.id = line.id)
    (hevent : ∀ table : Table, (table.setLine line.id (some line.entry)).apply event =
      table.setLine line.id (some changed.entry))
    (hne : changed.entry ≠ line.entry) : line.Tells changed [event] where
  id_eq := hid
  follows table := .one (hevent table) fun heq => hne (Option.some.inj ((table.setLine_inj).1 heq))

variable (line : Line)

theorem tells_setNumber (number : Nat) :
    line.Tells (line.setNumber number).1 (line.setNumber number).2 := by
  unfold setNumber
  split
  · exact .of_entry_eq rfl rfl
  · rename_i hne
    exact .one rfl (fun table => table.changeLine_setLine _ _)
      fun heq => hne (congrArg LineEntry.number heq).symm

theorem tells_setMark (mark : Mark) : line.Tells (line.setMark mark).1 (line.setMark mark).2 where
  id_eq := rfl
  follows table := by
    refine Follows.of_changes (fun mark => table.setLine line.id (some { line.entry with mark }))
      (fun mark other heq => ?_) (fun mark status message? => ?_) (fun mark range? => ?_)
      line.mark mark
    · exact congrArg LineEntry.mark (Option.some.inj ((table.setLine_inj).1 heq))
    · exact table.changeLine_setLine _ _
    · exact table.changeLine_setLine _ _

theorem tells_settle (mark : Mark) (claim? : Option Claim) :
    line.Tells (line.settle mark claim?).1 (line.settle mark claim?).2 := by
  -- A listener does not learn of the claim.
  have hclaim : line.Tells { line with claim? } [] := .of_entry_eq rfl rfl
  exact hclaim.trans (tells_setMark _ mark)

theorem tells_invalidate : line.Tells line.invalidate.1 line.invalidate.2 :=
  tells_settle line .blank none

theorem tells_setText (text : String) :
    line.Tells (line.setText text).1 (line.setText text).2 := by
  unfold setText
  split
  · exact .of_entry_eq rfl rfl
  · rename_i hne
    have hfirst : line.Tells { line with text } [.lineTextChanged line.id text] :=
      .one rfl (fun table => table.changeLine_setLine _ _)
        fun heq => hne (congrArg LineEntry.text heq).symm
    exact hfirst.trans (tells_invalidate _)

theorem tells_setRule (rule? : Option Rule) :
    line.Tells (line.setRule rule?).1 (line.setRule rule?).2 := by
  unfold setRule
  split
  · exact .of_entry_eq rfl rfl
  · rename_i hne
    exact .one rfl (fun table => table.changeLine_setLine _ _)
      fun heq => hne (congrArg LineEntry.rule? heq).symm

theorem tells_setPremises (premises : List LineId) :
    line.Tells (line.setPremises premises).1 (line.setPremises premises).2 := by
  unfold setPremises
  split
  · exact .of_entry_eq rfl rfl
  · rename_i hne
    exact .one rfl (fun table => table.changeLine_setLine _ _)
      fun heq => hne (congrArg LineEntry.premises heq).symm

end Line

/-! ## Single goals -/

namespace Goal

/-- The entry of a goal. -/
def entry (goal : Goal) : GoalEntry := ⟨goal.number, goal.text, goal.mark⟩

/-- Events tell what becomes of a goal, whatever else there is. -/
structure Tells (goal changed : Goal) (events : List Event) : Prop where
  id_eq : changed.id = goal.id
  follows (table : Table) : Follows (table.setGoal goal.id (some goal.entry)) events
    (table.setGoal goal.id (some changed.entry))

theorem Tells.refl (goal : Goal) : goal.Tells goal [] where
  id_eq := rfl
  follows _ := .nil _

theorem Tells.trans {goal changed last : Goal} {events more : List Event}
    (h : goal.Tells changed events) (hmore : changed.Tells last more) :
    goal.Tells last (events ++ more) where
  id_eq := hmore.id_eq.trans h.id_eq
  follows table := by
    have hrest := hmore.follows table
    rw [h.id_eq] at hrest
    exact (h.follows table).append hrest

/-- One event tells of a change when it sets what was changed. -/
theorem Tells.one {goal changed : Goal} {event : Event} (hid : changed.id = goal.id)
    (hevent : ∀ table : Table, (table.setGoal goal.id (some goal.entry)).apply event =
      table.setGoal goal.id (some changed.entry))
    (hne : changed.entry ≠ goal.entry) : goal.Tells changed [event] where
  id_eq := hid
  follows table := .one (hevent table) fun heq => hne (Option.some.inj ((table.setGoal_inj).1 heq))

variable (goal : Goal)

theorem tells_setNumber (number : Nat) :
    goal.Tells (goal.setNumber number).1 (goal.setNumber number).2 := by
  unfold setNumber
  split
  · exact .refl _
  · rename_i hne
    exact .one rfl (fun table => table.changeGoal_setGoal _ _)
      fun heq => hne (congrArg GoalEntry.number heq).symm

theorem tells_setMark (mark : Mark) : goal.Tells (goal.setMark mark).1 (goal.setMark mark).2 where
  id_eq := rfl
  follows table := by
    refine Follows.of_changes (fun mark => table.setGoal goal.id (some { goal.entry with mark }))
      (fun mark other heq => ?_) (fun mark status message? => ?_) (fun mark range? => ?_)
      goal.mark mark
    · exact congrArg GoalEntry.mark (Option.some.inj ((table.setGoal_inj).1 heq))
    · exact table.changeGoal_setGoal _ _
    · exact table.changeGoal_setGoal _ _

theorem tells_reset : goal.Tells goal.reset.1 goal.reset.2 :=
  tells_setMark goal .blank

theorem tells_setText (text : String) :
    goal.Tells (goal.setText text).1 (goal.setText text).2 := by
  unfold setText
  split
  · exact .refl _
  · rename_i hne
    have hfirst : goal.Tells { goal with text } [.goalTextChanged goal.id text] :=
      .one rfl (fun table => table.changeGoal_setGoal _ _)
        fun heq => hne (congrArg GoalEntry.text heq).symm
    exact hfirst.trans (tells_reset _)

end Goal

/-! ## Lists of lines and goals -/

/-- The values of the elements of a list, by their keys. -/
def valueOf {α β : Type} (key : α → Nat) (value : α → β) (as : List α) (id : Nat) : Option β :=
  (as.find? fun a => key a == id).map value

/-- Where keys are distinct, the key of an element is found nowhere around it. -/
theorem key_not_mem_around {α : Type} {key : α → Nat} {before after : List α} {a : α}
    (h : ((before ++ a :: after).map key).Nodup) : key a ∉ (before ++ after).map key := by
  rw [(List.perm_middle.map key).nodup_iff, List.map_cons, List.nodup_cons] at h
  exact h.1

/-- An element whose key is found nowhere around it is the one with its key. -/
theorem valueOf_append_cons {α β : Type} {key : α → Nat} {value : α → β} {before after : List α}
    {a : α} (h : key a ∉ (before ++ after).map key) :
    valueOf key value (before ++ a :: after) =
      Function.update (valueOf key value (before ++ after)) (key a) (some (value a)) := by
  funext id
  by_cases hid : id = key a
  · subst hid
    have hbefore : key a ∉ before.map key := fun hmem => h (by simp_all)
    have hnone : before.find? (fun b => key b == key a) = none := by
      simpa [List.find?_eq_none] using hbefore
    simp [valueOf, List.find?_append, hnone]
  · have hne : key a ≠ id := fun heq => hid heq.symm
    simp [valueOf, List.find?_append, hid, hne]

/-- An element stands between the ones before it and the ones after it. -/
theorem exists_append_of_getElem? {α : Type} {as : List α} {index : Nat} {a : α}
    (h : as[index]? = some a) : ∃ before after, as = before ++ a :: after ∧
      (∀ b, as.set index b = before ++ b :: after) ∧ as.eraseIdx index = before ++ after := by
  obtain ⟨hlt, rfl⟩ := List.getElem?_eq_some_iff.1 h
  refine ⟨as.take index, as.drop (index + 1), by simp, fun b => ?_, ?_⟩
  · rw [List.set_eq_take_append_cons_drop, if_pos hlt]
  · rw [List.eraseIdx_eq_take_drop_succ]

theorem valueOf_eq_none {α β : Type} {key : α → Nat} {value : α → β} {as : List α} {id : Nat}
    (h : id ∉ as.map key) : valueOf key value as id = none := by
  simpa [valueOf] using h

theorem valueOf_map {α β γ : Type} {key : β → Nat} {value : β → γ} {value' : α → γ} {f : α → β}
    {as : List α} (h : ∀ a ∈ as, value (f a) = value' a) :
    valueOf key value (as.map f) = valueOf (fun a => key (f a)) value' as := by
  funext id
  rw [valueOf, valueOf, List.find?_map, Option.map_map]
  refine Option.map_congr fun a ha => ?_
  exact h a (List.mem_of_find?_eq_some ha)

/-- In a list of distinct keys, each element is found by its own. -/
theorem valueOf_eq_some_iff {α β : Type} {key : α → Nat} {value : α → β} {as : List α}
    (h : (as.map key).Nodup) {id : Nat} {b : β} :
    valueOf key value as id = some b ↔ ∃ a ∈ as, key a = id ∧ value a = b := by
  simp only [valueOf, Option.map_eq_some_iff]
  constructor
  · rintro ⟨a, hfind, rfl⟩
    exact ⟨a, List.mem_of_find?_eq_some hfind, by simpa using List.find?_some hfind, rfl⟩
  · rintro ⟨a, hmem, rfl, rfl⟩
    have hsome : (as.find? fun other => key other == key a).isSome = true :=
      List.find?_isSome.2 ⟨a, hmem, beq_self_eq_true (key a)⟩
    obtain ⟨found, hfound⟩ := Option.isSome_iff_exists.1 hsome
    have hkey : key found = key a := by simpa using List.find?_some hfound
    obtain rfl := List.inj_on_of_nodup_map h (List.mem_of_find?_eq_some hfound) hmem hkey
    exact ⟨found, hfound, rfl⟩

/-- Where values tell the positions, lists with the same values by key agree at each position. -/
theorem exists_getElem?_of_valueOf_eq {α β : Type} {key number : α → Nat} {value : α → β}
    {as bs : List α} (has : (as.map key).Nodup) (hbs : (bs.map key).Nodup)
    (hnumber : ∀ index a, as[index]? = some a → number a = index)
    (hother : ∀ index b, bs[index]? = some b → number b = index)
    (hvalue : ∀ a b, value a = value b → number a = number b)
    (h : valueOf key value as = valueOf key value bs) {index : Nat} {a : α}
    (ha : as[index]? = some a) :
    ∃ b, bs[index]? = some b ∧ key b = key a ∧ value b = value a := by
  have hsome : valueOf key value as (key a) = some (value a) :=
    (valueOf_eq_some_iff has).2 ⟨a, List.mem_of_getElem? ha, rfl, rfl⟩
  rw [h, valueOf_eq_some_iff hbs] at hsome
  obtain ⟨b, hmem, hkey, hsame⟩ := hsome
  obtain ⟨other, hb⟩ := List.mem_iff_getElem?.1 hmem
  -- The other element stands where its number says, which is the number of the first one.
  have hindex := (hother other b hb).symm.trans ((hvalue b a hsame).trans (hnumber index a ha))
  exact ⟨b, hindex ▸ hb, hkey, hsame⟩

/-- So the lists have the same keys and values in the same order. -/
theorem map_eq_of_valueOf_eq {α β : Type} {key number : α → Nat} {value : α → β}
    {as bs : List α} (has : (as.map key).Nodup) (hbs : (bs.map key).Nodup)
    (hnumber : ∀ index a, as[index]? = some a → number a = index)
    (hother : ∀ index b, bs[index]? = some b → number b = index)
    (hvalue : ∀ a b, value a = value b → number a = number b)
    (h : valueOf key value as = valueOf key value bs) :
    as.map (fun a => (key a, value a)) = bs.map fun b => (key b, value b) := by
  apply List.ext_getElem?
  intro index
  rw [List.getElem?_map, List.getElem?_map]
  cases ha : as[index]? with
  | some a =>
    obtain ⟨b, hb, hkey, hsame⟩ :=
      exists_getElem?_of_valueOf_eq has hbs hnumber hother hvalue h ha
    rw [hb, Option.map_some, Option.map_some, hkey, hsame]
  | none =>
    cases hb : bs[index]? with
    | none => rfl
    | some b =>
      obtain ⟨a, hsome, -⟩ :=
        exists_getElem?_of_valueOf_eq hbs has hother hnumber hvalue h.symm hb
      rw [ha] at hsome
      cases hsome

/-- Changing the elements of a list one after the other is announced when each single change is.
The table looks at a part of the elements only. -/
theorem Follows.noting {α β : Type} (table : List β → Table) {key : β → Nat} {part : α → β}
    {change : α → α × List Event} (hkey : ∀ a, key (part (change a).1) = key (part a))
    (hstep : ∀ before a after, key (part a) ∉ (before ++ after).map key →
      Follows (table (before ++ part a :: after)) (change a).2
        (table (before ++ part (change a).1 :: after)))
    {before : List β} {as : List α} (h : ((before ++ as.map part).map key).Nodup) :
    Follows (table (before ++ as.map part)) (noting change as).2
      (table (before ++ (noting change as).1.map part)) := by
  -- What comes before the list was changed already.
  induction as generalizing before with
  | nil => exact .nil _
  | cons a as ih =>
    have hrest : (((before ++ [part (change a).1]) ++ as.map part).map key).Nodup := by
      simpa [hkey] using h
    have hlast := ih hrest
    rw [List.append_assoc, List.append_assoc] at hlast
    exact (hstep before a (as.map part) (key_not_mem_around h)).append hlast

/-- Changes that keep the key of each element keep the list of keys. -/
theorem map_key_noting {α β : Type} {key : β → Nat} {part : α → β} {change : α → α × List Event}
    (hkey : ∀ a, key (part (change a).1) = key (part a)) (as : List α) :
    ((noting change as).1.map part).map key = (as.map part).map key := by
  rw [noting_fst, List.map_map, List.map_map, List.map_map]
  exact List.map_congr_left fun a _ => hkey a

namespace Table

/-- The table of lists of lines and goals. -/
def ofRows (lines : List Line) (goals : List Goal) : Table where
  lines := valueOf Line.id Line.entry lines
  goals := valueOf Goal.id Goal.entry goals

variable {lines before after : List Line} {goals first last : List Goal} {events : List Event}

theorem ofRows_line (line : Line) (h : line.id ∉ (before ++ after).map Line.id) :
    ofRows (before ++ line :: after) goals =
      (ofRows (before ++ after) goals).setLine line.id (some line.entry) := by
  simp only [ofRows, setLine, valueOf_append_cons h]

theorem ofRows_goal (goal : Goal) (h : goal.id ∉ (first ++ last).map Goal.id) :
    ofRows lines (first ++ goal :: last) =
      (ofRows lines (first ++ last)).setGoal goal.id (some goal.entry) := by
  simp only [ofRows, setGoal, valueOf_append_cons h]

/-- What tells of a line tells of the lines around it as well. -/
theorem follows_line {line changed : Line} (htells : line.Tells changed events)
    (h : line.id ∉ (before ++ after).map Line.id) :
    Follows (ofRows (before ++ line :: after) goals) events
      (ofRows (before ++ changed :: after) goals) := by
  rw [ofRows_line line h, ofRows_line changed (htells.id_eq ▸ h), htells.id_eq]
  exact htells.follows _

theorem follows_goal {goal changed : Goal} (htells : goal.Tells changed events)
    (h : goal.id ∉ (first ++ last).map Goal.id) :
    Follows (ofRows lines (first ++ goal :: last)) events
      (ofRows lines (first ++ changed :: last)) := by
  rw [ofRows_goal goal h, ofRows_goal changed (htells.id_eq ▸ h), htells.id_eq]
  exact htells.follows _

theorem follows_lineAdded (goals : List Goal) {id : LineId} (number : Nat) (row : Row)
    (h : id ∉ (before ++ after).map Line.id) :
    Follows (ofRows (before ++ after) goals) [.lineAdded id number row.level row.assumption]
      (ofRows (before ++ Line.new id number row :: after) goals) := by
  rw [ofRows_line (Line.new id number row) h]
  refine .one rfl fun heq => ?_
  -- There was no entry for the line before.
  have hentry := congrFun (congrArg Table.lines heq) id
  simp [setLine, ofRows, valueOf_eq_none h, Line.new] at hentry

theorem follows_lineRemoved {line : Line} (h : line.id ∉ (before ++ after).map Line.id) :
    Follows (ofRows (before ++ line :: after) goals) [.lineRemoved line.id]
      (ofRows (before ++ after) goals) := by
  have hnone : (ofRows (before ++ after) goals).lines line.id = none := valueOf_eq_none h
  rw [ofRows_line line h]
  refine .one ?_ fun heq => ?_
  · rw [apply, setLine_setLine, setLine, ← hnone, Function.update_eq_self]
  · have hentry := congrFun (congrArg Table.lines heq) line.id
    simp [setLine, hnone] at hentry

theorem follows_goalAdded (lines : List Line) {id : GoalId} (number : Nat)
    (h : id ∉ (first ++ last).map Goal.id) :
    Follows (ofRows lines (first ++ last)) [.goalAdded id number]
      (ofRows lines (first ++ Goal.new id number :: last)) := by
  rw [ofRows_goal (Goal.new id number) h]
  refine .one rfl fun heq => ?_
  have hentry := congrFun (congrArg Table.goals heq) id
  simp [setGoal, ofRows, valueOf_eq_none h, Goal.new] at hentry

theorem follows_goalRemoved (lines : List Line) {goal : Goal}
    (h : goal.id ∉ (first ++ last).map Goal.id) :
    Follows (ofRows lines (first ++ goal :: last)) [.goalRemoved goal.id]
      (ofRows lines (first ++ last)) := by
  have hnone : (ofRows lines (first ++ last)).goals goal.id = none := valueOf_eq_none h
  rw [ofRows_goal goal h]
  refine .one ?_ fun heq => ?_
  · rw [apply, setGoal_setGoal, setGoal, ← hnone, Function.update_eq_self]
  · have hentry := congrFun (congrArg Table.goals heq) goal.id
    simp [setGoal, hnone] at hentry

/-- Lines are removed one after the other. -/
theorem follows_lineRemoved_each (goals : List Goal) {removed : List Line}
    (h : ((before ++ removed ++ after).map Line.id).Nodup) :
    Follows (ofRows (before ++ removed ++ after) goals)
      (removed.map fun line => .lineRemoved line.id) (ofRows (before ++ after) goals) := by
  induction removed with
  | nil =>
    rw [List.append_nil]
    exact .nil _
  | cons line removed ih =>
    rw [List.append_assoc, List.cons_append] at h ⊢
    have hsub : (before ++ removed ++ after).Sublist (before ++ line :: (removed ++ after)) := by
      rw [List.append_assoc]
      exact (List.Sublist.refl before).append (List.sublist_cons_self _ _)
    have hlast := ih (h.sublist (hsub.map _))
    rw [List.append_assoc] at hlast
    exact (follows_lineRemoved (key_not_mem_around h)).append hlast

end Table

end NaturalDeduction
