import GradlePublishing.Console
import GradlePublishing.Proofs.Table
import Mathlib.Data.List.Induction

/-!
The console as the outcome of what was done to it. What a cell holds is told by the last value it was
given (`lookup_contentOn_replay`); a cell that was never given one holds what it held at first, or
that it failed. The tables and the panel of log lines stay in step with what they are made from
(`IsInStep.replay`).
-/

namespace GradlePublishing

theorem makeTable_eq (content : Rows) : makeTable content = content := by
  suffices ∀ table : Rows,
      content.foldl (fun table row => table ++ [row]) table = table ++ content from this []
  induction content with
  | nil => exact fun table => (List.append_nil table).symm
  | cons row content ih =>
    intro table
    rw [List.foldl_cons, ih]
    exact List.append_assoc table [row] content

namespace Console

inductive Event
  | command (name : Text)
  | log (time : Text) (level : Level) (message : Text)
  | error (message : Text)
  | failed
  | deployRow (name value : Text)
  | coordinateRow (name value : Text)
  | publishRow (name value : Text)
  | packagedCopy (value : Text)
  deriving DecidableEq, Repr

def after (console : Console) : Event → Console
  | .command name => console.setCommand name
  | .log time level message => console.log time level message
  | .error message => console.setError message
  | .failed => console.markFailed
  | .deployRow name value => console.setDeployRow name value
  | .coordinateRow name value => console.setCoordinateRow name value
  | .publishRow name value => console.setPublishRow name value
  | .packagedCopy value => console.setPackagedCopy value

def replay (console : Console) (history : List Event) : Console := history.foldl after console

theorem replay_append (console : Console) (history more : List Event) :
    console.replay (history ++ more) = (console.replay history).replay more :=
  List.foldl_append

theorem replay_concat (console : Console) (history : List Event) (event : Event) :
    console.replay (history ++ [event]) = (console.replay history).after event :=
  replay_append console history [event]

inductive Board
  | deployment
  | coordinates
  | publishing
  | copy
  deriving DecidableEq, Repr

/-- The name of the only row in the results of a copy. -/
def copyName : Text := "Dump Defaults"

def Board.firstRows : Board → Rows
  | .deployment => [("Working Directory:", .processing), ("Project Version:", .processing),
      ("Snapshot:", .processing), ("Repository Key:", .processing)]
  | .coordinates => [("Group:", .processing), ("Artifact:", .processing), ("Version:", .processing),
      ("Package URL:", .processing)]
  | .publishing => [("Publish Command:", .processing), ("Build File:", .text "Not Specified")]
  | .copy => [(copyName, .processing)]

theorem nodup_firstRows (board : Board) : (board.firstRows.map (·.1)).Nodup := by
  cases board <;> decide

def rowsOn (console : Console) : Board → Rows
  | .deployment => console.deployment.table
  | .coordinates => console.coordinates.table
  | .publishing => console.publishing.table
  | .copy => [(copyName, console.packagedCopy)]

def contentOn (console : Console) : Board → Rows
  | .deployment => console.deployment.content
  | .coordinates => console.coordinates.content
  | .publishing => console.publishing.content
  | .copy => [(copyName, console.packagedCopy)]

/-- The table that an event writes to, with the name and the value. -/
def Event.update? : Event → Option (Board × Text × Text)
  | .deployRow name value => some (.deployment, name, value)
  | .coordinateRow name value => some (.coordinates, name, value)
  | .publishRow name value => some (.publishing, name, value)
  | .packagedCopy value => some (.copy, copyName, value)
  | _ => none

def Event.onRows (board : Board) (rows : Rows) (event : Event) : Rows :=
  match event.update? with
  | some (written, name, value) =>
    if written = board then setEntry name (.text value) rows else rows
  | none => if event = .failed then rows.map fun row => (row.1, row.2.fail) else rows

theorem contentOn_after (console : Console) (event : Event) (board : Board) :
    (console.after event).contentOn board = event.onRows board (console.contentOn board) := by
  cases event <;> cases board <;> rfl

def Event.valueFor? (board : Board) (name : Text) (event : Event) : Option Text :=
  event.update?.bind fun (written, key, value) =>
    if written = board ∧ key = name then some value else none

/-- The value that a cell was given last. -/
def lastValue? (board : Board) (name : Text) (history : List Event) : Option Text :=
  history.reverse.findSome? (Event.valueFor? board name)

theorem lastValue?_concat (board : Board) (name : Text) (history : List Event) (event : Event) :
    lastValue? board name (history ++ [event]) =
      (event.valueFor? board name).or (lastValue? board name history) := by
  rw [lastValue?, List.reverse_append, List.reverse_singleton, List.singleton_append,
    List.findSome?_cons]
  cases event.valueFor? board name <;> rfl

/-- What a cell shows that was never given a value. -/
def untouched (history : List Event) (cell : Cell) : Cell :=
  if .failed ∈ history ∧ cell = .processing then .text "[red]Failed[/red]" else cell

theorem untouched_concat (history : List Event) {event : Event} (other : event ≠ .failed) :
    untouched (history ++ [event]) = untouched history := by
  have same : Event.failed ∈ history ++ [event] ↔ Event.failed ∈ history := by
    rw [List.mem_append, List.mem_singleton, or_iff_left other.symm]
  funext cell
  simp only [untouched, same]

theorem untouched_failed (history : List Event) :
    untouched (history ++ [.failed]) = fun cell => (untouched history cell).fail := by
  funext cell
  cases cell with
  | processing =>
    simp only [untouched, List.mem_concat_self, and_self, if_true, and_true]
    split <;> rfl
  | text value => simp only [untouched, reduceCtorEq, and_false, if_false, Cell.fail]

theorem lookup_onRows (board : Board) (rows : Rows) (event : Event) (name : Text) :
    (event.onRows board rows).lookup name =
      ((event.valueFor? board name).map Cell.text).or
        ((rows.lookup name).map fun cell => if event = .failed then cell.fail else cell) := by
  cases written : event.update? with
  | none =>
    simp only [Event.onRows, Event.valueFor?, written, Option.bind_none, Option.map_none,
      Option.none_or]
    split
    · exact lookup_map Cell.fail name rows
    · simp
  | some update =>
    obtain ⟨other, key, value⟩ := update
    have kept : event ≠ .failed := by
      rintro rfl
      cases written
    simp only [Event.onRows, Event.valueFor?, written, Option.bind_some, kept, if_false,
      Option.map_id']
    by_cases here : other = board
    · rw [if_pos here, lookup_setEntry]
      by_cases same : name = key
      · rw [if_pos same, if_pos ⟨here, same.symm⟩]
        rfl
      · rw [if_neg same, if_neg fun both => same both.2.symm]
        rfl
    · rw [if_neg here, if_neg fun both => here both.1]
      rfl

/-- A cell shows the last value it was given. Without one it shows what it showed at first, or that
it failed. -/
theorem lookup_contentOn_replay (console : Console) (history : List Event) (board : Board)
    (name : Text) :
    ((console.replay history).contentOn board).lookup name =
      ((lastValue? board name history).map Cell.text).or
        (((console.contentOn board).lookup name).map (untouched history)) := by
  induction history using List.reverseRecOn with
  | nil =>
    show (console.contentOn board).lookup name = ((console.contentOn board).lookup name).map fun cell => cell
    exact Option.map_id'.symm
  | append_singleton history event ih =>
    rw [replay_concat, contentOn_after, lookup_onRows, ih, lastValue?_concat]
    cases event.valueFor? board name with
    | some value => rfl
    | none =>
      rw [Option.map_none, Option.none_or, Option.none_or]
      by_cases failed : event = .failed
      · subst failed
        rw [untouched_failed]
        cases lastValue? board name history <;> simp [Cell.fail, Function.comp_def]
      · rw [untouched_concat history failed]
        simp only [failed, if_false, Option.map_id']

def Event.writtenName? (board : Board) (event : Event) : Option Text :=
  event.update?.bind fun (written, name, _) => if written = board then some name else none

theorem update?_of_writtenName? {board : Board} {event : Event} {name : Text}
    (written : event.writtenName? board = some name) :
    ∃ value, event.update? = some (board, name, value) := by
  obtain ⟨⟨other, key, value⟩, update, here⟩ := Option.bind_eq_some_iff.mp written
  dsimp only at here
  split at here
  next same =>
    cases here
    exact ⟨value, same ▸ update⟩
  next => cases here

theorem notMem_writtenNames {board : Board} {name : Text} {history : List Event}
    (ungiven : lastValue? board name history = none) :
    name ∉ history.filterMap (Event.writtenName? board) := by
  intro member
  obtain ⟨event, inside, written⟩ := List.mem_filterMap.mp member
  obtain ⟨value, update⟩ := update?_of_writtenName? written
  have absent := List.findSome?_eq_none_iff.mp ungiven event (List.mem_reverse.mpr inside)
  simp [Event.valueFor?, update] at absent

theorem names_onRows (board : Board) (rows : Rows) (event : Event) :
    (event.onRows board rows).map (·.1) =
      rows.map (·.1) ++ (event.writtenName? board).toList.filter (· ∉ rows.map (·.1)) := by
  cases written : event.update? with
  | none =>
    simp only [Event.onRows, Event.writtenName?, written, Option.bind_none, Option.toList_none,
      List.filter_nil, List.append_nil]
    split
    · rw [List.map_map]
      rfl
    · rfl
  | some update =>
    obtain ⟨other, name, value⟩ := update
    simp only [Event.onRows, Event.writtenName?, written, Option.bind_some]
    by_cases here : other = board
    · rw [if_pos here, if_pos here, names_setEntry, Option.toList_some]
      by_cases known : name ∈ rows.map (·.1) <;> simp [known]
    · rw [if_neg here, if_neg here, Option.toList_none, List.filter_nil, List.append_nil]

/-- The names that a history brings into a table, in the order in which they are first written. -/
def newNames (rows : Rows) (board : Board) (history : List Event) : List Text :=
  ((history.filterMap (Event.writtenName? board)).filter (· ∉ rows.map (·.1))).eraseDups

theorem newNames_concat (rows : Rows) (board : Board) (history : List Event) (event : Event) :
    newNames rows board (history ++ [event]) =
      newNames rows board history ++ (event.writtenName? board).toList.filter
        (· ∉ rows.map (·.1) ++ newNames rows board history) := by
  cases written : event.writtenName? board with
  | none => simp [newNames, written]
  | some name =>
    unfold newNames
    rw [List.filterMap_append, List.filterMap_cons_some written, List.filterMap_nil,
      List.filter_append, Option.toList_some, List.eraseDups_append]
    by_cases known : name ∈ rows.map (·.1)
    · simp [known]
    · by_cases earlier : name ∈ history.filterMap (Event.writtenName? board)
      · simp [known, earlier, List.removeAll]
      · simp [known, earlier, List.removeAll, List.eraseDups_cons]

/-- A table keeps its names, and the new ones follow in the order in which they are first written. -/
theorem names_contentOn_replay (console : Console) (history : List Event) (board : Board) :
    ((console.replay history).contentOn board).map (·.1) =
      (console.contentOn board).map (·.1) ++ newNames (console.contentOn board) board history := by
  induction history using List.reverseRecOn with
  | nil => exact (List.append_nil _).symm
  | append_singleton history event ih =>
    rw [replay_concat, contentOn_after, names_onRows, ih, newNames_concat, List.append_assoc]

/-- Every update of a history is of a cell that the table has. -/
def Keeps (rows : Rows) (board : Board) (history : List Event) : Prop :=
  ∀ event ∈ history, ∀ name value, event.update? = some (board, name, value) →
    name ∈ rows.map (·.1)

theorem newNames_of_keeps {rows : Rows} {board : Board} {history : List Event}
    (kept : Keeps rows board history) : newNames rows board history = [] := by
  have known : (history.filterMap (Event.writtenName? board)).filter (· ∉ rows.map (·.1)) = [] := by
    rw [List.filter_eq_nil_iff]
    intro name member
    obtain ⟨event, inside, written⟩ := List.mem_filterMap.mp member
    obtain ⟨value, update⟩ := update?_of_writtenName? written
    simpa using kept event inside name value update
  rw [newNames, known, List.eraseDups_nil]

theorem contentOn_replay_eq_map {console : Console} {history : List Event} {board : Board}
    (distinct : ((console.contentOn board).map (·.1)).Nodup)
    (kept : Keeps (console.contentOn board) board history) :
    (console.replay history).contentOn board = (console.contentOn board).map fun row =>
      (row.1, ((lastValue? board row.1 history).map Cell.text).getD (untouched history row.2)) := by
  have names : ((console.replay history).contentOn board).map (·.1) = (console.contentOn board).map (·.1) := by
    rw [names_contentOn_replay, newNames_of_keeps kept, List.append_nil]
  apply eq_map_of_lookup names distinct
  rintro ⟨name, cell⟩ member
  rw [lookup_contentOn_replay, lookup_of_mem distinct member]
  cases lastValue? board name history <;> rfl

/-- The tables and the panel of log lines are as they are made from the rest. -/
structure IsInStep (console : Console) : Prop where
  deployment : console.deployment.table = console.deployment.content
  coordinates : console.coordinates.table = console.coordinates.content
  publishing : console.publishing.table = console.publishing.content
  panel : console.verbosePanel = ⟨"Verbose Mode", joinLines console.logs, "blue"⟩

namespace IsInStep

variable {console : Console}

theorem new (verbose : Bool) (command : Text) :
    IsInStep { verbose := verbose, command := command } :=
  ⟨rfl, rfl, rfl, rfl⟩

theorem after (inStep : IsInStep console) (event : Event) : IsInStep (console.after event) := by
  obtain ⟨deployment, coordinates, publishing, panel⟩ := inStep
  cases event with
  | command name | error message | packagedCopy value =>
    exact ⟨deployment, coordinates, publishing, panel⟩
  | log time level message =>
    refine ⟨deployment, coordinates, publishing, ?_⟩
    unfold Console.after Console.log
    rw [panel]
  | failed => exact ⟨makeTable_eq _, makeTable_eq _, makeTable_eq _, panel⟩
  | deployRow name value => exact ⟨makeTable_eq _, coordinates, publishing, panel⟩
  | coordinateRow name value => exact ⟨deployment, makeTable_eq _, publishing, panel⟩
  | publishRow name value => exact ⟨deployment, coordinates, makeTable_eq _, panel⟩

theorem replay (inStep : IsInStep console) (history : List Event) :
    IsInStep (console.replay history) := by
  induction history using List.reverseRecOn with
  | nil => exact inStep
  | append_singleton history event ih =>
    rw [replay_concat]
    exact ih.after event

theorem rowsOn_eq (inStep : IsInStep console) (board : Board) :
    console.rowsOn board = console.contentOn board := by
  cases board with
  | deployment => exact inStep.deployment
  | coordinates => exact inStep.coordinates
  | publishing => exact inStep.publishing
  | copy => rfl

end IsInStep

end Console

end GradlePublishing
