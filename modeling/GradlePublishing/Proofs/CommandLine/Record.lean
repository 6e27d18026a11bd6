import GradlePublishing.CommandLine.Program
import GradlePublishing.Proofs.Console.History
import GradlePublishing.Proofs.Failure

/-!
What a run writes on the console. An action writes the same history on every console (`records_perform`),
and only the last step of a run marks as failed what the action left out. So no cell is left behind that is
still worked on (`table_of_ended`).
-/

namespace GradlePublishing.CommandLine

open Console

/-- The table that tells the results of an action. -/
def Action.board : Action → Board
  | .deployRepository _ _ _ => .deployment
  | .coordinates _ => .coordinates
  | .isPublish _ => .publishing
  | .dumpDefaults _ => .copy

/-- Whether an exit code tells that an action came to its results. -/
def IsDone (exitCode : Nat) : Prop := exitCode = 0 ∨ exitCode = 1

instance : DecidablePred IsDone := fun _ => inferInstanceAs (Decidable (_ ∨ _))

theorem not_isDone_of_exitCodeOf? {failure : Failure} {exitCode : Nat}
    (reported : exitCodeOf? failure = some exitCode) : ¬ IsDone exitCode := by
  unfold exitCodeOf? at reported
  split at reported <;> cases reported <;> decide

def closing (exitCode : Nat) : List Event := if IsDone exitCode then [] else [.failed]

/-- Whether an event may happen while the results of a table are worked out: it writes to no row but
those of the table, and leaves the rest of the results alone. -/
def suits (board : Board) : Event → Bool
  | .failed | .command _ => false
  | event => event.update?.all fun (written, name, _) =>
      written == board && (board.firstRows.map (·.1)).contains name

/-- Whether no cell of a table is left behind that is still worked on, if these names were written to. -/
def fills (board : Board) (names : List Text) : Bool :=
  board.firstRows.all fun (name, cell) => cell != .processing || names.contains name

/-- What is written while the results of a table are worked out. If they were come to, then all of
them are there. -/
structure IsRecord (board : Board) (exitCode : Nat) (history : List Event) : Prop where
  suited : history.all (suits board) = true
  filled : IsDone exitCode → fills board (history.filterMap (Event.writtenName? board)) = true

namespace IsRecord

variable {board : Board} {exitCode : Nat} {history : List Event}

theorem steady (record : IsRecord board exitCode history) : Event.failed ∉ history := by
  intro member
  cases List.all_eq_true.mp record.suited _ member

theorem named (record : IsRecord board exitCode history) (name : Text) :
    Event.command name ∉ history ++ closing exitCode := by
  intro member
  rcases List.mem_append.mp member with inside | last
  · cases List.all_eq_true.mp record.suited _ inside
  · unfold closing at last
    split at last <;> simp at last

theorem kept (record : IsRecord board exitCode history) :
    Keeps board.firstRows board (history ++ closing exitCode) := by
  intro event member name value update
  rcases List.mem_append.mp member with inside | last
  · have suited := List.all_eq_true.mp record.suited event inside
    have all : event.update?.all (fun (written, name, _) =>
        written == board && (board.firstRows.map (·.1)).contains name) = true := by
      cases event <;> first | exact suited | cases update
    rw [update] at all
    simpa using all
  · unfold closing at last
    split at last
    · cases last
    · cases List.mem_singleton.mp last
      cases update

theorem lastValue?_closing (board : Board) (name : Text) (history : List Event) (exitCode : Nat) :
    lastValue? board name (history ++ closing exitCode) = lastValue? board name history := by
  unfold closing
  split
  · rw [List.append_nil]
  · rw [lastValue?_concat]
    rfl

theorem untouched_closing (record : IsRecord board exitCode history) (cell : Cell) :
    untouched (history ++ closing exitCode) cell =
      if ¬ IsDone exitCode ∧ cell = .processing then .text "[red]Failed[/red]" else cell := by
  unfold closing
  split
  next done =>
    simp only [untouched, List.append_nil, record.steady, done, not_true, false_and]
  next undone =>
    simp only [untouched, List.mem_concat_self, undone, not_false_eq_true]

theorem rowsOn_closed (record : IsRecord board exitCode history) {console : Console}
    (inStep : IsInStep console) (first : console.contentOn board = board.firstRows) :
    (console.replay (history ++ closing exitCode)).rowsOn board =
      board.firstRows.map fun (name, cell) =>
        (name, ((lastValue? board name history).map Cell.text).getD
          (if ¬ IsDone exitCode ∧ cell = .processing then .text "[red]Failed[/red]" else cell)) := by
  rw [(inStep.replay _).rowsOn_eq,
    contentOn_replay_eq_map (first ▸ nodup_firstRows board) (first ▸ record.kept), first]
  simp only [lastValue?_closing, record.untouched_closing]

theorem settled (record : IsRecord board exitCode history) {console : Console}
    (inStep : IsInStep console) (first : console.contentOn board = board.firstRows) :
    ∀ row ∈ (console.replay (history ++ closing exitCode)).rowsOn board, row.2 ≠ .processing := by
  rw [record.rowsOn_closed inStep first]
  intro row member
  obtain ⟨⟨name, cell⟩, inside, rfl⟩ := List.mem_map.mp member
  dsimp only
  cases given : lastValue? board name history with
  | some value => nofun
  | none =>
    rw [Option.map_none, Option.getD_none]
    split
    next => nofun
    next kept =>
      rintro rfl
      have done : IsDone exitCode := Classical.not_not.mp fun undone => kept ⟨undone, rfl⟩
      have filled := List.all_eq_true.mp (record.filled done) _ inside
      have written := notMem_writtenNames given
      rw [← List.contains_iff_mem, Bool.not_eq_true] at written
      dsimp only at filled
      rw [written] at filled
      cases filled

end IsRecord

/-- How a part of a run ends, and what it has come to. -/
def finish (ended : Except Failure Nat) (progress : Progress) :
    EStateM.Result Failure Progress Nat :=
  match ended with
  | .ok exitCode => .ok exitCode progress
  | .error failure => .error failure progress

/-- A part of a run writes the same on every console, and what it writes is as it should be. `names` were
written to before. -/
def Records (board : Board) (tree : FileTree) (names : List Text) (part : Run Nat) : Prop :=
  ∃ history last ended,
    (∀ console, part ⟨console, tree⟩ = finish ended ⟨console.replay history, last⟩) ∧
      history.all (suits board) = true ∧
      ∀ exitCode, ended = .ok exitCode → IsDone exitCode →
        fills board (names ++ history.filterMap (Event.writtenName? board)) = true

section Records

variable {α : Type} {board : Board} {tree : FileTree} {names : List Text}

theorem records_pure {exitCode : Nat} (filled : IsDone exitCode → fills board names = true) :
    Records board tree names (pure exitCode) := by
  refine ⟨[], tree, .ok exitCode, fun _ => rfl, rfl, ?_⟩
  rintro _ ⟨⟩ done
  rw [List.filterMap_nil, List.append_nil]
  exact filled done

theorem records_throw (failure : Failure) : Records board tree names (throw failure) :=
  ⟨[], tree, .error failure, fun _ => rfl, rfl, nofun⟩

theorem records_onConsole (event : Event) {change : Console → Console} {next : Unit → Run Nat}
    (behind : Records board tree (names ++ (event.writtenName? board).toList) (next ()))
    (suited : suits board event = true := by rfl)
    (written : ∀ console, change console = console.after event := by exact fun _ => rfl) :
    Records board tree names (onConsole change >>= next) := by
  obtain ⟨history, last, ended, same, rest, filled⟩ := behind
  refine ⟨event :: history, last, ended, fun console => ?_, ?_, fun exitCode here done => ?_⟩
  · show next () ⟨change console, tree⟩ = _
    rw [written, same]
    rfl
  · rw [List.all_cons, suited, rest]
    rfl
  · have all := filled exitCode here done
    rw [List.append_assoc] at all
    rw [List.filterMap_cons]
    cases name : event.writtenName? board with
    | none => rwa [name] at all
    | some _ => rwa [name] at all

theorem records_lift {result : Except Failure α} {next : α → Run Nat}
    (each : ∀ value, result = .ok value → Records board tree names (next value)) :
    Records board tree names ((liftM result : Run α) >>= next) := by
  cases result with
  | error failure => exact records_throw failure
  | ok value => exact each value rfl

theorem records_tree {written : FileTree} {next : Unit → Run Nat}
    (behind : Records board written names (next ())) :
    Records board tree names (modify ({ · with tree := written }) >>= next) := by
  obtain ⟨history, last, ended, same, rest⟩ := behind
  exact ⟨history, last, ended, same, rest⟩

variable (surroundings : Surroundings)

theorem records_logAll (level : Level) {messages : List Text} {next : Unit → Run Nat}
    (behind : Records board tree names (next ())) :
    Records board tree names (surroundings.logAll level messages >>= next) := by
  unfold Surroundings.logAll
  induction messages with
  | nil => exact behind
  | cons message messages ih =>
    show Records board tree names
      ((surroundings.log level message >>= fun _ => messages.forM (surroundings.log level)) >>= next)
    rw [bind_assoc]
    refine records_onConsole (.log surroundings.time level message) ?_
    rwa [show Event.writtenName? board (.log surroundings.time level message) = none from rfl,
      Option.toList_none, List.append_nil]

theorem records_reporting {result : Except Failure α} {go : α → Run Nat}
    (each : ∀ value, Records board tree names (go value)) :
    Records board tree names (surroundings.reporting result go) := by
  unfold Surroundings.reporting
  cases result with
  | ok value => exact each value
  | error failure =>
    dsimp only
    cases code : exitCodeOf? failure with
    | none => exact records_throw failure
    | some exitCode =>
      refine records_onConsole (.log surroundings.time .error failure.message) (records_pure fun done => ?_)
      exact absurd done (not_isDone_of_exitCodeOf? code)

end Records

namespace Surroundings

variable (surroundings : Surroundings)

theorem records_deployRepository (asked : Option Text) (version : Text) (arguments : List Text)
    (tree : FileTree) :
    Records .deployment tree [] (surroundings.deployRepository asked version arguments) := by
  unfold deployRepository
  refine records_onConsole (.deployRow "Working Directory:" _) ?_
  refine records_onConsole (.deployRow "Project Version:" version) (records_lift fun isSnapshot _ => ?_)
  refine records_onConsole (.deployRow "Snapshot:" _) (records_logAll surroundings .debug ?_)
  refine records_lift fun invocation _ => records_lift fun isUnrelated _ => ?_
  cases isUnrelated with
  | true =>
    refine records_onConsole (.log surroundings.time .info _) ?_
    exact records_onConsole (.deployRow "Repository Key:" _) (records_pure fun _ => rfl)
  | false =>
    refine records_logAll surroundings .debug (records_reporting surroundings fun found => ?_)
    refine records_onConsole (.log surroundings.time .info found.report) ?_
    exact records_onConsole (.deployRow "Repository Key:" _) (records_pure fun _ => rfl)

theorem records_coordinates (asked : Option Text) (tree : FileTree) :
    Records .coordinates tree [] (surroundings.coordinates asked) := by
  unfold coordinates
  refine records_logAll surroundings .debug (records_reporting surroundings fun found => ?_)
  refine records_lift fun url _ => ?_
  refine records_onConsole (.log surroundings.time .info _) ?_
  refine records_onConsole (.coordinateRow "Group:" found.group) ?_
  refine records_onConsole (.coordinateRow "Artifact:" found.artifact) ?_
  refine records_onConsole (.coordinateRow "Version:" found.version) ?_
  exact records_onConsole (.coordinateRow "Package URL:" url) (records_pure fun _ => rfl)

theorem records_isPublish (arguments : List Text) (tree : FileTree) :
    Records .publishing tree [] (surroundings.isPublish arguments) := by
  unfold isPublish
  refine records_logAll surroundings .debug (records_lift fun invocation _ => ?_)
  have answered : ∀ names, fills .publishing (names ++ ["Publish Command:".toList]) = true →
      Records .publishing tree names (do
        if ← Command.isPublishing surroundings.settings invocation.tasks then
          onConsole (·.setPublishRow "Publish Command:" "[bold green]Yes[/]")
          return ExitCode.ok
        onConsole (·.setPublishRow "Publish Command:" "No")
        return ExitCode.notPublishing) := by
    intro names filled
    refine records_lift fun isPublishing _ => ?_
    cases isPublishing with
    | true => exact records_onConsole (.publishRow "Publish Command:" _) (records_pure fun _ => filled)
    | false => exact records_onConsole (.publishRow "Publish Command:" _) (records_pure fun _ => filled)
  dsimp only
  split
  · exact records_onConsole (.publishRow "Build File:" invocation.buildFile) (answered _ rfl)
  · exact answered _ rfl

theorem records_dumpDefaults (asked : Option Text) (tree : FileTree) :
    Records .copy tree [] (surroundings.dumpDefaults asked) := by
  unfold dumpDefaults
  dsimp only
  split
  · refine records_onConsole (.log surroundings.time .error _) (records_pure fun done => ?_)
    exact absurd done (by decide)
  · refine records_lift fun result _ => ?_
    obtain ⟨written, copy⟩ := result
    cases copy with
    | written path =>
      refine records_tree ?_
      refine records_onConsole (.log surroundings.time .info _) ?_
      exact records_onConsole (.packagedCopy _) (records_pure fun _ => rfl)
    | refused path obstacle =>
      refine records_tree ?_
      refine records_onConsole (.log surroundings.time .error _) (records_pure fun done => ?_)
      exact absurd done (by decide)

theorem records_perform (action : Action) (tree : FileTree) :
    Records action.board tree [] (surroundings.perform action) := by
  cases action with
  | deployRepository directory version arguments =>
    exact records_deployRepository surroundings directory version arguments tree
  | coordinates directory => exact records_coordinates surroundings directory tree
  | isPublish arguments => exact records_isPublish surroundings arguments tree
  | dumpDefaults directory => exact records_dumpDefaults surroundings directory tree

theorem records_work (call : Call) (action : Action) (tree : FileTree) :
    Records action.board tree [] (surroundings.work call action) := by
  unfold work
  cases surroundings.loadFault? call with
  | none => exact records_perform _ action tree
  | some fault =>
    refine records_logAll surroundings .error ?_
    refine records_onConsole (.error _) (records_pure fun done => ?_)
    exact absurd done (by decide)

theorem run_eq {words : List Text} {call : Call} {action : Action} (read : Call.read words = .ok call)
    (asked : call.action = some action) :
    run surroundings words = surroundings.performCall call action := by
  rw [run, read]
  dsimp only
  rw [asked]

/-- What a run shows in the end, if nothing keeps it from being drawn. -/
theorem outcome_performCall (call : Call) (action : Action) :
    (surroundings.performCall call action).outcome = (do
      surroundings.drawn (opened call action)
      surroundings.drawn (surroundings.lastConsole call action)
      return {
        exitCode := ← (surroundings.worked call action).1
        console := some (surroundings.lastConsole call action) }) := by
  unfold performCall
  cases surroundings.drawn (opened call action) with
  | error failure => rfl
  | ok _ => rfl

end Surroundings

/-- The rows of a piece of the layout that is a table. -/
def tableRows? : Piece → Option Rows
  | .table rows => some rows
  | _ => none

theorem command_replay {console : Console} {history : List Event}
    (steady : ∀ name, Event.command name ∉ history) :
    (console.replay history).command = console.command := by
  induction history using List.reverseRecOn with
  | nil => rfl
  | append_singleton history event ih =>
    have before := ih fun name member => steady name (List.mem_append_left _ member)
    rw [replay_concat, ← before]
    cases event with
    | command name => exact absurd List.mem_concat_self (steady name)
    | _ => rfl

/-- The only table that is laid out is the one of the action. -/
theorem tables_layout {console : Console} {action : Action}
    (named : console.command = action.name) :
    console.layout.filterMap tableRows? = [console.rowsOn action.board] := by
  have results : console.results.filterMap tableRows? = [console.rowsOn action.board] := by
    unfold Console.results
    rw [named]
    cases action <;> rfl
  unfold Console.layout
  simp only [List.filterMap_append, results]
  split <;> split <;> split <;> rfl

theorem closed_ok (exitCode : Nat) (console : Console) :
    closed (.ok exitCode) console = console.replay (closing exitCode) := by
  show (if IsDone exitCode then console else console.markFailed) = _
  unfold closing
  split <;> rfl

namespace Surroundings

/-- When a run has ended, no cell of the action's table is still worked on. Each one shows the last
value it was given; one that was given none is as it was at first, or has failed unless the exit code is
one of those that tell of results. -/
theorem table_of_ended {surroundings : Surroundings} {words : List Text} {call : Call}
    {action : Action} {outcome : Outcome} (read : Call.read words = .ok call)
    (asked : call.action = some action)
    (ended : (run surroundings words).outcome = .ok outcome) :
    ∃ history tree shown,
      (∀ console, surroundings.work call action ⟨console, surroundings.tree⟩ =
        .ok outcome.exitCode ⟨console.replay history, tree⟩) ∧
      outcome.console = some shown ∧
      shown.layout.filterMap tableRows? = [shown.rowsOn action.board] ∧
      (∀ row ∈ shown.rowsOn action.board, row.2 ≠ .processing) ∧
      shown.rowsOn action.board = action.board.firstRows.map fun (name, cell) =>
        (name, ((lastValue? action.board name history).map Cell.text).getD
          (if outcome.exitCode ≠ 0 ∧ outcome.exitCode ≠ 1 ∧ cell = .processing
            then .text "[red]Failed[/red]" else cell)) := by
  obtain ⟨history, last, result, writes, suited, filled⟩ :=
    records_work surroundings call action surroundings.tree
  have worked : surroundings.worked call action =
      (result, ⟨(opened call action).replay history, last⟩) := by
    unfold worked
    rw [writes]
    cases result <;> rfl
  rw [run_eq surroundings read asked, outcome_performCall] at ended
  obtain ⟨_, -, ended⟩ := bind_eq_ok_iff.mp ended
  obtain ⟨_, -, ended⟩ := bind_eq_ok_iff.mp ended
  obtain ⟨exitCode, here, ended⟩ := bind_eq_ok_iff.mp ended
  rw [worked] at here
  obtain rfl : result = .ok exitCode := here
  cases ended
  have record : IsRecord action.board exitCode history := ⟨suited, filled exitCode rfl⟩
  have first : (opened call action).contentOn action.board = action.board.firstRows := by
    cases action <;> rfl
  have inStep : IsInStep (opened call action) := .new call.verbose action.name
  have shown : surroundings.lastConsole call action =
      (opened call action).replay (history ++ closing exitCode) := by
    unfold lastConsole
    rw [worked, replay_append]
    exact closed_ok exitCode _
  refine ⟨history, last, _, writes, rfl, ?_⟩
  rw [shown]
  refine ⟨tables_layout (command_replay record.named), record.settled inStep first, ?_⟩
  rw [record.rowsOn_closed inStep first]
  simp only [IsDone, not_or, and_assoc, ne_eq]

/-! A copy that is asked for in a directory that does not exist. -/

def copyAction : Action := .dumpDefaults (some "/none")

def copyCall : Call := ⟨false, [], some copyAction⟩

def copySurroundings : Surroundings where
  settings := Settings.empty
  tree := ⟨⟨false, []⟩, []⟩
  environment := ∅
  accountHome := some "/root"
  time := "12:00:00"
  remarks := fun _ => []
  writePackageUrl := fun found => .ok ("pkg:maven/" ++ found.group ++ "/" ++ found.artifact)
  draw := fun _ => .ok ()

def copyConsole : Console :=
  (opened copyCall copyAction).replay
    [.log "12:00:00" .error "The output directory /none does not exist.", .failed]

theorem read_copyCall : Call.read ["dump-defaults", "-o", "/none"] = .ok copyCall := by
  with_unfolding_all decide

theorem outcome_copyCall :
    (run copySurroundings ["dump-defaults", "-o", "/none"]).outcome =
      .ok { exitCode := ExitCode.wrongDirectory, console := some copyConsole } := by
  rw [run_eq _ read_copyCall rfl]
  rfl

theorem table_of_ended_copyCall :
    copyConsole.layout.filterMap tableRows? = [[(copyName, .text "[red]Failed[/red]")]] := by
  obtain ⟨_, _, shown, -, same, tables, -, -⟩ := table_of_ended read_copyCall rfl outcome_copyCall
  obtain rfl : copyConsole = shown := Option.some.inj same
  rw [tables]
  rfl

end Surroundings

end GradlePublishing.CommandLine
