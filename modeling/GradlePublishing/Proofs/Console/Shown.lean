import GradlePublishing.Proofs.Console.History

/-!
What a console shows, told from its history alone (`shown_after_history`). The tables follow from the updates
that each of them got and from whether something failed; the panels of log lines follow from what was logged.
-/

namespace GradlePublishing.Console

def Event.entry? : Event → Option Text
  | .log time level message =>
    let mark : Text :=
      if 40 ≤ level.number then "[red][ERROR][/red]"
      else if 30 ≤ level.number then "[yellow][WARNING][/yellow]"
      else if 20 ≤ level.number then "[blue][INFO][/blue]"
      else "[dim][DEBUG][/dim]"
    some (mark ++ ' ' :: time ++ ' ' :: message)
  | _ => none

def Event.level? : Event → Option Level
  | .log _ level _ => some level
  | _ => none

def Event.logsError (event : Event) : Bool := event.level?.any fun level => 40 ≤ level.number

def entries (history : List Event) : List Text := history.filterMap Event.entry?

def errorEntries (history : List Event) : List Text := entries (history.filter Event.logsError)

theorem entry?_log (time : Text) (level : Level) (message : Text) :
    Event.entry? (.log time level message) = some (level.mark ++ ' ' :: time ++ ' ' :: message) :=
  rfl

theorem logs_after (console : Console) (event : Event) :
    (console.after event).logs = console.logs ++ entries [event] ∧
      (console.after event).errorLogs = console.errorLogs ++ errorEntries [event] ∧
      (console.after event).verbose = console.verbose := by
  cases event with
  | log time level message =>
    have entry := entry?_log time level message
    refine ⟨by rw [entries, List.filterMap_cons_some entry]; rfl, ?_, rfl⟩
    unfold after Console.log
    dsimp only
    by_cases error : Level.error ≤ level
    · have logs : Event.logsError (.log time level message) = true := decide_eq_true error
      rw [if_pos error, errorEntries, List.filter_cons_of_pos logs, entries,
        List.filterMap_cons_some entry]
      rfl
    · have silent : ¬ Event.logsError (.log time level message) = true := fun logs =>
        error (of_decide_eq_true logs)
      rw [if_neg error, errorEntries, List.filter_cons_of_neg silent]
      exact (List.append_nil _).symm
  | _ => exact ⟨(List.append_nil _).symm, (List.append_nil _).symm, rfl⟩

theorem entries_append (history more : List Event) :
    entries (history ++ more) = entries history ++ entries more :=
  List.filterMap_append

theorem errorEntries_append (history more : List Event) :
    errorEntries (history ++ more) = errorEntries history ++ errorEntries more := by
  rw [errorEntries, List.filter_append, entries_append, errorEntries, errorEntries]

theorem logs_replay (console : Console) (history : List Event) :
    (console.replay history).logs = console.logs ++ entries history ∧
      (console.replay history).errorLogs = console.errorLogs ++ errorEntries history ∧
      (console.replay history).verbose = console.verbose := by
  induction history using List.reverseRecOn with
  | nil => exact ⟨(List.append_nil _).symm, (List.append_nil _).symm, rfl⟩
  | append_singleton history event ih =>
    obtain ⟨all, errors, verbose⟩ := ih
    obtain ⟨allAfter, errorsAfter, verboseAfter⟩ := logs_after (console.replay history) event
    rw [replay_concat, allAfter, errorsAfter, verboseAfter, all, errors, verbose, entries_append,
      errorEntries_append, List.append_assoc, List.append_assoc]
    exact ⟨rfl, rfl, rfl⟩

theorem errorEntries_ne_nil_iff (history : List Event) :
    errorEntries history ≠ [] ↔
      ∃ time level message, Event.log time level message ∈ history ∧ 40 ≤ level.number := by
  constructor
  · intro present
    obtain ⟨entry, member⟩ := List.exists_mem_of_ne_nil _ present
    obtain ⟨event, kept, -⟩ := List.mem_filterMap.mp member
    obtain ⟨inside, error⟩ := List.mem_filter.mp kept
    cases event with
    | log time level message => exact ⟨time, level, message, inside, of_decide_eq_true error⟩
    | _ => cases error
  · rintro ⟨time, level, message, inside, error⟩
    have kept : Event.log time level message ∈ history.filter Event.logsError :=
      List.mem_filter.mpr ⟨inside, decide_eq_true error⟩
    exact List.ne_nil_of_mem (List.mem_filterMap.mpr ⟨_, kept, rfl⟩)

/-! The panels of a layout. -/

theorem panel_notMem_results (console : Console) (panel : Panel) :
    Piece.panel panel ∉ console.results := by
  unfold results
  repeat' split
  all_goals simp

theorem panel_mem_layout_iff (console : Console) (panel : Panel) :
    Piece.panel panel ∈ console.layout ↔
      (console.errorLogs ≠ [] ∧ panel = ⟨"Error Logs", joinLines console.errorLogs, "red"⟩) ∨
        (console.verbose = true ∧ panel = console.verbosePanel) ∨
        (console.errorMessage ≠ [] ∧ panel = ⟨"Error", console.errorMessage, "red"⟩) := by
  have elsewhere := panel_notMem_results console panel
  unfold layout
  simp only [List.mem_append, elsewhere, or_false, List.mem_ite_nil_left, List.mem_ite_nil_right,
    List.mem_cons, List.not_mem_nil, Piece.panel.injEq, reduceCtorEq, false_or, List.isEmpty_iff,
    or_assoc]

section

variable {console : Console} {panel : Panel}

theorem errorPanel_mem_layout_iff (inStep : IsInStep console) (title : panel.title = "Error Logs") :
    .panel panel ∈ console.layout ↔
      console.errorLogs ≠ [] ∧ panel = ⟨"Error Logs", joinLines console.errorLogs, "red"⟩ := by
  have differ : "Verbose Mode".toList ≠ "Error Logs".toList ∧ "Error".toList ≠ "Error Logs".toList := by
    decide
  rw [panel_mem_layout_iff, inStep.panel]
  refine ⟨?_, .inl⟩
  rintro (shown | ⟨-, rfl⟩ | ⟨-, rfl⟩)
  · exact shown
  · exact absurd title differ.1
  · exact absurd title differ.2

theorem verbosePanel_mem_layout_iff (title : panel.title = "Verbose Mode") :
    .panel panel ∈ console.layout ↔ console.verbose = true ∧ panel = console.verbosePanel := by
  have differ : "Error Logs".toList ≠ "Verbose Mode".toList ∧ "Error".toList ≠ "Verbose Mode".toList := by
    decide
  rw [panel_mem_layout_iff]
  refine ⟨?_, fun shown => .inr (.inl shown)⟩
  rintro (⟨-, rfl⟩ | shown | ⟨-, rfl⟩)
  · exact absurd title differ.1
  · exact shown
  · exact absurd title differ.2

end

theorem nodup_names_onRows {rows : Rows} (distinct : (rows.map (·.1)).Nodup) (board : Board)
    (event : Event) : ((event.onRows board rows).map (·.1)).Nodup := by
  unfold Event.onRows
  split
  · split
    · exact nodup_setEntry _ _ distinct
    · exact distinct
  · split
    · rwa [List.map_map]
    · exact distinct

theorem nodup_names_replay {console : Console} {board : Board}
    (distinct : ((console.contentOn board).map (·.1)).Nodup) (history : List Event) :
    (((console.replay history).contentOn board).map (·.1)).Nodup := by
  induction history using List.reverseRecOn with
  | nil => exact distinct
  | append_singleton history event ih =>
    rw [replay_concat, contentOn_after]
    exact nodup_names_onRows ih board event

theorem rowsOn_after_update {console : Console} (inStep : IsInStep console) {event : Event}
    {written : Board} {name value : Text} (update : event.update? = some (written, name, value))
    {board : Board} (other : written ≠ board) :
    (console.after event).rowsOn board = console.rowsOn board := by
  rw [(inStep.after event).rowsOn_eq, inStep.rowsOn_eq, contentOn_after, Event.onRows, update]
  exact if_neg other

/-- What a new console shows after each step of a history. Each table has its first names and then the new
ones in the order in which they were first written. A cell shows the last value that was written to it; one
that was never written to shows what it showed at first, or that it failed if it was worked on and something
failed. An update leaves the other tables alone. The panels show the entries that were logged, in order: all
of them in the verbose one, and those of errors, where there are any, in one of their own. -/
theorem shown_after_history (verbose : Bool) (history : List Event) :
    let console := ({ verbose := verbose } : Console).replay history
    (∀ board : Board,
      (console.rowsOn board).map (·.1) =
          board.firstRows.map (·.1) ++ newNames board.firstRows board history ∧
        ((console.rowsOn board).map (·.1)).Nodup ∧
        ∀ name, (console.rowsOn board).lookup name =
          ((lastValue? board name history).map Cell.text).or
            ((board.firstRows.lookup name).map fun cell =>
              if .failed ∈ history ∧ cell = .processing then .text "[red]Failed[/red]" else cell)) ∧
    (∀ event written name value, event.update? = some (written, name, value) → ∀ board,
      written ≠ board → (console.after event).rowsOn board = console.rowsOn board) ∧
    console.verbosePanel.text = List.intercalate ['\n'] (entries history) ∧
    (∀ panel : Panel, panel.title = "Verbose Mode" →
      (.panel panel ∈ console.layout ↔ verbose = true ∧ panel = console.verbosePanel)) ∧
    ((∃ panel : Panel, panel.title = "Error Logs" ∧ .panel panel ∈ console.layout) ↔
      ∃ time level message, .log time level message ∈ history ∧ 40 ≤ level.number) ∧
    ∀ panel : Panel, panel.title = "Error Logs" → .panel panel ∈ console.layout →
      panel.text = List.intercalate ['\n'] (errorEntries history) := by
  intro console
  have inStep : IsInStep console := (IsInStep.new verbose []).replay history
  obtain ⟨all, errors, kept⟩ := logs_replay { verbose := verbose } history
  rw [List.nil_append] at all errors
  refine ⟨fun board => ?_, ?_, ?_, ?_, ?_, ?_⟩
  · have first : ({ verbose := verbose } : Console).contentOn board = board.firstRows := by
      cases board <;> rfl
    rw [inStep.rowsOn_eq, ← first]
    refine ⟨names_contentOn_replay _ history board, ?_, lookup_contentOn_replay _ history board⟩
    exact nodup_names_replay (first ▸ nodup_firstRows board) history
  · intro event written name value update board other
    exact rowsOn_after_update inStep update other
  · rw [inStep.panel, all]
    rfl
  · intro panel title
    rw [verbosePanel_mem_layout_iff title, kept]
  · rw [← errorEntries_ne_nil_iff, ← errors]
    constructor
    · rintro ⟨panel, title, member⟩
      exact ((errorPanel_mem_layout_iff inStep title).mp member).1
    · intro present
      exact ⟨_, rfl, (errorPanel_mem_layout_iff inStep rfl).mpr ⟨present, rfl⟩⟩
  · intro panel title member
    rw [((errorPanel_mem_layout_iff inStep title).mp member).2, errors]
    rfl

/-! A failure between updates, and log lines of which one has a level without a name. -/

def lateHistory : List Event :=
  [.deployRow "Snapshot:" "False", .log "12:00:00" .info "Looking.", .failed,
    .deployRow "Place:" "here", .log "12:00:01" ⟨45⟩ "No key.", .deployRow "Snapshot:" "True"]

theorem shown_after_lateHistory :
    let console := ({ verbose := true } : Console).replay lateHistory
    (console.rowsOn .deployment).map (·.1) = ["Working Directory:".toList, "Project Version:".toList,
        "Snapshot:".toList, "Repository Key:".toList, "Place:".toList] ∧
      (console.rowsOn .deployment).lookup "Snapshot:".toList = some (.text "True") ∧
      (console.rowsOn .deployment).lookup "Repository Key:".toList =
        some (.text "[red]Failed[/red]") ∧
      (console.after (.coordinateRow "Place:" "there")).rowsOn .deployment = console.rowsOn .deployment ∧
      .panel console.verbosePanel ∈ console.layout ∧
      console.verbosePanel.text = "[blue][INFO][/blue] 12:00:00 Looking.\n[red][ERROR][/red] 12:00:01 No key." ∧
      ∃ panel : Panel, panel.text = "[red][ERROR][/red] 12:00:01 No key." ∧
        .panel panel ∈ console.layout := by
  intro console
  obtain ⟨tables, alone, verboseText, verbose, errors, errorText⟩ := shown_after_history true lateHistory
  obtain ⟨names, -, cells⟩ := tables .deployment
  refine ⟨names.trans ?_, (cells "Snapshot:").trans ?_, (cells "Repository Key:").trans ?_, ?_, ?_,
    verboseText.trans ?_, ?_⟩
  · with_unfolding_all decide
  · with_unfolding_all decide
  · with_unfolding_all decide
  · exact alone (.coordinateRow "Place:" "there") .coordinates "Place:" "there" rfl .deployment nofun
  · exact (verbose console.verbosePanel rfl).mpr ⟨rfl, rfl⟩
  · with_unfolding_all decide
  · obtain ⟨panel, title, member⟩ := errors.mpr ⟨"12:00:01", ⟨45⟩, "No key.", by simp [lateHistory], by decide⟩
    refine ⟨panel, (errorText panel title member).trans ?_, member⟩
    with_unfolding_all decide

end GradlePublishing.Console
