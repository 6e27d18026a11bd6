import GradlePublishing.Proofs.Command.Faults
import GradlePublishing.Proofs.CommandLine.Record
import GradlePublishing.Proofs.Coordinates.Faults

/-!
How a run ends. Each action has its own exit codes, and malformed settings another one
(`ending_of_action`). A run that is left without an exit code has come upon an option that cannot be
composed, a path with a null character, or something that a library refuses: coordinates without a package
URL, or a layout that cannot be drawn.
-/

namespace GradlePublishing

theorem Settings.failsOnly_writePackaged {allowed : Failure → Prop} (tree : FileTree) {directory : Text}
    (plain : FileTree.nullChar ∉ directory) : FailsOnly allowed (writePackaged tree directory) := by
  have below : ∀ base : Text, FileTree.nullChar ∉ base →
      FileTree.nullChar ∉ Path.join base packagedName := fun base plain null =>
    (Path.mem_join null (by decide)).elim plain (by decide)
  have plainPath : ¬ (if tree.isDirectory (Path.join directory packagedName)
      then Path.join (Path.join directory packagedName) packagedName
      else Path.join directory packagedName).contains FileTree.nullChar = true := by
    rw [List.contains_iff_mem]
    split
    · exact below _ (below directory plain)
    · exact below directory plain
  unfold writePackaged
  dsimp only
  rw [if_neg plainPath]
  split <;> exact failsOnly_ok _

/-- A number or a family of blocks in the settings is malformed. -/
inductive Settings.IsMalformed (settings : Settings) : Prop
  | depth (failed : settings.maxPropertyDepth = .error .depthNotInteger)
  | family (entry : Text)
    (failed : Repository.families settings = .error (.malformedFamily entry))

theorem Property.failsOnly_userHome {settings : Settings} {allowed : Failure → Prop}
    (composed : ∀ failure, settings.Uncomposed failure → allowed failure) (home : Text)
    (environment : Table) : FailsOnly allowed (userHome settings home environment) := by
  apply failsOnly_bind (Settings.failsOnly_text composed .userHomeVariable (by decide))
  intro name _
  cases environment.value? name with
  | some path => exact failsOnly_ok _
  | none =>
    apply failsOnly_bind (Settings.failsOnly_text composed .userHomeDirectory (by decide))
    intro directory _
    exact failsOnly_ok _

namespace CommandLine

/-- The exit codes that an action is documented to end with. -/
def Action.exitCodes : Action → List Nat
  | .deployRepository _ _ _ | .coordinates _ => [0, 65, 66]
  | .isPublish _ => [0, 1]
  | .dumpDefaults _ => [0, 64, 73]

def Action.readsProject : Action → Bool
  | .deployRepository _ _ _ | .coordinates _ => true
  | .isPublish _ | .dumpDefaults _ => false

/-- A part of a run ends with one of some exit codes, or else in one of some failures. -/
def Ends (codes : Nat → Prop) (escapes : Failure → Prop) (part : Run Nat) : Prop :=
  ∀ progress, match part progress with
    | .ok exitCode _ => codes exitCode
    | .error failure _ => escapes failure

/-- What becomes of a failure: if it has an exit code it is reported, and else it escapes. -/
def Reports (codes : Nat → Prop) (escapes : Failure → Prop) (failure : Failure) : Prop :=
  match exitCodeOf? failure with
  | some exitCode => codes exitCode
  | none => escapes failure

section Ends

variable {α : Type} {codes : Nat → Prop} {escapes : Failure → Prop} {next : Unit → Run Nat}

theorem ends_pure {exitCode : Nat} (may : codes exitCode) : Ends codes escapes (pure exitCode) :=
  fun _ => may

theorem ends_modify (change : Progress → Progress) (behind : Ends codes escapes (next ())) :
    Ends codes escapes (modify change >>= next) :=
  fun progress => behind (change progress)

theorem ends_onConsole {change : Console → Console} (behind : Ends codes escapes (next ())) :
    Ends codes escapes (onConsole change >>= next) :=
  ends_modify _ behind

theorem ends_lift {result : Except Failure α} {go : α → Run Nat} (before : FailsOnly escapes result)
    (after : ∀ value, result = .ok value → Ends codes escapes (go value)) :
    Ends codes escapes ((liftM result : Run α) >>= go) := by
  cases result with
  | error failure => exact fun _ => before.allows failure rfl
  | ok value => exact after value rfl

variable (surroundings : Surroundings)

theorem ends_logAll {level : Level} {messages : List Text} (behind : Ends codes escapes (next ())) :
    Ends codes escapes (surroundings.logAll level messages >>= next) := by
  unfold Surroundings.logAll
  induction messages with
  | nil => exact behind
  | cons message messages ih =>
    show Ends codes escapes
      ((surroundings.log level message >>= fun _ => messages.forM (surroundings.log level)) >>= next)
    rw [bind_assoc]
    exact ends_onConsole ih

theorem ends_reporting {result : Except Failure α} {go : α → Run Nat}
    (ways : FailsOnly (Reports codes escapes) result)
    (each : ∀ value, result = .ok value → Ends codes escapes (go value)) :
    Ends codes escapes (surroundings.reporting result go) := by
  unfold Surroundings.reporting
  cases result with
  | ok value => exact each value rfl
  | error failure =>
    have way := ways.allows failure rfl
    unfold Reports at way
    dsimp only
    cases code : exitCodeOf? failure with
    | some exitCode =>
      rw [code] at way
      exact ends_onConsole (ends_pure way)
    | none =>
      rw [code] at way
      exact fun _ => way

end Ends

namespace Surroundings

/-- What can end an action without an exit code. -/
inductive Escapes (surroundings : Surroundings) (action : Action) : Failure → Prop
  | option {failure : Failure} (uncomposed : surroundings.settings.Uncomposed failure) :
      surroundings.Escapes action failure
  | artifact {asked : Option Text} {found : Coordinates} {reason : Text}
      (coordinates : action = .coordinates asked)
      (complete : Coordinates.ofProject surroundings.settings surroundings.tree
        (surroundings.directory asked).toText ∅ = .ok found)
      (refused : surroundings.writePackageUrl found = .error reason) :
      surroundings.Escapes action (.foreign reason)
  | path (reads : action.readsProject = true) (null : surroundings.settings.HoldsNull ∨
      Repository.AppliesNull surroundings.settings surroundings.tree) :
      surroundings.Escapes action .nullInPath

/-- Nothing that a run is given from outside holds a null character in a place where a path may come
from. -/
structure IsPlain (surroundings : Surroundings) : Prop where
  names : surroundings.tree.HasPlainNames
  environment : ∀ entry ∈ surroundings.environment.entries, FileTree.nullChar ∉ entry.2
  accountHome : ∀ home, surroundings.accountHome = some home → FileTree.nullChar ∉ home

variable {surroundings : Surroundings} {action : Action}

def Codes (surroundings : Surroundings) (action : Action) (exitCode : Nat) : Prop :=
  exitCode ∈ action.exitCodes ∨ exitCode = 78 ∧ action.readsProject = true ∧
    surroundings.settings.IsMalformed

section

variable (reads : action.readsProject = true)

include reads

theorem codes_noInput : surroundings.Codes action ExitCode.noInput := by
  cases action with
  | deployRepository | coordinates => exact .inl (by simp [Action.exitCodes, ExitCode.noInput])
  | isPublish | dumpDefaults => cases reads

theorem codes_badData : surroundings.Codes action ExitCode.badData := by
  cases action with
  | deployRepository | coordinates => exact .inl (by simp [Action.exitCodes, ExitCode.badData])
  | isPublish | dumpDefaults => cases reads

theorem reports_of_fault {failure : Failure} (fault : surroundings.settings.Fault failure) :
    Reports (surroundings.Codes action) (surroundings.Escapes action) failure := by
  cases fault with
  | uncomposed uncomposed =>
    obtain ⟨_, _, _, rfl⟩ := uncomposed.isComposition
    exact .option uncomposed
  | depth failed => exact .inr ⟨rfl, reads, .depth failed⟩
  | family entry failed => exact .inr ⟨rfl, reads, .family entry failed⟩

theorem reports_of_null (null : surroundings.settings.HoldsNull ∨
    Repository.AppliesNull surroundings.settings surroundings.tree) :
    Reports (surroundings.Codes action) (surroundings.Escapes action) .nullInPath :=
  .path reads null

end

theorem ends_ok : Ends (surroundings.Codes action) (surroundings.Escapes action) (pure ExitCode.ok) := by
  refine ends_pure (.inl ?_)
  cases action <;> exact List.mem_cons_self

theorem IsPlain.null_notMem_of_get? (plain : surroundings.IsPlain) {name value : Text}
    (held : surroundings.environment.get? name = some value) : FileTree.nullChar ∉ value := by
  obtain ⟨before, behind, same, -⟩ := List.lookup_eq_some_iff.mp held
  refine plain.environment (name, value) ?_
  rw [same]
  exact List.mem_append_right _ List.mem_cons_self

theorem IsPlain.null_notMem_homeDirectory (plain : surroundings.IsPlain) :
    FileTree.nullChar ∉ surroundings.homeDirectory := by
  unfold homeDirectory
  split
  next => decide
  next home given =>
    have plainHome : FileTree.nullChar ∉ home := by
      rcases Option.or_eq_some_iff.mp given with held | ⟨-, account⟩
      · exact plain.null_notMem_of_get? held
      · exact plain.accountHome home account
    split
    · decide
    · intro null
      refine plainHome (List.mem_reverse.mp ((List.dropWhile_suffix (· == '/')).subset ?_))
      exact List.mem_reverse.mp null

/-- The user home comes from the environment or, below the home directory, from the settings. -/
theorem null_of_userHome (plain : surroundings.IsPlain) {home : Text}
    (found : Property.userHome surroundings.settings surroundings.homeDirectory
      surroundings.environment = .ok home)
    (null : FileTree.nullChar ∈ home) : surroundings.settings.HoldsNull := by
  obtain ⟨name, -, found⟩ := bind_eq_ok_iff.mp found
  cases held : surroundings.environment.value? name with
  | some path =>
    rw [held] at found
    cases found
    exact absurd null (plain.null_notMem_of_get? (Option.filter_eq_some_iff.mp held).1)
  | none =>
    rw [held] at found
    obtain ⟨directory, given, found⟩ := bind_eq_ok_iff.mp found
    cases found
    have below := (Path.mem_join null (by decide)).resolve_left plain.null_notMem_homeDirectory
    exact ⟨_, by simp [Settings.knownTexts], directory, given, below⟩

variable (surroundings)

theorem ends_deployRepository (plain : surroundings.IsPlain) (asked : Option Text) (version : Text)
    (arguments : List Text) :
    Ends (surroundings.Codes (.deployRepository asked version arguments))
      (surroundings.Escapes (.deployRepository asked version arguments))
      (surroundings.deployRepository asked version arguments) := by
  have composed : ∀ failure, surroundings.settings.Uncomposed failure →
      surroundings.Escapes (.deployRepository asked version arguments) failure := fun failure => .option
  refine ends_onConsole (ends_onConsole (ends_lift ?_ fun isSnapshot _ => ?_))
  · apply failsOnly_bind (Settings.failsOnly_text composed .snapshotSuffix (by decide))
    intro suffix _
    exact failsOnly_ok _
  refine ends_onConsole (ends_logAll surroundings ?_)
  refine ends_lift (Command.failsOnly_ofArguments composed arguments) fun invocation _ => ?_
  refine ends_lift (Command.failsOnly_isUnrelated composed invocation) fun isUnrelated _ => ?_
  cases isUnrelated with
  | true => exact ends_onConsole (ends_onConsole ends_ok)
  | false =>
    refine ends_logAll surroundings (ends_reporting surroundings ?_ fun found _ => ?_)
    · apply failsOnly_bind
      · unfold request
        refine failsOnly_bind ?_ fun userHome _ => failsOnly_ok _
        refine Property.failsOnly_userHome (fun failure uncomposed => ?_) _ _
        exact reports_of_fault rfl (.uncomposed uncomposed)
      intro request requested
      obtain ⟨userHome, found, same⟩ := bind_eq_ok_iff.mp requested
      cases same
      refine Repository.failsOnly_deployment plain.names (fun failure => reports_of_fault rfl)
        (fun failure announced => ?_) (fun null => reports_of_null rfl (.inl null))
        (fun null => reports_of_null rfl (.inr null)) fun home given null => ?_
      · cases announced with
        | emptyDirectory | noDirectory => exact codes_noInput rfl
        | _ => exact codes_badData rfl
      · cases given
        exact reports_of_null rfl (.inl (null_of_userHome plain found null))
    · exact ends_onConsole (ends_onConsole ends_ok)

theorem ends_coordinates (plain : surroundings.IsPlain) (asked : Option Text) :
    Ends (surroundings.Codes (.coordinates asked)) (surroundings.Escapes (.coordinates asked))
      (surroundings.coordinates asked) := by
  refine ends_logAll surroundings (ends_reporting surroundings ?_ fun found complete => ?_)
  · refine Coordinates.failsOnly_ofProject plain.names (fun failure => reports_of_fault rfl)
      (fun failure announced => ?_) ∅ (fun null => reports_of_null rfl (.inl null))
      fun null => reports_of_null rfl (.inr null)
    cases announced with
    | badDirectory failed =>
      unfold Repository.checkDirectory at failed
      split at failed
      · cases failed
        exact codes_noInput rfl
      · split at failed
        · cases failed
        · cases failed
          exact codes_noInput rfl
    | noBuildScript => exact codes_noInput rfl
    | missing fields => exact codes_badData rfl
  · refine ends_lift ⟨fun failure refused => ?_⟩ fun url _ => ?_
    · cases written : surroundings.writePackageUrl found with
      | ok url =>
        rw [written] at refused
        cases refused
      | error reason =>
        rw [written] at refused
        cases refused
        exact .artifact rfl complete written
    · exact ends_onConsole (ends_onConsole (ends_onConsole (ends_onConsole (ends_onConsole ends_ok))))

theorem ends_isPublish (arguments : List Text) :
    Ends (surroundings.Codes (.isPublish arguments)) (surroundings.Escapes (.isPublish arguments))
      (surroundings.isPublish arguments) := by
  have composed : ∀ failure, surroundings.settings.Uncomposed failure →
      surroundings.Escapes (.isPublish arguments) failure := fun failure => .option
  refine ends_logAll surroundings ?_
  refine ends_lift (Command.failsOnly_ofArguments composed arguments) fun invocation _ => ?_
  have answered : Ends (surroundings.Codes (.isPublish arguments))
      (surroundings.Escapes (.isPublish arguments)) (do
        if ← Command.isPublishing surroundings.settings invocation.tasks then
          onConsole (·.setPublishRow "Publish Command:" "[bold green]Yes[/]")
          return ExitCode.ok
        onConsole (·.setPublishRow "Publish Command:" "No")
        return ExitCode.notPublishing) := by
    refine ends_lift (Command.failsOnly_isPublishing composed _) fun isPublishing _ => ?_
    cases isPublishing with
    | true => exact ends_onConsole ends_ok
    | false => exact ends_onConsole (ends_pure (.inl (by simp [Action.exitCodes, ExitCode.notPublishing])))
  dsimp only
  split
  · exact ends_onConsole answered
  · exact answered

theorem ends_dumpDefaults (plain : surroundings.tree.HasPlainNames) (asked : Option Text) :
    Ends (surroundings.Codes (.dumpDefaults asked)) (surroundings.Escapes (.dumpDefaults asked))
      (surroundings.dumpDefaults asked) := by
  unfold dumpDefaults
  dsimp only
  split
  next => exact ends_onConsole (ends_pure (.inl (by simp [Action.exitCodes, ExitCode.wrongDirectory])))
  next directory =>
    rw [Bool.not_eq_true', Bool.not_eq_false] at directory
    have plainDirectory := plain.null_notMem_of_isDirectory directory
    refine ends_lift (Settings.failsOnly_writePackaged _ plainDirectory) fun written _ => ?_
    obtain ⟨tree, copy⟩ := written
    refine ends_modify _ ?_
    cases copy with
    | written path => exact ends_onConsole (ends_onConsole ends_ok)
    | refused path obstacle =>
      exact ends_onConsole (ends_pure (.inl (by simp [Action.exitCodes, ExitCode.cannotCreate])))

theorem ends_perform (plain : surroundings.IsPlain) (action : Action) :
    Ends (surroundings.Codes action) (surroundings.Escapes action) (surroundings.perform action) := by
  cases action with
  | deployRepository directory version arguments =>
    exact ends_deployRepository surroundings plain directory version arguments
  | coordinates directory => exact ends_coordinates surroundings plain directory
  | isPublish arguments => exact ends_isPublish surroundings arguments
  | dumpDefaults directory => exact ends_dumpDefaults surroundings plain.names directory

/-- How the work for a call ends: without input if the settings cannot be loaded, and else as the action
does. -/
theorem ends_work (plain : surroundings.IsPlain) (call : Call) (action : Action) :
    Ends
      (fun exitCode =>
        if (surroundings.loadFault? call).isSome then exitCode = 66
        else (surroundings.loaded call).Codes action exitCode)
      (fun failure => surroundings.loadFault? call = none ∧
        (surroundings.loaded call).Escapes action failure)
      (surroundings.work call action) := by
  unfold work
  cases surroundings.loadFault? call with
  | some fault => exact ends_logAll surroundings (ends_onConsole (ends_pure rfl))
  | none =>
    intro progress
    have ends := ends_perform (surroundings.loaded call) ⟨plain.names, plain.environment, plain.accountHome⟩
      action progress
    dsimp only
    cases performed : (surroundings.loaded call).perform action progress with
    | ok exitCode last =>
      rw [performed] at ends
      exact ends
    | error failure last =>
      rw [performed] at ends
      exact ⟨rfl, ends⟩

/-- Whether a library refuses to draw the console of a call, at first or in the end. -/
def RefusesDrawing (surroundings : Surroundings) (call : Call) (action : Action) (reason : Text) :
    Prop :=
  surroundings.draw (opened call action).layout = .error reason ∨
    surroundings.draw (surroundings.lastConsole call action).layout = .error reason

theorem refusal_of_drawn {console : Console} {failure : Failure}
    (refused : surroundings.drawn console = .error failure) :
    ∃ reason, failure = .foreign reason ∧ surroundings.draw console.layout = .error reason := by
  unfold drawn at refused
  cases drawing : surroundings.draw console.layout with
  | ok _ =>
    rw [drawing] at refused
    cases refused
  | error reason =>
    rw [drawing] at refused
    cases refused
    exact ⟨reason, rfl, rfl⟩

/-- A run that gets to its action ends without input if the settings cannot be loaded. If they are
loaded, then it ends with an exit code of the action, or with the one for malformed settings, unless
something lets it escape. Besides, what the console shows may be refused by the drawing. -/
theorem ending_of_action {words : List Text} {call : Call} {action : Action}
    (read : Call.read words = .ok call) (asked : call.action = some action)
    (plain : surroundings.IsPlain) :
    match (run surroundings words).outcome with
    | .ok outcome =>
      if (surroundings.loadFault? call).isSome then outcome.exitCode = 66
      else (surroundings.loaded call).Codes action outcome.exitCode
    | .error failure =>
      (∃ reason, failure = .foreign reason ∧ surroundings.RefusesDrawing call action reason) ∨
        surroundings.loadFault? call = none ∧ (surroundings.loaded call).Escapes action failure := by
  have ends := ends_work surroundings plain call action ⟨opened call action, surroundings.tree⟩
  rw [run_eq surroundings read asked, outcome_performCall]
  cases first : surroundings.drawn (opened call action) with
  | error failure =>
    obtain ⟨reason, rfl, refused⟩ := refusal_of_drawn surroundings first
    exact .inl ⟨reason, rfl, .inl refused⟩
  | ok _ =>
    cases last : surroundings.drawn (surroundings.lastConsole call action) with
    | error failure =>
      obtain ⟨reason, rfl, refused⟩ := refusal_of_drawn surroundings last
      exact .inl ⟨reason, rfl, .inr refused⟩
    | ok _ =>
      unfold worked
      cases worked : surroundings.work call action ⟨opened call action, surroundings.tree⟩ with
      | ok exitCode progress =>
        rw [worked] at ends
        exact ends
      | error failure progress =>
        rw [worked] at ends
        exact .inr ends

/-! A user's settings with a per cent sign in the name of the publishing task. -/

def percentBytes : List UInt8 := Text.toBytes "[gradle.publish]\npublish_task = 50%\n"

def percentSettings : Settings := (Settings.packaged.readBytes percentBytes).1

def percentFailure : Failure := .composition .malformedReference "gradle.publish" "publish_task"

def percentCall : Call := ⟨false, "user.ini", some (.isPublish ["publish"])⟩

def percentSurroundings : Surroundings where
  settings := Settings.empty
  tree := ⟨⟨false, []⟩, [(["user.ini"], .file percentBytes)]⟩
  environment := ∅
  accountHome := some "/root"
  time := "12:00:00"
  remarks := fun _ => []
  writePackageUrl := fun found => .ok ("pkg:maven/" ++ found.group ++ "/" ++ found.artifact)
  draw := fun _ => .ok ()

theorem isPlain_percentSurroundings : percentSurroundings.IsPlain where
  names := by decide
  environment := fun entry member => absurd member List.not_mem_nil
  accountHome := by
    rintro home ⟨⟩
    decide

theorem read_percentCall :
    Call.read ["-dp", "user.ini", "is-publish", "publish"] = .ok percentCall := by
  with_unfolding_all decide

theorem percentSettings_malformed : percentSettings.text .publishTask = .error percentFailure ∧
    (Settings.packaged.readBytes percentBytes).2 = none := by
  have reading : Settings.readPackaged = fun settings => (settings.read Settings.packagedText).1 := rfl
  rw [percentSettings, Settings.packaged, reading, Settings.packagedText, Settings.packagedLines]
  repeat rw [List.flatMap_cons]
  rw [List.flatMap_nil]
  repeat rw [String.toList_ofList]
  with_unfolding_all decide

theorem load_percentCall : percentSurroundings.settings.load percentSurroundings.tree
    percentCall.defaultsPath = (percentSettings, none) := by
  have held : percentSurroundings.tree.bytes? percentCall.defaultsPath = some percentBytes := by
    with_unfolding_all decide
  have whole := percentSettings_malformed.2
  rw [Settings.load, if_neg (by decide), held]
  exact Prod.ext rfl (congrArg (Option.map _) whole)

theorem loadFault?_percentCall : percentSurroundings.loadFault? percentCall = none := by
  rw [loadFault?, load_percentCall]

theorem loaded_percentCall : percentSurroundings.loaded percentCall =
    { percentSurroundings with settings := percentSettings } := by
  rw [loaded, load_percentCall]
  rfl

theorem invocation_percentCall : Command.Invocation.ofArguments percentSettings ["publish"] =
    .ok ⟨["publish"], [], ∅⟩ := by
  with_unfolding_all decide

theorem isPublishing_percentCall :
    Command.isPublishing percentSettings ["publish"] = .error percentFailure := by
  rw [Command.isPublishing, percentSettings_malformed.1]
  rfl

/-- What keeps the tasks from being judged leaves the command without an answer. -/
theorem isPublish_eq_error {surroundings : Surroundings} {arguments tasks : List Text}
    {properties : Table} {failure : Failure} (silent : surroundings.remarks .command = [])
    (read : Command.Invocation.ofArguments surroundings.settings arguments = .ok ⟨tasks, [], properties⟩)
    (failed : Command.isPublishing surroundings.settings tasks = .error failure) (progress : Progress) :
    surroundings.isPublish arguments progress = .error failure progress := by
  unfold isPublish remark
  rw [silent, read]
  show ((liftM (Command.isPublishing surroundings.settings tasks) : Run Bool) >>= _) progress = _
  rw [failed]
  rfl

theorem work_percentCall (progress : Progress) :
    percentSurroundings.work percentCall (.isPublish ["publish"]) progress =
      .error percentFailure progress := by
  rw [work, loadFault?_percentCall]
  dsimp only
  rw [loaded_percentCall]
  exact isPublish_eq_error rfl invocation_percentCall isPublishing_percentCall progress

theorem outcome_percentCall : (run percentSurroundings
    ["-dp", "user.ini", "is-publish", "publish"]).outcome = .error percentFailure := by
  have ended : (percentSurroundings.worked percentCall (.isPublish ["publish"])).1 =
      .error percentFailure := by
    rw [worked, work_percentCall]
  rw [run_eq _ read_percentCall rfl, outcome_performCall, ended]
  rfl

theorem ending_of_percentCall :
    percentSurroundings.loadFault? percentCall = none ∧
      (percentSurroundings.loaded percentCall).Escapes (.isPublish ["publish"]) percentFailure := by
  have ending := ending_of_action percentSurroundings read_percentCall rfl isPlain_percentSurroundings
  rw [outcome_percentCall] at ending
  rcases ending with ⟨reason, composition, -⟩ | escapes
  · cases composition
  · exact escapes

/-- Not every run ends with an exit code, even if no library refuses anything. -/
theorem not_forall_run_ended : ¬ ∀ (surroundings : Surroundings) (words : List Text) (call : Call)
    (action : Action), Call.read words = .ok call → call.action = some action →
      (∀ word ∈ words, FileTree.nullChar ∉ word) → surroundings.IsPlain →
      (∀ found, ∃ url, surroundings.writePackageUrl found = .ok url) →
      (∀ layout, surroundings.draw layout = .ok ()) →
      ∃ outcome, (run surroundings words).outcome = .ok outcome := by
  intro ended
  have plainWords : ∀ word ∈ (["-dp", "user.ini", "is-publish", "publish"] : List Text),
      FileTree.nullChar ∉ word := by
    decide
  obtain ⟨outcome, same⟩ := ended percentSurroundings _ percentCall _ read_percentCall rfl plainWords
    isPlain_percentSurroundings (fun _ => ⟨_, rfl⟩) fun _ => rfl
  rw [outcome_percentCall] at same
  cases same

end Surroundings

end CommandLine

end GradlePublishing
