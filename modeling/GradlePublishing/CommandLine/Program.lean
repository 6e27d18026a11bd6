import GradlePublishing.CommandLine.Action
import GradlePublishing.Command.Invocation
import GradlePublishing.Console
import GradlePublishing.Coordinates.Project
import GradlePublishing.Settings.Load

/-!
The command line program as a function: from the command line and what lies around it to the exit
code, the console and the files. What the program leaves to libraries is a parameter: the writer of
package URLs and the drawing of the console, which may refuse what they are given. So are the debug
lines, which take no part in the results.
-/

namespace GradlePublishing.CommandLine

inductive Stage
  | command
  | project
  deriving DecidableEq, Repr

structure Surroundings where
  /-- The settings so far. -/
  settings : Settings
  tree : FileTree
  environment : Table
  /-- The home directory that the system has for the account of the user. -/
  accountHome : Option Text
  /-- The time of day that log lines bear. -/
  time : Text
  /-- The debug lines of each stage of the run. -/
  remarks : Stage → List Text
  /-- The package URL for coordinates, or the reason why there is none. -/
  writePackageUrl : Coordinates → Except Text Text
  /-- Draws a layout, or gives the reason why it cannot be drawn. -/
  draw : List Piece → Except Text Unit

/-- What a run shows. A run that is stopped early has no console. -/
structure Outcome where
  exitCode : Nat
  console : Option Console
  /-- What is printed outside the console. -/
  output : Text := []

structure Ending where
  outcome : Except Failure Outcome
  settings : Settings
  tree : FileTree

namespace ExitCode

def ok : Nat := 0
def notPublishing : Nat := 1
def wrongUsage : Nat := 2
def noAction : Nat := 64
def wrongDirectory : Nat := 64
def badData : Nat := 65
def noInput : Nat := 66
def cannotCreate : Nat := 73
def badSettings : Nat := 78

end ExitCode

/-- The exit code for a failure that is reported. Other failures are not expected and end the
run. -/
def exitCodeOf? : Failure → Option Nat
  | .emptyWorkingDirectory | .notADirectory _ | .noBuildScript _ => some ExitCode.noInput
  | .depthNotInteger | .malformedFamily _ => some ExitCode.badSettings
  | .noRepository _ | .noRepositoryUrl _ | .noDeployRepository _ | .noKeyInUrls _ _ | .emptyUrl
  | .malformedUrl _ _ | .noMarker _ _ | .noKeyAfterMarker _ | .unresolvedUrl _ _
  | .missingCoordinates _ _ => some ExitCode.badData
  | _ => none

structure Progress where
  console : Console
  tree : FileTree

/-- A part of a run. What it has come to is kept when it fails. -/
abbrev Run := EStateM Failure Progress

instance : MonadLift (Except Failure) Run := ⟨MonadExcept.ofExcept⟩

def onConsole (change : Console → Console) : Run Unit :=
  modify fun progress => { progress with console := change progress.console }

namespace Surroundings

/-- The home directory of the user. Without any it stays a tilde. -/
def homeDirectory (surroundings : Surroundings) : Text :=
  match (surroundings.environment.get? "HOME").or surroundings.accountHome with
  | none => ['~']
  | some home =>
    match Text.dropEndWhile (· == '/') home with
    | [] => ['/']
    | home => home

def log (surroundings : Surroundings) (level : Level) (message : Text) : Run Unit :=
  onConsole (·.log surroundings.time level message)

def logAll (surroundings : Surroundings) (level : Level) (messages : List Text) : Run Unit :=
  messages.forM (surroundings.log level)

def remark (surroundings : Surroundings) (stage : Stage) : Run Unit :=
  surroundings.logAll .debug (surroundings.remarks stage)

def directoryPath (surroundings : Surroundings) (asked : Option Text) : Text :=
  asked.getD surroundings.tree.current.toText

def directory (surroundings : Surroundings) (asked : Option Text) : AbsolutePath :=
  surroundings.tree.absolute (surroundings.directoryPath asked)

/-- Goes on with a result, or reports a failure that has an exit code. -/
def reporting (surroundings : Surroundings) (result : Except Failure α) (go : α → Run Nat) :
    Run Nat :=
  match result with
  | .ok value => go value
  | .error failure =>
    match exitCodeOf? failure with
    | some exitCode => do
      surroundings.log .error failure.message
      return exitCode
    | none => throw failure

def propertyArguments (properties : Table) : List Text :=
  properties.entries.map fun (name, value) => "-P" ++ name ++ "=" ++ value

def request (surroundings : Surroundings) (directory : AbsolutePath) (version : Text)
    (invocation : Command.Invocation) : Except Failure Repository.Request := do
  let userHome ← Property.userHome surroundings.settings surroundings.homeDirectory
    surroundings.environment
  return {
    directory := directory.toText
    version := version
    arguments := propertyArguments invocation.properties
    environment := surroundings.environment
    userHome := some userHome
    buildFile := some invocation.buildFile }

def findDeployment (surroundings : Surroundings) (directory : AbsolutePath) (version : Text)
    (invocation : Command.Invocation) : Except Failure Repository.Deployment := do
  Repository.deployment surroundings.settings surroundings.tree
    (← surroundings.request directory version invocation)

def deployRepository (surroundings : Surroundings) (asked : Option Text) (version : Text)
    (arguments : List Text) : Run Nat := do
  let directory := surroundings.directory asked
  onConsole (·.setDeployRow "Working Directory:" (surroundings.tree.current.relativeTo directory))
  onConsole (·.setDeployRow "Project Version:" version)
  let isSnapshot ← Repository.isSnapshotVersion surroundings.settings version
  onConsole (·.setDeployRow "Snapshot:" (if isSnapshot then "True" else "False"))
  surroundings.remark .command
  let invocation ← Command.Invocation.ofArguments surroundings.settings arguments
  if ← invocation.isUnrelated surroundings.settings then
    surroundings.log .info ("The Gradle tasks " ++ Text.joinWith " " invocation.tasks ++
      " do not publish artifacts.")
    onConsole (·.setDeployRow "Repository Key:" "Not Required")
    return ExitCode.ok
  surroundings.remark .project
  surroundings.reporting (surroundings.findDeployment directory version invocation) fun found => do
    surroundings.log .info found.report
    onConsole (·.setDeployRow "Repository Key:" ("[bold green]" ++ found.key ++ "[/]"))
    return ExitCode.ok

def coordinates (surroundings : Surroundings) (asked : Option Text) : Run Nat := do
  surroundings.remark .project
  let found := Coordinates.ofProject surroundings.settings surroundings.tree
    (surroundings.directory asked).toText ∅
  surroundings.reporting found fun found => do
    let url ← (surroundings.writePackageUrl found).mapError Failure.foreign
    surroundings.log .info ("Found the coordinates " ++ url ++ ".")
    onConsole (·.setCoordinateRow "Group:" found.group)
    onConsole (·.setCoordinateRow "Artifact:" found.artifact)
    onConsole (·.setCoordinateRow "Version:" found.version)
    onConsole (·.setCoordinateRow "Package URL:" url)
    return ExitCode.ok

def isPublish (surroundings : Surroundings) (arguments : List Text) : Run Nat := do
  surroundings.remark .command
  let invocation ← Command.Invocation.ofArguments surroundings.settings arguments
  if !invocation.buildFile.isEmpty then
    onConsole (·.setPublishRow "Build File:" invocation.buildFile)
  if ← Command.isPublishing surroundings.settings invocation.tasks then
    onConsole (·.setPublishRow "Publish Command:" "[bold green]Yes[/]")
    return ExitCode.ok
  onConsole (·.setPublishRow "Publish Command:" "No")
  return ExitCode.notPublishing

def dumpDefaults (surroundings : Surroundings) (asked : Option Text) : Run Nat := do
  let directory := surroundings.directoryPath asked
  if !surroundings.tree.isDirectory directory then
    surroundings.log .error ("The output directory " ++ directory ++ " does not exist.")
    return ExitCode.wrongDirectory
  let (tree, copy) ← Settings.writePackaged surroundings.tree directory
  modify ({ · with tree := tree })
  let report := copy.report tree tree.current.toText
  match copy with
  | .written path =>
    surroundings.log .info report
    onConsole (·.setPackagedCopy (tree.current.relativeTo (tree.absolute path)))
    return ExitCode.ok
  | .refused _ _ =>
    surroundings.log .error report
    return ExitCode.cannotCreate

def perform (surroundings : Surroundings) : Action → Run Nat
  | .deployRepository directory version arguments =>
    surroundings.deployRepository directory version arguments
  | .coordinates directory => surroundings.coordinates directory
  | .isPublish arguments => surroundings.isPublish arguments
  | .dumpDefaults directory => surroundings.dumpDefaults directory

/-- The surroundings once the settings for a call are loaded. Only a verbose run has debug lines. -/
def loaded (surroundings : Surroundings) (call : Call) : Surroundings :=
  { surroundings with
    settings := (surroundings.settings.load surroundings.tree call.defaultsPath).1
    remarks := if call.verbose then surroundings.remarks else fun _ => [] }

def loadFault? (surroundings : Surroundings) (call : Call) : Option Settings.LoadFault :=
  (surroundings.settings.load surroundings.tree call.defaultsPath).2

def work (surroundings : Surroundings) (call : Call) (action : Action) : Run Nat :=
  match surroundings.loadFault? call with
  | none => (surroundings.loaded call).perform action
  | some fault => do
    surroundings.logAll .error fault.report
    onConsole (·.setError "Exiting because the defaults configuration could not be loaded.")
    return ExitCode.noInput

end Surroundings

def opened (call : Call) (action : Action) : Console :=
  { verbose := call.verbose, command := action.name }

/-- The console when a run ends. With an exit code that tells of a failure, what is still worked on has
failed. -/
def closed (ended : Except Failure Nat) (console : Console) : Console :=
  match ended with
  | .ok exitCode =>
    if exitCode = ExitCode.ok ∨ exitCode = ExitCode.notPublishing then console
    else console.markFailed
  | .error _ => console

namespace Surroundings

def worked (surroundings : Surroundings) (call : Call) (action : Action) :
    Except Failure Nat × Progress :=
  match surroundings.work call action ⟨opened call action, surroundings.tree⟩ with
  | .ok exitCode progress => (.ok exitCode, progress)
  | .error failure progress => (.error failure, progress)

def lastConsole (surroundings : Surroundings) (call : Call) (action : Action) : Console :=
  let (ended, progress) := surroundings.worked call action
  closed ended progress.console

def drawn (surroundings : Surroundings) (console : Console) : Except Failure Unit :=
  (surroundings.draw console.layout).mapError .foreign

/-- Performs an action between a first and a last drawing of the console. A drawing that is refused
ends the run, whatever came before. The settings stay loaded even if the action fails. -/
def performCall (surroundings : Surroundings) (call : Call) (action : Action) : Ending :=
  match surroundings.drawn (opened call action) with
  | .error failure => ⟨.error failure, surroundings.settings, surroundings.tree⟩
  | .ok _ =>
    let (ended, progress) := surroundings.worked call action
    let console := closed ended progress.console
    let outcome : Except Failure Outcome := do
      surroundings.drawn console
      return { exitCode := ← ended, console := some console }
    ⟨outcome, (surroundings.loaded call).settings, progress.tree⟩

end Surroundings

def versionLine : Text := "gradle-resolver 0.1.0\n"

def endEarly (surroundings : Surroundings) (exitCode : Nat) (output : Text) : Ending :=
  ⟨.ok { exitCode := exitCode, console := none, output := output },
    surroundings.settings, surroundings.tree⟩

def run (surroundings : Surroundings) (words : List Text) : Ending :=
  match Call.read words with
  | .error .usage => endEarly surroundings ExitCode.wrongUsage []
  | .error .help => endEarly surroundings ExitCode.ok []
  | .error .version => endEarly surroundings ExitCode.ok versionLine
  | .ok call =>
    match call.action with
    | none => endEarly surroundings ExitCode.noAction []
    | some action => surroundings.performCall call action

end GradlePublishing.CommandLine
