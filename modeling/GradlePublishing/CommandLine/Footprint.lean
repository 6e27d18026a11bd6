import GradlePublishing.CommandLine.Program

/-!
The paths that a run looks at. They depend on what the files hold, so they are worked out from the
files known so far; a caller that adds the files at these paths and asks again until nothing new
comes up has all that the run needs. A setting at fault hides the paths that it names, but no
others: a run may well end without coming by it.
-/

namespace GradlePublishing.CommandLine

inductive Look
  | path (path : Text)
  | folder (path : Text)
  deriving DecidableEq, Repr

/-- What a result tells: nothing if it is a failure. -/
def known (result : Except Failure (List α)) : List α := result.toOption.getD []

def settingPath (settings : Settings) (directory : Text) (name : Settings.Setting) : List Text :=
  known ((settings.text name).map fun file => [Path.join directory file])

/-- The paths of the scripts with a base name in a directory, whether they exist or not. -/
def scriptPaths (settings : Settings) (directory : Text) (name : Settings.Setting) : List Text :=
  known do
    let baseName ← settings.text name
    return (← Script.extensions settings).map fun extension =>
      Path.join directory (baseName ++ extension)

def projectPaths (settings : Settings) (directory : Text) : List Text :=
  directory :: settingPath settings directory .propertiesFile ++
    scriptPaths settings directory .buildScript ++ scriptPaths settings directory .settingsScript

def searchPaths (search : Repository.Search) (path : Text) : List Text :=
  match Script.load? search.tree path with
  | .ok (some script) => (search.run ∅ script).visited.map AbsolutePath.toText
  | _ => []

namespace Surroundings

def deployPaths (surroundings : Surroundings) (request : Repository.Request) : List Look :=
  let settings := surroundings.settings
  let project := projectPaths settings request.directory
  let asked := match request.buildFile.filter (!·.isEmpty) with
    | some file =>
      let path := Path.join request.directory file
      path :: scriptPaths settings (Path.directory path) .buildScript
    | none => []
  let home := request.userHome.getD []
  let ofHome := settingPath settings home .propertiesFile ++
    (known (settings.list .initScripts)).map (Path.join home)
  let initDirectory := settingPath settings home .initDirectory
  let initScripts := known (Repository.initScripts settings surroundings.tree home)
  let applied := match request.search settings surroundings.tree with
    | .ok search => (project ++ asked ++ initScripts).flatMap (searchPaths search)
    | .error _ => []
  initDirectory.map .folder ++ (project ++ asked ++ ofHome ++ applied).map .path

def projectScripts (surroundings : Surroundings) (directory : Text) (table : Table) : List Script :=
  known do
    let build ← Coordinates.buildScript surroundings.settings surroundings.tree directory
    Coordinates.scriptsOf surroundings.settings surroundings.tree table build

def coordinatePaths (surroundings : Surroundings) (directory : Text) : List Look :=
  let settings := surroundings.settings
  let applied := match Property.base settings surroundings.tree directory none with
    | .ok table => (surroundings.projectScripts directory table).flatMap fun script =>
      known (Script.appliedPaths settings script.dialect script.content table script.path)
    | .error _ => []
  (projectPaths settings directory ++ applied).map .path

def actionPaths (surroundings : Surroundings) : Action → List Look
  | .deployRepository asked version arguments => known do
    let invocation ← Command.Invocation.ofArguments surroundings.settings arguments
    let request ← surroundings.request (surroundings.directory asked) version invocation
    return surroundings.deployPaths request
  | .coordinates asked => surroundings.coordinatePaths (surroundings.directory asked).toText
  | .isPublish _ => []
  | .dumpDefaults asked =>
    let directory := surroundings.directoryPath asked
    let target := Path.join directory Settings.packagedName
    [.path directory, .path target, .path (Path.join target Settings.packagedName)]

end Surroundings

/-- What a run looks at, as far as the files known so far tell. -/
def footprint (surroundings : Surroundings) (words : List Text) : List Look :=
  match Call.read words with
  | .ok call =>
    match call.action with
    | some action => .path call.defaultsPath :: (surroundings.loaded call).actionPaths action
    | none => []
  | .error _ => []

end GradlePublishing.CommandLine
