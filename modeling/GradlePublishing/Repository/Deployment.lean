import GradlePublishing.Property.Source
import GradlePublishing.Repository.Search

/-!
The repository that receives what a Gradle project publishes. Its sources are tried in a fixed
order: the build script, the settings script, the properties, and the init scripts of the user home.
The first one that names a repository decides.
-/

namespace GradlePublishing.Repository

def checkDirectory (tree : FileTree) (path : Text) : Except Failure Unit :=
  if path.isEmpty then .error .emptyWorkingDirectory
  else if tree.isDirectory path then .ok ()
  else .error (.notADirectory path)

def isSnapshotVersion (settings : Settings) (version : Text) : Except Failure Bool := do
  let suffix ← settings.text .snapshotSuffix
  return (Text.upper suffix).isSuffixOf (Text.upper (Text.strip version))

/-- What a source yields, or nothing if there is no usable repository in it. -/
def unlessAbsent (result : Except Failure α) : Except Failure (Option α) :=
  match result with
  | .ok value => .ok (some value)
  | .error failure => if failure.isAbsence then .ok none else .error failure

/-- The first script that yields a key, and the key. Scripts that cannot be read are passed over. -/
def firstScript? (search : Search) : List Text → Except Failure (Option (Text × Text))
  | [] => .ok none
  | path :: more => do
    match ← Script.load? search.tree path with
    | none => firstScript? search more
    | some script =>
      match ← unlessAbsent (search.keyOfScript ∅ script) with
      | some key => return some (path, key)
      | none => firstScript? search more

/-- The init scripts of a user home, from the highest precedence to the lowest. -/
def initScripts (settings : Settings) (tree : FileTree) (userHome : Text) :
    Except Failure (List Text) := do
  let named := (← settings.list .initScripts).map (Path.join userHome)
  let directory := Path.join userHome (← settings.text .initDirectory)
  if directory.contains FileTree.nullChar then throw .nullInPath
  let names := ((tree.names? directory).getD []).mergeSort fun a b => Text.le b a
  let extensions ← Script.extensions settings
  let scripts := names.filter fun name => extensions.any (·.isSuffixOf name)
  return (named ++ scripts.map (Path.join directory)).filter tree.isFile

def keyOfInitScripts (search : Search) (userHome : Text) : Except Failure Text := do
  match ← firstScript? search (← initScripts search.settings search.tree userHome) with
  | some (_, key) => return key
  | none => throw (.noRepository ("the init scripts of " ++ userHome))

structure Request where
  directory : Text
  version : Text
  arguments : List Text := []
  environment : Table := ∅
  userHome : Option Text := none
  buildFile : Option Text := none

def Request.search (request : Request) (settings : Settings) (tree : FileTree) :
    Except Failure Search := do
  let isSnapshot ← isSnapshotVersion settings request.version
  let base ← Property.base settings tree request.directory request.userHome
  let overriding ← Property.overriding settings request.arguments request.environment
  return ⟨settings, tree, base, overriding, isSnapshot⟩

inductive Place
  | script (path : Text)
  | properties
  | initScripts
  deriving DecidableEq, Repr

structure Deployment where
  key : Text
  place : Place
  deriving DecidableEq, Repr

def Deployment.report (found : Deployment) : Text :=
  let place : Text := match found.place with
    | .script path => Path.name path
    | .properties => "the Gradle properties"
    | .initScripts => "the Gradle init scripts"
  "Found the deploy repository " ++ found.key ++ " in " ++ place ++ "."

/-- The build script: the file that was asked for, or the usual script beside where it should be, or
the usual script of the project. -/
def buildScript? (settings : Settings) (tree : FileTree) (request : Request) :
    Except Failure (Option Text) := do
  let baseName ← settings.text .buildScript
  let asked ← match request.buildFile.filter (!·.isEmpty) with
    | some file =>
      let path := Path.join request.directory file
      if tree.isFile path then pure (some path)
      else Script.find? settings tree (Path.directory path) baseName
    | none => pure none
  match asked with
  | some path => return some path
  | none => Script.find? settings tree request.directory baseName

def deployment (settings : Settings) (tree : FileTree) (request : Request) :
    Except Failure Deployment := do
  checkDirectory tree request.directory
  let search ← request.search settings tree
  let build ← buildScript? settings tree request
  let settingsScript ←
    Script.find? settings tree request.directory (← settings.text .settingsScript)
  if let some (path, key) ← firstScript? search (build.toList ++ settingsScript.toList) then
    return ⟨key, .script path⟩
  if let some key ← unlessAbsent
      (selectProperty settings search.isSnapshot (Table.merge [search.base, search.overriding])) then
    return ⟨key, .properties⟩
  if let some home := request.userHome.filter (!·.isEmpty) then
    if let some key ← unlessAbsent (keyOfInitScripts search home) then
      return ⟨key, .initScripts⟩
  throw (.noDeployRepository request.directory)

end GradlePublishing.Repository
