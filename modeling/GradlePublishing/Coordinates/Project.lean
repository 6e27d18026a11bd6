import GradlePublishing.Coordinates.Assigned
import GradlePublishing.Property.Declaration
import GradlePublishing.Repository.Deployment

/-!
The coordinates of the artifact that a Gradle project builds. They are assigned in the build script
or in the scripts it applies; what is missing there is taken from properties, from the settings
script and, for the artifact, from the name of the directory.
-/

namespace GradlePublishing.Coordinates

open GradlePublishing.Repository.Search (unread)

structure Gathering where
  settings : Settings
  tree : FileTree
  table : Table

namespace Gathering

/-- The scripts in `queue` and those they apply, in the order in which they are come by. `paths` are
those still to be read for the script before the queue. -/
def gather (gathering : Gathering) (visited : List AbsolutePath) :
    List Text → List Script → Except Failure (List Script)
  | [], [] => .ok []
  | [], script :: queue => do
    let paths ← Script.appliedPaths gathering.settings script.dialect script.content
      gathering.table script.path
    return script :: (← gather gathering visited paths queue)
  | path :: paths, queue =>
    let absolute := gathering.tree.absolute path
    if absolute ∈ visited then gather gathering visited paths queue
    else
      match _ : Script.load? gathering.tree path with
      | .error failure => .error failure
      | .ok none => gather gathering (absolute :: visited) paths queue
      | .ok (some script) => gather gathering (absolute :: visited) paths (queue ++ [script])
termination_by paths queue =>
  ((unread gathering.tree visited).length, queue.length, paths.length)
decreasing_by
  · exact .right _ (.left _ _ (by simp))
  · exact .right _ (.right _ (by simp))
  · exact Prod.Lex.right' _ (Repository.Search.length_unread_cons _ _ _) (.right _ (by simp))
  · exact .left _ _ (Repository.Search.length_unread_of_load? ‹_› ‹_›)

end Gathering

def scriptsOf (settings : Settings) (tree : FileTree) (table : Table) (build : Script) :
    Except Failure (List Script) :=
  Gathering.gather ⟨settings, tree, table⟩ [tree.absolute build.path] [] [build]

def buildScript (settings : Settings) (tree : FileTree) (directory : Text) :
    Except Failure Script := do
  match ← Script.find? settings tree directory (← settings.text .buildScript) with
  | none => throw (.noBuildScript directory)
  | some path =>
    match ← Script.load? tree path with
    | none => throw (.noBuildScript directory)
    | some script => return script

def resolved? (settings : Settings) (table : Table) (value : Option Text) :
    Except Failure (Option Text) :=
  match value with
  | none => .ok none
  | some value =>
    (Property.resolve settings table value).map fun resolved =>
      if Property.hasReference resolved then none else some resolved

def rootName (settings : Settings) (tree : FileTree) (table : Table) (directory : Text) :
    Except Failure (Option Text) := do
  match ← Script.find? settings tree directory (← settings.text .settingsScript) with
  | none => return none
  | some path =>
    match (← Script.load? tree path).bind fun script => rootNameOf? script.content with
    | none => return none
    | some name => return some (← Property.resolve settings table name)

end Coordinates

structure Coordinates where
  group : Text
  artifact : Text
  version : Text
  deriving DecidableEq, Repr

namespace Coordinates

def present? (value : Option Text) : Option Text := value.filter (!·.isEmpty)

/-- The coordinates of the project in a directory. `overriding` holds properties that take
precedence over all others. -/
def ofProject (settings : Settings) (tree : FileTree) (directory : Text) (overriding : Table) :
    Except Failure Coordinates := do
  Repository.checkDirectory tree directory
  let build ← buildScript settings tree directory
  let base ← Property.base settings tree directory none
  let scripts ← scriptsOf settings tree (Table.merge [base, overriding]) build
  let extra := Table.merge (scripts.map fun script => Property.extra script.content)
  let table := Table.merge [base, extra, overriding]
  let assigned := scripts.foldl
    (fun (assigned : Assigned) script => assigned.orElse (ofScript script.content)) {}
  let group := (← resolved? settings table assigned.group).or (table.value? "group")
  let version := (← resolved? settings table assigned.version).or (table.value? "version")
  let artifact ← match ← resolved? settings table assigned.artifact with
    | some artifact => pure (some artifact)
    | none => rootName settings tree table directory
  match present? group, present? version with
  | some group, some version =>
    let directoryName := (tree.absolute directory).components.getLastD []
    return ⟨group, (present? artifact).getD directoryName, version⟩
  | some _, none => throw (.missingCoordinates ["version"] directory)
  | none, some _ => throw (.missingCoordinates ["group"] directory)
  | none, none => throw (.missingCoordinates ["group", "version"] directory)

end GradlePublishing.Coordinates
