import GradlePublishing.FileTree
import GradlePublishing.Settings.Packaged

/-!
Loading a user's settings over the packaged ones, and handing out a copy of the packaged file.
-/

namespace GradlePublishing.Settings

inductive LoadFault
  | missing (path : Text)
  | unreadable (path : Text) (fault : DocumentFault)
  deriving DecidableEq, Repr

def LoadFault.report : LoadFault → List Text
  | missing path => ["The defaults configuration file " ++ path ++ " does not exist."]
  | unreadable path fault => ["Failed to read the defaults.ini files.", fault.message path]

/-- Loads the packaged file and then the user's file over the settings. An empty path stands for no
user's file. When the user's file has a fault, what was read before it stays. -/
def load (settings : Settings) (tree : FileTree) (path : Text) : Settings × Option LoadFault :=
  if path.isEmpty then (settings.readPackaged, none)
  else
    match tree.bytes? path with
    | none => (settings, some (.missing path))
    | some bytes =>
      let (loaded, fault) := settings.readPackaged.readBytes bytes
      (loaded, fault.map (.unreadable path))

def packagedName : Text := "defaults.ini"

/-- What became of a request for a copy of the packaged file: the path of the copy, or the path
that could not be written and the reason. -/
inductive Export
  | written (path : Text)
  | refused (path : Text) (obstacle : Obstacle)
  deriving DecidableEq, Repr

def writePackaged (tree : FileTree) (directory : Text) : Except Failure (FileTree × Export) :=
  let target := Path.join directory packagedName
  let path := if tree.isDirectory target then Path.join target packagedName else target
  if path.contains FileTree.nullChar then .error .nullInPath
  else
    match tree.write path packagedText.toBytes with
    | .ok tree => .ok (tree, .written target)
    | .error obstacle => .ok (tree, .refused path obstacle)

def Export.report (tree : FileTree) (start : Text) : Export → Text
  | written path =>
    "Dumped the default values in " ++ (tree.absolute start).relativeTo (tree.absolute path) ++ "."
  | refused path obstacle => obstacle.message path

end GradlePublishing.Settings
