import GradlePublishing.Failure
import GradlePublishing.Path
import GradlePublishing.Text.Utf8

/-!
A file tree as a value: files and directories by their path components. A path is followed from the
working directory, and every directory that it passes through must exist. The tree has no links, so
a path that can be followed leads to its normalised form.
-/

namespace GradlePublishing

inductive Node
  | directory
  | file (bytes : List UInt8)
  deriving DecidableEq

/-- Files and directories by path components. The root directory itself always exists, and relative
paths start at `current`. -/
structure FileTree where
  current : AbsolutePath
  nodes : List (List Text × Node)

inductive Obstacle
  | missing
  | notADirectory
  | isADirectory
  deriving DecidableEq, Repr

/-- The obstacle on a path, in the words of the system. -/
def Obstacle.message (path : Text) : Obstacle → Text
  | missing => "[Errno 2] No such file or directory: " ++ Text.quoted path
  | notADirectory => "[Errno 20] Not a directory: " ++ Text.quoted path
  | isADirectory => "[Errno 21] Is a directory: " ++ Text.quoted path

namespace FileTree

def node? (tree : FileTree) (components : List Text) : Option Node :=
  if components.isEmpty then some .directory else tree.nodes.lookup components

def absolute (tree : FileTree) (path : Text) : AbsolutePath := .ofText tree.current path

/-- The first directory that is missed on the way, where `above` is what was passed, in reverse. -/
def obstacleFrom? (tree : FileTree) (above : List Text) : List Text → Option Obstacle
  | [] => none
  | component :: rest =>
    match tree.node? above.reverse with
    | none => some .missing
    | some (.file _) => some .notADirectory
    | some .directory => tree.obstacleFrom? (Path.addComponent true above component) rest

def obstacle? (tree : FileTree) (path : Text) : Option Obstacle :=
  if path.isEmpty then some .missing
  else
    tree.obstacleFrom? (if Path.isAbsolute path then [] else tree.current.components.reverse)
      (path.splitOn '/')

def at? (tree : FileTree) (path : Text) : Option Node :=
  match tree.obstacle? path with
  | some _ => none
  | none => tree.node? (tree.absolute path).components

def isDirectory (tree : FileTree) (path : Text) : Bool := tree.at? path == some .directory

def isFile (tree : FileTree) (path : Text) : Bool :=
  match tree.at? path with
  | some (.file _) => true
  | _ => false

def bytes? (tree : FileTree) (path : Text) : Option (List UInt8) :=
  match tree.at? path with
  | some (.file bytes) => some bytes
  | _ => none

def nullChar : Char := Char.ofNat 0

/-- Reads a text file. A file that does not exist or is not text gives nothing; a path with a null
character cannot even be asked for. -/
def readText (tree : FileTree) (path : Text) : Except Failure (Option Text) :=
  if path.contains nullChar then .error .nullInPath
  else .ok ((tree.bytes? path).bind Text.ofBytes?)

def nameIn? (directory components : List Text) : Option Text :=
  match components.getLast? with
  | some name => if components.dropLast = directory then some name else none
  | none => none

def names? (tree : FileTree) (path : Text) : Option (List Text) :=
  if tree.isDirectory path then
    some (tree.nodes.filterMap fun node => nameIn? (tree.absolute path).components node.1)
  else none

def put (tree : FileTree) (components : List Text) (node : Node) : FileTree :=
  { tree with
    nodes := tree.nodes.filter (·.1 != components) ++
      (if components.isEmpty then [] else [(components, node)]) }

def putDirectories (tree : FileTree) (components : List Text) : FileTree :=
  (List.range (components.length + 1)).foldl
    (fun tree count =>
      if (tree.node? (components.take count)).isSome then tree
      else tree.put (components.take count) .directory) tree

/-- The tree that holds nothing but the way to its working directory. -/
def empty (current : AbsolutePath) : FileTree :=
  putDirectories ⟨current, []⟩ current.components

def addDirectory (tree : FileTree) (path : Text) : FileTree :=
  tree.putDirectories (tree.absolute path).components

def addFile (tree : FileTree) (path : Text) (bytes : List UInt8) : FileTree :=
  let components := (tree.absolute path).components
  (tree.putDirectories components.dropLast).put components (.file bytes)

def remove (tree : FileTree) (path : Text) : FileTree :=
  let components := (tree.absolute path).components
  { tree with nodes := tree.nodes.filter fun node => !components.isPrefixOf node.1 }

def write (tree : FileTree) (path : Text) (bytes : List UInt8) : Except Obstacle FileTree :=
  match tree.obstacle? path with
  | some obstacle => .error obstacle
  | none =>
    match tree.node? (tree.absolute path).components with
    | some .directory => .error .isADirectory
    | _ => .ok (tree.put (tree.absolute path).components (.file bytes))

def files (tree : FileTree) : List (List Text) :=
  tree.nodes.filterMap fun (components, node) =>
    match node with
    | .file _ => some components
    | .directory => none

theorem mem_files_of_bytes? {tree : FileTree} {path : Text} {bytes : List UInt8}
    (found : tree.bytes? path = some bytes) : (tree.absolute path).components ∈ tree.files := by
  unfold bytes? at? node? at found
  split at found
  · rename_i content held
    split at held
    · cases held
    · split at held
      · cases held
      · obtain ⟨before, after, same, _⟩ := List.lookup_eq_some_iff.mp held
        have member : ((tree.absolute path).components, Node.file content) ∈ tree.nodes := by
          rw [same]
          exact List.mem_append_right _ List.mem_cons_self
        exact List.mem_filterMap.mpr ⟨_, member, rfl⟩
  · cases found

end FileTree

end GradlePublishing
