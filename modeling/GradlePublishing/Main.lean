import GradlePublishing.CommandLine.Display
import GradlePublishing.CommandLine.Footprint
import GradlePublishing.PackageUrl
import Std.Time

/-!
The command line program. It gathers the files that a run looks at, carries out the run on them, and
shows and writes what comes out of it.
-/

namespace GradlePublishing.Main

open CommandLine

def environment : IO Table := do
  try
    let bytes ← IO.FS.readBinFile "/proc/self/environ"
    let entries := (Text.decodeAll bytes.toList).1.splitOn FileTree.nullChar
    return .ofList (entries.filterMap (Text.cut? '='))
  catch _ =>
    return .ofList (((← IO.getEnv "HOME").map fun home => ("HOME".toList, home.toList)).toList)

def timeOfDay : IO Text := do
  let now ← Std.Time.PlainDateTime.now
  return ((toString now.time).takeWhile (· != '.')).toString.toList

def lookAt (tree : FileTree) (path : Text) : IO FileTree := do
  if path.isEmpty || path.contains FileTree.nullChar then return tree
  try
    let real ← IO.FS.realPath (String.ofList path)
    let components := path.splitOn '/'
    let tree := (List.range components.length).foldl
      (fun tree count => tree.addDirectory (Text.joinWith ['/'] (components.take count) ++ ['/']))
      tree
    if ← real.isDir then return tree.addDirectory path
    else return tree.addFile path (← IO.FS.readBinFile real).toList
  catch _ => return tree

def lookInto (tree : FileTree) (path : Text) : IO FileTree := do
  try
    let entries ← (← IO.FS.realPath (String.ofList path)).readDir
    (entries.toList.map fun entry => Path.join path entry.fileName.toList).foldlM lookAt
      (← lookAt tree path)
  catch _ => return tree

def look (tree : FileTree) : Look → IO FileTree
  | .path path => lookAt tree path
  | .folder path => lookInto tree path

/-- Adds files until the run looks at nothing new. -/
partial def explore (surroundings : Surroundings) (words : List Text) (seen : List Look) :
    IO Surroundings := do
  let wanted := (footprint surroundings words).filter (!seen.contains ·)
  if wanted.isEmpty then return surroundings
  let tree ← wanted.foldlM look surroundings.tree
  explore { surroundings with tree := tree } words (wanted ++ seen)

def writeFiles (before after : FileTree) : IO Unit := do
  for (components, node) in after.nodes do
    match node with
    | .directory => pure ()
    | .file bytes =>
      if before.node? components != some node then
        let path := AbsolutePath.toText ⟨false, components⟩
        IO.FS.writeBinFile (String.ofList path) bytes.toByteArray

def homeOf? (number entry : Text) : Option Text :=
  match entry.splitOn ':' with
  | [_, _, other, _, _, home, _] => if other = number then some home else none
  | _ => none

def accountHome : IO (Option Text) := do
  try
    let status := (← IO.FS.readFile "/proc/self/status").toList
    let number? := (Text.lines status).findSome? fun line =>
      match (line.splitOn '\t') with
      | name :: number :: _ => if name = "Uid:".toList then some number else none
      | _ => none
    let accounts := (← IO.FS.readFile "/etc/passwd").toList
    return number?.bind fun number => (Text.lines accounts).findSome? (homeOf? number)
  catch _ => return none

/-- The surroundings of the process. Debug lines are not worked out, and plain lines can always be
drawn. -/
def start : IO Surroundings := do
  let current : AbsolutePath := .ofText ⟨false, []⟩ (← IO.currentDir).toString.toList
  return {
    settings := .empty
    tree := FileTree.empty current
    environment := ← environment
    accountHome := ← accountHome
    time := ← timeOfDay
    remarks := fun _ => []
    writePackageUrl := fun found =>
      (PackageUrl.render found.group found.artifact found.version).mapError PackageUrl.Refusal.message
    draw := fun _ => .ok () }

end GradlePublishing.Main

open GradlePublishing in
def main (arguments : List String) : IO UInt32 := do
  let words := arguments.map String.toList
  let surroundings ← Main.explore (← Main.start) words []
  let ending := CommandLine.run surroundings words
  Main.writeFiles surroundings.tree ending.tree
  match ending.outcome with
  | .error failure =>
    (← IO.getStderr).putStrLn (String.ofList failure.message)
    return 1
  | .ok outcome =>
    IO.print (String.ofList outcome.output)
    if let some console := outcome.console then
      for line in CommandLine.displayLines console do
        IO.println (String.ofList line)
    return UInt32.ofNat outcome.exitCode
