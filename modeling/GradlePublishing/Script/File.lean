import GradlePublishing.FileTree
import GradlePublishing.Settings.Known

/-!
Build scripts in files. The dialect of a script shows in the name of its file.
-/

namespace GradlePublishing

inductive Dialect
  | groovy
  | kotlin
  deriving DecidableEq, Repr

structure Script where
  path : Text
  content : Text
  dialect : Dialect
  deriving DecidableEq, Repr

namespace Script

def dialectOf (path : Text) : Dialect :=
  if (".kts".toList).isSuffixOf path then .kotlin else .groovy

def load? (tree : FileTree) (path : Text) : Except Failure (Option Script) := do
  return (← tree.readText path).map fun content => ⟨path, content, dialectOf path⟩

theorem bytes?_of_load? {tree : FileTree} {path : Text} {script : Script}
    (loaded : load? tree path = .ok (some script)) : ∃ bytes, tree.bytes? path = some bytes := by
  unfold load? FileTree.readText at loaded
  split at loaded
  · cases loaded
  · cases found : tree.bytes? path with
    | none => simp [found, bind, Except.bind, pure, Except.pure] at loaded
    | some bytes => exact ⟨bytes, rfl⟩

def extensions (settings : Settings) : Except Failure (List Text) := do
  return [← settings.text .groovyExtension, ← settings.text .kotlinExtension]

def find? (settings : Settings) (tree : FileTree) (directory baseName : Text) :
    Except Failure (Option Text) := do
  let paths := (← extensions settings).map fun extension =>
    Path.join directory (baseName ++ extension)
  return paths.find? tree.isFile

end Script

end GradlePublishing
